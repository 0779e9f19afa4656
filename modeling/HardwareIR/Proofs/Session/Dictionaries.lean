import HardwareIR.Proofs.Attribute.Dictionary
import HardwareIR.Proofs.Session.Standard

/-! # Dictionaries in sessions

Attributes that are set on an operation one after another leave it with the dictionary that has the
last attribute at every key (`Context.operation_after_settings`).  What was set before shows
nowhere, neither in comparisons nor in answers nor in texts, and neither does the order in which a
table happens to keep the entries (`Context.dictionaries_alike`).
-/

namespace HardwareIR

open SortedMap (ofInsertions)

namespace Context

variable {ctx : Context} {op : OpRef} {o : Operation} {updates updates' : List (String × Attribute)}

/-- The calls that set attributes of an operation. -/
def settings (op : OpRef) (updates : List (String × Attribute)) : List Call :=
  updates.map fun update => .setAttribute op update.1 update.2

theorem operation_run_setAttribute (live : ctx.operation op = .ok o) (key : String)
    (value : Attribute) :
    ((Call.setAttribute op key value).run ctx).1.operation op =
      .ok { o with attributes := o.attributes.insert key value } := by
  have set : ctx.setAttribute op key value = .ok (ctx.modifyOperation op fun o =>
      { o with attributes := o.attributes.insert key value }) := by
    rw [setAttribute, live]
    rfl
  rw [Call.run, set]
  show (ctx.modifyOperation op _).operation op = _
  rw [operation_modifyOperation, if_pos rfl, live]
  rfl

/-- What calls that set attributes leave of an operation. -/
theorem operation_after_settings (live : ctx.operation op = .ok o) :
    (ctx.after (settings op updates)).operation op = .ok { o with
      attributes := updates.foldl (fun d update => d.insert update.1 update.2) o.attributes } := by
  induction updates generalizing ctx o with
  | nil => exact live
  | cons update rest ih => exact ih (operation_run_setAttribute live update.1 update.2)

/-- Two histories that leave the same last attribute at every key lead to equal dictionaries, which
tell the last attributes and nothing else.  Tables with these histories are the same and in step
with the dictionary, in whatever order they keep their entries.  There is a text if the types in the
last attributes are in the store.  The dictionary is what an operation has on which the attributes
are set. -/
theorem dictionaries_alike (alike : ∀ key, lastAt? updates key = lastAt? updates' key) :
    (ofInsertions updates : AttributeDict) = ofInsertions updates' ∧
    AttributeDict.Records (ofInsertions updates) updates ∧
    (∀ table table' : AttributeTable, table.Filled updates → table'.Filled updates' →
      table.same table' = true ∧ table.InStep (ofInsertions updates) ∧
        table'.InStep (ofInsertions updates)) ∧
    (∀ ctx : Context, ctx.Reachable →
      (∀ key value, lastAt? updates key = some value →
        ∀ ty ∈ value.typeRefs, ctx.types.Has ty) →
      ∃ text, AttributeDict.print ctx.types (ofInsertions updates) = .ok text) ∧
    ∀ (ctx : Context) op o, ctx.operation op = .ok o → o.attributes = ∅ →
      (ctx.after (settings op updates)).operation op =
        .ok { o with attributes := ofInsertions updates } := by
  have equal : (ofInsertions updates : AttributeDict) = ofInsertions updates' :=
    SortedMap.ofInsertions_eq_iff.mpr alike
  refine ⟨equal, AttributeDict.records_ofInsertions updates, ?_, ?_, ?_⟩
  · intro table table' filled filled'
    have lookups : ∀ key, table.lookup key = table'.lookup key := by
      intro key
      rw [filled.lookup_eq, filled'.lookup_eq, alike]
    refine ⟨AttributeTable.same_iff.mpr lookups, AttributeTable.inStep_of_filled filled, ?_⟩
    rw [equal]
    exact AttributeTable.inStep_of_filled filled'
  · intro ctx reachable interned
    refine AttributeDict.exists_print fun key value found => ?_
    rw [SortedMap.get?_ofInsertions] at found
    exact reachable.sound.types.printAttribute_ok (interned key value found)
  · intro ctx op o live none
    rw [operation_after_settings live, none, ofInsertions]

/-- What is set at two keys, at one of them twice. -/
def markedFirst : List (String × Attribute) :=
  [("mark", .zeroCount .leading), ("kind", .type ⟨0⟩), ("mark", .zeroCount .trailing)]

/-- The same is left, but something else is replaced. -/
def markedLast : List (String × Attribute) :=
  [("kind", .string "i8"), ("kind", .type ⟨0⟩), ("mark", .zeroCount .trailing)]

def kindAndMark : AttributeTable :=
  AList.insert "kind" (.type ⟨0⟩) (AList.insert "mark" (.zeroCount .trailing) ∅)

def markAndKind : AttributeTable :=
  AList.insert "mark" (.zeroCount .trailing) (AList.insert "kind" (.type ⟨0⟩) ∅)

theorem filled_kindAndMark : kindAndMark.Filled markedFirst :=
  Table.Filled.empty.insert "mark" (Attribute.zeroCount .leading) (.refl _)
    |>.insert "kind" (Attribute.type ⟨0⟩) (.refl _)
    |>.insert "mark" (Attribute.zeroCount .trailing) (.swap _ _ _)

theorem filled_markAndKind : markAndKind.Filled markedLast :=
  Table.Filled.empty.insert "kind" (Attribute.string "i8") (.refl _)
    |>.insert "kind" (Attribute.type ⟨0⟩) (.refl _)
    |>.insert "mark" (Attribute.zeroCount .trailing) (.refl _)

theorem lastAt?_markedFirst (key : String) :
    lastAt? markedFirst key = lastAt? markedLast key := by
  by_cases mark : key = "mark"
  · subst mark
    rfl
  by_cases kind : key = "kind"
  · subst kind
    rfl
  · rw [lastAt?_eq_none_iff.mpr, lastAt?_eq_none_iff.mpr]
    · simp [markedLast, mark, kind]
    · simp [markedFirst, mark, kind]

/-- Two tables have the same text, although their entries are not in the same order. -/
theorem dictionaries_alike_rearranged :
    (∀ key, lastAt? markedFirst key = lastAt? markedLast key) ∧
      kindAndMark.Filled markedFirst ∧ markAndKind.Filled markedLast ∧
      kindAndMark.entries ≠ markAndKind.entries ∧ kindAndMark.same markAndKind = true ∧
      (∀ table ∈ [kindAndMark, markAndKind], AttributeTable.print nestedModule.types table =
        .ok "[kind = i8, mark = #arc<zero_count_predicate trailing>]") ∧
      ∃ o, (nestedModule.after (settings ⟨1, 0⟩ markedFirst)).operation ⟨1, 0⟩ = .ok o ∧
        o.attributes = ofInsertions markedLast := by
  obtain ⟨equal, -, tables, -, settled⟩ := dictionaries_alike lastAt?_markedFirst
  obtain ⟨same, inStep, inStep'⟩ := tables _ _ filled_kindAndMark filled_markAndKind
  have text : AttributeDict.print nestedModule.types (ofInsertions markedFirst) =
      .ok "[kind = i8, mark = #arc<zero_count_predicate trailing>]" := rfl
  refine ⟨lastAt?_markedFirst, filled_kindAndMark, filled_markAndKind, by decide, same, ?_, ?_⟩
  · simp only [List.forall_mem_cons, List.not_mem_nil, false_imp_iff, implies_true, and_true]
    exact ⟨(inStep.print_eq _).trans text, (inStep'.print_eq _).trans text⟩
  · exact ⟨_, settled nestedModule ⟨1, 0⟩ _ rfl rfl, equal⟩

end Context

end HardwareIR
