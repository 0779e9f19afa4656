import HardwareIR.Context.Value
import HardwareIR.Proofs.Context.Nesting

/-! # Names of objects and values

The name of an object ends in the number of its slot, so that live objects of a kind have different
names (`Context.operation_eq_of_name`, `Context.block_eq_of_name`).

The text of a value is the name of what defines it, a word and an index.  Two values with one text
are therefore both results or both arguments, with one index (`Context.printValue_eq_iff`).  What
defines them need not be the same: a result is named after a slot, which may have been taken again,
and blocks can have any labels (`Context.Namesakes`).
-/

namespace HardwareIR

/-! ## Numbers in texts -/

/-- A number can be read back from its text. -/
theorem eq_of_repr_eq {i j : Nat} (same : i.repr = j.repr) : i = j := by
  have digits : Nat.toDigits 10 i = Nat.toDigits 10 j := by
    rw [← Nat.toList_repr, ← Nat.toList_repr, same]
  rw [← Nat.ofDigitChars_ten_toDigits (n := i), digits, Nat.ofDigitChars_ten_toDigits]

/-- Digits at the end of a text end where the last other character is. -/
theorem append_digits_inj {as bs xs ys : List Char} {a b : Char} (noDigit : a.isDigit = false)
    (noDigit' : b.isDigit = false) (digits : ∀ x ∈ xs, x.isDigit = true)
    (digits' : ∀ y ∈ ys, y.isDigit = true) (same : as ++ a :: xs = bs ++ b :: ys) :
    as = bs ∧ a = b ∧ xs = ys := by
  rcases List.append_eq_append_iff.mp same with ⟨cs, before, after⟩ | ⟨cs, before, after⟩
  · cases cs with
    | nil =>
      obtain ⟨rfl, rfl⟩ := List.cons.inj after
      exact ⟨by simpa using before.symm, rfl, rfl⟩
    | cons c cs =>
      -- Then the last other character of the second text is a digit of the first.
      obtain ⟨-, rest⟩ := List.cons.inj after
      have digit := digits b (by simp [rest])
      simp [digit] at noDigit'
  · cases cs with
    | nil =>
      obtain ⟨rfl, rfl⟩ := List.cons.inj after
      exact ⟨by simpa using before, rfl, rfl⟩
    | cons c cs =>
      obtain ⟨-, rest⟩ := List.cons.inj after
      have digit := digits' a (by simp [rest])
      simp [digit] at noDigit

/-- Of a text that ends in a number, the number and what stands before it are known. -/
theorem push_append_repr_inj {s t : String} {a b : Char} {i j : Nat} (noDigit : a.isDigit = false)
    (noDigit' : b.isDigit = false) (same : s.push a ++ i.repr = t.push b ++ j.repr) :
    s = t ∧ a = b ∧ i = j := by
  have digits : ∀ (n : Nat), ∀ x ∈ n.repr.toList, x.isDigit = true := by
    intro n x mem
    rw [Nat.toList_repr] at mem
    exact Nat.isDigit_of_mem_toDigits (by decide) (by decide) mem
  have lists := congrArg String.toList same
  simp only [String.toList_append, String.toList_push, List.append_assoc,
    List.singleton_append] at lists
  obtain ⟨first, rfl, numbers⟩ := append_digits_inj noDigit noDigit' (digits i) (digits j) lists
  exact ⟨String.toList_inj.mp first, rfl, eq_of_repr_eq (String.toList_inj.mp numbers)⟩

/-! ## Objects -/

theorem Handle.name_eq_iff {kind : ObjectKind} {h h' : Handle kind} :
    h.name = h'.name ↔ h.slot = h'.slot := by
  constructor
  · intro same
    have numbers : (h.slot + 1).repr = (h'.slot + 1).repr := by
      simpa [Handle.name, Nat.toString_eq_repr] using same
    exact Nat.succ.inj (eq_of_repr_eq numbers)
  · intro same
    rw [name, name, same]

namespace Context

variable {ctx : Context}

/-- Live operations have different names. -/
theorem operation_eq_of_name {op op' : OpRef} (live : ctx.Live (.operation op))
    (live' : ctx.Live (.operation op')) (same : op.name = op'.name) : op = op' := by
  obtain ⟨o, found⟩ := live
  obtain ⟨o', found'⟩ := live'
  refine Arena.eq_of_slot_eq (a := ctx.operations) ?_ ?_ (Handle.name_eq_iff.mp same)
  · rw [operation_eq_ok.mp found, Option.isSome_some]
  · rw [operation_eq_ok.mp found', Option.isSome_some]

theorem block_eq_of_name {b b' : BlockRef} (live : ctx.Live (.block b))
    (live' : ctx.Live (.block b')) (same : b.name = b'.name) : b = b' := by
  obtain ⟨content, found⟩ := live
  obtain ⟨content', found'⟩ := live'
  refine Arena.eq_of_slot_eq (a := ctx.blocks) ?_ ?_ (Handle.name_eq_iff.mp same)
  · rw [block_eq_ok.mp found, Option.isSome_some]
  · rw [block_eq_ok.mp found', Option.isSome_some]

/-! ## Values -/

/-- Different values that print alike for a reason of their own. -/
inductive Namesakes (ctx : Context) : Value → Value → Prop where
  /-- Results of operations that had the same slot, so that one of them is gone. -/
  | recycled {op op' : OpRef} {index : Nat} (other : op ≠ op') (slot : op.slot = op'.slot)
      (gone : ¬ (ctx.Live (.operation op) ∧ ctx.Live (.operation op'))) :
      Namesakes ctx (.result op index) (.result op' index)
  /-- Arguments of live blocks of one name, which is a label. -/
  | labelled {b b' : BlockRef} {content content' : Block} {index : Nat} {name : String}
      (other : b ≠ b') (live : ctx.block b = .ok content) (live' : ctx.block b' = .ok content')
      (named : ctx.blockName b = .ok name) (named' : ctx.blockName b' = .ok name)
      (label : content.label.isSome ∨ content'.label.isSome) :
      Namesakes ctx (.argument b index) (.argument b' index)

theorem printValue_result (ctx : Context) (op : OpRef) (index : Nat) :
    ctx.printValue (.result op index) =
      .ok (("%" ++ op.name ++ "_re").push 's' ++ index.repr) := by
  have word : "_res" = "_re".push 's' := rfl
  simp only [printValue, pure, Except.pure, Nat.toString_eq_repr, word, String.push_eq_append,
    String.append_assoc]
  rfl

theorem printValue_argument {b : BlockRef} {index : Nat} {text : String} :
    ctx.printValue (.argument b index) = .ok text ↔
      ∃ name, ctx.blockName b = .ok name ∧
        ("%" ++ name ++ "_ar").push 'g' ++ index.repr = text := by
  have word : "_arg" = "_ar".push 'g' := rfl
  cases named : ctx.blockName b with
  | ok name =>
    simp only [printValue, named, Except.bind_ok, pure, Except.pure, Nat.toString_eq_repr, word,
      String.push_eq_append, String.append_assoc, Except.ok.injEq, exists_eq_left']
    rfl
  | error fault => simp [printValue, named]

/-- A block without a label is named after its slot. -/
theorem blockName_of_unlabelled {b : BlockRef} {content : Block} (live : ctx.block b = .ok content)
    (unlabelled : content.label.isSome = false) : ctx.blockName b = .ok b.name := by
  have label : content.label = none := by simpa using unlabelled
  simp [blockName, live, label]

theorem live_of_blockName {b : BlockRef} {name : String} (named : ctx.blockName b = .ok name) :
    ∃ content, ctx.block b = .ok content := by
  obtain ⟨content, live, -⟩ := Except.bind_eq_ok.mp named
  exact ⟨content, live⟩

theorem Namesakes.printValue_eq {value value' : Value} (namesakes : ctx.Namesakes value value') :
    ctx.printValue value' = ctx.printValue value := by
  cases namesakes with
  | recycled other slot gone =>
    rw [printValue_result, printValue_result, Handle.name_eq_iff.mpr slot]
  | labelled other live live' named named' label => simp only [printValue, named, named']

/-- Blocks of one name are the same one, unless one of them has a label. -/
theorem eq_or_labelled {b b' : BlockRef} {name : String} (named : ctx.blockName b = .ok name)
    (named' : ctx.blockName b' = .ok name) (index : Nat) :
    b' = b ∨ ctx.Namesakes (.argument b index) (.argument b' index) := by
  obtain ⟨content, live⟩ := live_of_blockName named
  obtain ⟨content', live'⟩ := live_of_blockName named'
  by_cases same : b' = b
  · exact .inl same
  · by_cases label : content.label.isSome ∨ content'.label.isSome
    · exact .inr (.labelled (Ne.symm same) live live' named named' label)
    · -- Both are named after their slots.
      obtain ⟨plain, plain'⟩ : content.label.isSome = false ∧ content'.label.isSome = false := by
        simpa using label
      obtain rfl := Except.ok.inj ((blockName_of_unlabelled live plain).symm.trans named)
      have names := Except.ok.inj ((blockName_of_unlabelled live' plain').symm.trans named')
      exact .inl (block_eq_of_name ⟨content', live'⟩ ⟨content, live⟩ names)

/-- Operations of one name are the same one, unless one of them is gone. -/
theorem eq_or_recycled {op op' : OpRef} (names : op'.name = op.name) (index : Nat) :
    op' = op ∨ ctx.Namesakes (.result op index) (.result op' index) := by
  by_cases same : op' = op
  · exact .inl same
  · refine .inr (.recycled (Ne.symm same) (Handle.name_eq_iff.mp names.symm) ?_)
    rintro ⟨live, live'⟩
    exact same (operation_eq_of_name live' live names)

/-- The text of a value tells which value it is, but for namesakes. -/
theorem printValue_eq_iff {value value' : Value} {text : String}
    (printed : ctx.printValue value = .ok text) :
    ctx.printValue value' = .ok text ↔ value' = value ∨ ctx.Namesakes value value' := by
  constructor
  · intro printed'
    cases value with
    | result op index =>
      rw [printValue_result, Except.ok.injEq] at printed
      cases value' with
      | result op' index' =>
        rw [printValue_result, Except.ok.injEq, ← printed] at printed'
        obtain ⟨before, -, rfl⟩ := push_append_repr_inj rfl rfl printed'
        have names : op'.name = op.name := by simpa using before
        exact (eq_or_recycled names index').imp_left (congrArg (Value.result · index'))
      | argument b' index' =>
        -- The word of a result ends in another letter than that of an argument.
        obtain ⟨name, -, spelled⟩ := printValue_argument.mp printed'
        obtain ⟨-, letters, -⟩ := push_append_repr_inj rfl rfl (spelled.trans printed.symm)
        cases letters
    | argument b index =>
      obtain ⟨name, named, spelled⟩ := printValue_argument.mp printed
      cases value' with
      | result op' index' =>
        rw [printValue_result, Except.ok.injEq] at printed'
        obtain ⟨-, letters, -⟩ := push_append_repr_inj rfl rfl (spelled.trans printed'.symm)
        cases letters
      | argument b' index' =>
        obtain ⟨name', named', spelled'⟩ := printValue_argument.mp printed'
        obtain ⟨before, -, rfl⟩ := push_append_repr_inj rfl rfl (spelled.trans spelled'.symm)
        obtain rfl : name = name' := by simpa using before
        exact (eq_or_labelled named named' index).imp_left (congrArg (Value.argument · index))
  · rintro (rfl | namesakes)
    · exact printed
    · rw [namesakes.printValue_eq, printed]

end Context

end HardwareIR
