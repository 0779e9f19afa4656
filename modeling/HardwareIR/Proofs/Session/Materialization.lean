import HardwareIR.Proofs.Materialization.Effect
import HardwareIR.Proofs.Session.Sound

/-! # Materialization in sessions

In a reachable context, asking for a constant does exactly what the rules say
(`Context.Decides`), and what is made is all that there is new (`Context.Inserted`).  Where nothing
is made the context is what it was, unless a constant is stranded (`Context.Strands`).

The case at the end of each section is about a hardware module with one parameter.
-/

namespace HardwareIR

namespace Context

variable {ctx : Context} {dialect : Identifier} {point : InsertionPoint} {value : Attribute}
  {type : TypeRef} {op : OpRef}

/-! ## A module with one parameter -/

def arcHooked : Dialect :=
  { (Dialect.empty { text := "arc" } : Dialect) with materializer := some .arc }

/-- There is a hardware module, which declares one parameter. -/
def oneModule : Context :=
  Context.empty.after [.registerKind .hwModule (.empty { text := "hw" }), .install arcHooked,
    .requestType (.integer 8 .signless), .newHwModule "m" [⟨{ text := "w" }, ⟨0⟩, none⟩]]

/-- There was a hardware module. -/
def erasedModule : Context :=
  oneModule.after [.erase ⟨0, 0⟩]

def wReference : Attribute :=
  .paramRef { text := "w" } ⟨0⟩

def five : Attribute :=
  .integer ⟨0⟩ ⟨8, 5, by decide⟩

theorem reachable_oneModule : oneModule.Reachable := by
  refine .call (.newHwModule "m" _) (.call (.requestType _) (.call (.install arcHooked)
    (.call (.registerKind .hwModule _) .empty ?_) ?_) ?_) ?_
  · exact fun _ mem => absurd mem List.not_mem_nil
  · exact fun _ mem => absurd mem List.not_mem_nil
  · exact fun _ mem => absurd mem List.not_mem_nil
  · intro ty mem
    obtain rfl := List.mem_singleton.mp mem
    exact ⟨.integer 8 .signless, rfl⟩

theorem reachable_erasedModule : erasedModule.Reachable :=
  .call (.erase ⟨0, 0⟩) reachable_oneModule fun _ mem => absurd mem List.not_mem_nil

theorem acyclic_oneModule : oneModule.Acyclic :=
  acyclic_of_free (by decide)

/-! ## The decision -/

/-- At every live point exactly one plan is decided on.  If it makes an operation, then this is
inserted there; otherwise none is returned. -/
theorem materializeArc_decides (reachable : ctx.Reachable)
    (registered : (ctx.registry.kind? OpKind.hwModule.id).isSome) (acyclic : ctx.Acyclic)
    (live : point.Live ctx) (typed : ctx.types.Has type)
    (has : ∀ ty ∈ value.typeRefs, ctx.types.Has ty) (location : Location) :
    ∃ plan, (∀ plan', ctx.Decides point value type plan' ↔ plan' = plan) ∧
      match plan.operation? type location with
      | none => (ctx.materializeArc point value type location).outcome.result = .ok none
      | some o => ∃ op,
          (ctx.materializeArc point value type location).outcome.result = .ok (some op) ∧
          Inserted ctx (ctx.materializeArc point value type location).context point op o := by
  have sound := reachable.sound
  obtain ⟨plan, decides⟩ := sound.exists_decides acyclic live value type
  have decided := sound.plan_of_decides acyclic registered typed has decides
  refine ⟨plan, fun plan' => ⟨fun decides' => ?_, fun same => same ▸ decides⟩, ?_⟩
  · have decided' := sound.plan_of_decides acyclic registered typed has decides'
    exact Except.ok.inj (decided'.symm.trans decided)
  · rw [materializeArc_of_plan decided]
    cases makes : plan.operation? type location with
    | none => simp only [carryOut_of_none makes]
    | some o =>
      obtain ⟨op, between, added, plain, placed⟩ := ctx.exists_carryOut point makes
      obtain ⟨b, block, -⟩ := block_of_plan decided (by rintro rfl; cases makes)
      have live' : ctx.Live (.block b) := by
        rcases sound.wellFormed.block?_of_live live with none | ⟨b', block', live'⟩
        · cases block.symm.trans none
        · cases block.symm.trans block'
          exact live'
      obtain ⟨ctx', inserted⟩ := sound.wellFormed.exists_insert_added added block live'
      simp only [placed, place, inserted]
      exact ⟨op, rfl, sound.wellFormed.inserted_of_insert added plain inserted⟩

/-- The parameter of the module becomes a parameter value in its body. -/
theorem materializeArc_decides_parameter :
    ∃ op, (oneModule.materializeArc (.blockEnd ⟨0, 0⟩) wReference ⟨0⟩ .unknown).outcome.result =
        .ok (some op) ∧
      Inserted oneModule
        (oneModule.materializeArc (.blockEnd ⟨0, 0⟩) wReference ⟨0⟩ .unknown).context
        (.blockEnd ⟨0, 0⟩) op (paramValueOperation ⟨0⟩ wReference .unknown) := by
  have live : (InsertionPoint.blockEnd ⟨0, 0⟩).Live oneModule := ⟨_, rfl⟩
  have typed : oneModule.types.Has ⟨0⟩ := ⟨.integer 8 .signless, rfl⟩
  have has : ∀ ty ∈ wReference.typeRefs, oneModule.types.Has ty := by
    intro ty mem
    obtain rfl := List.mem_singleton.mp mem
    exact typed
  obtain ⟨plan, unique, made⟩ :=
    materializeArc_decides reachable_oneModule rfl acyclic_oneModule live typed has .unknown
  have decided := reachable_oneModule.sound.plan_of_decides acyclic_oneModule rfl typed has
    ((unique plan).mpr rfl)
  cases decided
  exact made

/-! ## The effect -/

/-- The operation that is returned is new, at the insertion point, and all that is new. -/
theorem materialize_effect (reachable : ctx.Reachable) {location : Location}
    (made : (ctx.materialize dialect point value type location).outcome.result = .ok (some op)) :
    (ctx.materialize dialect point value type location).point = point ∧
      ∃ plan o, (ctx.plan point value type).result = .ok plan ∧
        plan.operation? type location = some o ∧
        Inserted ctx (ctx.materialize dialect point value type location).context point op o := by
  have wf := reachable.sound.wellFormed
  refine ⟨ctx.materialize_point dialect, ?_⟩
  by_cases hooked : (ctx.registry.dialects.get? dialect).bind Dialect.materializer = some .arc
  · rw [materialize_of_hooked hooked] at made ⊢
    cases decided : (ctx.plan point value type).result with
    | error fault =>
      rw [materializeArc_of_error decided] at made
      cases made
    | ok plan =>
      rw [materializeArc_of_plan decided] at made ⊢
      obtain ⟨o, between, ctx', makes, added, plain, inserted, same⟩ := exists_insert_of_made made
      refine ⟨plan, o, rfl, makes, ?_⟩
      rw [same]
      exact wf.inserted_of_insert added plain inserted
  · rw [materialize_of_not_hooked hooked] at made
    cases made

theorem materialize_effect_parameter :
    ∃ plan o, (oneModule.plan (.blockEnd ⟨0, 0⟩) wReference ⟨0⟩).result = .ok plan ∧
      plan.operation? ⟨0⟩ .unknown = some o ∧
      Inserted oneModule (oneModule.materialize arcHooked.name (.blockEnd ⟨0, 0⟩) wReference ⟨0⟩
        .unknown).context (.blockEnd ⟨0, 0⟩) ⟨1, 0⟩ o :=
  (materialize_effect reachable_oneModule rfl).2

/-! ## No operation -/

/-- Where no operation is made, nothing happens, unless a constant is wanted in a freed block.  Then
it is made all the same, and left in no block. -/
theorem materialize_unchanged_iff (reachable : ctx.Reachable)
    (has : ∀ ty ∈ value.typeRefs, ctx.types.Has ty) {location : Location}
    (failed : ∀ op, (ctx.materialize dialect point value type location).outcome.result ≠
      .ok (some op)) :
    (ctx.materialize dialect point value type location).point = point ∧
      ((ctx.materialize dialect point value type location).context = ctx ↔
        ¬ ctx.Strands dialect point value type) ∧
      (ctx.Strands dialect point value type →
        (ctx.materialize dialect point value type location).outcome.result =
          Misuse.freed.throw ∧
        ∃ op literalType literal, value = .integer literalType literal ∧
          OperationAdded ctx (ctx.materialize dialect point value type location).context op
            (constantOperation type literalType literal location)) := by
  have sound := reachable.sound
  have stranded := fun strands : ctx.Strands dialect point value type =>
    sound.materialize_of_strands has strands location
  refine ⟨ctx.materialize_point dialect, ⟨?_, ?_⟩, stranded⟩
  · intro same strands
    obtain ⟨-, op, literalType, literal, -, added⟩ := stranded strands
    -- The stranded operation was not there before.
    have live := added.live
    rw [same, added.fresh] at live
    cases live
  · exact fun other => sound.wellFormed.materialize_of_not_strands other failed

/-- A constant that is wanted in the body of an erased module is made in vain. -/
theorem materialize_unchanged_iff_erased :
    (erasedModule.materialize arcHooked.name (.blockEnd ⟨0, 0⟩) five ⟨0⟩ .unknown).context ≠
      erasedModule := by
  have typed : erasedModule.types.Has ⟨0⟩ := ⟨.integer 8 .signless, rfl⟩
  have has : ∀ ty ∈ five.typeRefs, erasedModule.types.Has ty := by
    intro ty mem
    obtain rfl := List.mem_singleton.mp mem
    exact typed
  have failed : ∀ op, (erasedModule.materialize arcHooked.name (.blockEnd ⟨0, 0⟩) five ⟨0⟩
      .unknown).outcome.result ≠ .ok (some op) := by
    intro op made
    cases made
  have strands : erasedModule.Strands arcHooked.name (.blockEnd ⟨0, 0⟩) five ⟨0⟩ := by
    refine ⟨rfl, ⟨⟨0, 0⟩, .inr rfl, ?_⟩, ⟨_, rfl, rfl⟩, _, _, rfl⟩
    rintro ⟨content, found⟩
    cases found
  obtain ⟨-, unchanged, -⟩ := materialize_unchanged_iff reachable_erasedModule has failed
  exact fun same => unchanged.mp same strands

end Context

end HardwareIR
