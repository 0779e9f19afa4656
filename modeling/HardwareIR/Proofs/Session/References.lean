import HardwareIR.Proofs.Materialization.Surroundings
import HardwareIR.Proofs.Parameter.References
import HardwareIR.Proofs.Session.Materialization
import HardwareIR.Proofs.Session.Standard

/-! # References in materialized constants

A parameter valued constant that was materialized refers to parameters of the innermost hardware
module around it, each with its declared type.  This is about the references in its value.  Widths
in types can refer to anything: neither the type that a constant is wanted as nor the types in its
value are looked into.
-/

namespace HardwareIR

namespace Context

variable {ctx ctx' : Context} {dialect : Identifier} {point : InsertionPoint} {value : Attribute}
  {type : TypeRef} {op : OpRef}

/-- What a new operation finds around itself, if it is a parameter value that was accepted in the
module around its block. -/
theorem Inserted.declares {o : Operation} (inserted : Inserted ctx ctx' point op o)
    (sound : ctx.Sound) (wf' : ctx'.WellFormed) (has : ∀ ty ∈ value.typeRefs, ctx.types.Has ty)
    {b : BlockRef} (block : point.block? ctx = .ok (some b)) {hwModule : OpRef}
    (inner : ctx.InnermostModule b (some hwModule)) (accepted : ctx.Accepts hwModule value) :
    ∃ start declarations, ctx'.parent op = .ok start ∧
      ctx'.Innermost OpKind.hwModule.id start (some hwModule) ∧
      ctx'.parameters hwModule = .ok declarations ∧
      ∀ name ty, value.Refers name ty → Declares declarations name ty := by
  obtain ⟨b', block', parent⟩ := inserted.parent_self
  cases block.symm.trans block'
  obtain ⟨start, owner, innermost⟩ := inner
  obtain ⟨declarations, found, passed⟩ := accepted
  have valid := (sound.checkParameter_eq_ok_iff found has .unknown).mp passed
  refine ⟨start, declarations, parent.trans owner, ?_, ?_, ?_⟩
  · exact inserted.innermost sound.wellFormed wf' innermost
  · exact inserted.parameters_kept sound.wellFormed wf' found
  · exact fun name ty refers => valid.declares refers

/-- What was made as a parameter value refers, in its attributes, to parameters of the innermost
hardware module around it. -/
theorem materialize_declares (reachable : ctx.Reachable)
    (has : ∀ ty ∈ value.typeRefs, ctx.types.Has ty) {location : Location}
    (made : (ctx.materialize dialect point value type location).outcome.result = .ok (some op)) :
    let after := (ctx.materialize dialect point value type location).context
    ∀ o, after.operation op = .ok o → o.id = OpKind.paramValue.id →
      o.attributes.get? AttributeDict.paramValue = some value ∧
      ∃ start hwModule declarations, after.parent op = .ok start ∧
        after.Innermost OpKind.hwModule.id start (some hwModule) ∧
        after.parameters hwModule = .ok declarations ∧
        ∀ key stored, o.attributes.get? key = some stored →
          ∀ name ty, stored.Refers name ty → Declares declarations name ty := by
  intro after o live called
  have sound := reachable.sound
  have wf' : after.WellFormed := sound.wellFormed.materialize dialect point value type location
  have same : after = (ctx.materializeArc point value type location).context := by
    show (ctx.materialize dialect point value type location).context = _
    rw [materialize_of_made made]
  rw [materialize_of_made made] at made
  rw [same] at live wf' ⊢
  rcases sound.wellFormed.made_cases made with
    ⟨literalType, literal, -, -, inserted⟩ | ⟨b, hwModule, block, inner, accepted, inserted⟩
  · obtain ⟨b, k, -, live', -⟩ := inserted.live
    cases live.symm.trans live'
    -- An integer constant is called differently.
    have other : OpKind.constant.id ≠ OpKind.paramValue.id := by decide
    exact absurd called other
  · obtain ⟨b', k, -, live', -⟩ := inserted.live
    cases live.symm.trans live'
    obtain ⟨start, declarations, parent, innermost, found, declares⟩ :=
      inserted.declares sound wf' has block inner accepted
    refine ⟨paramValueOperation_value type value location, start, hwModule, declarations, parent,
      innermost, found, fun key stored listed => ?_⟩
    rw [(paramValueOperation_attributes type value location listed).2]
    exact declares

/-- The parameter of the module is declared around its use. -/
theorem materialize_declares_parameter :
    let after := (oneModule.materialize arcHooked.name (.blockEnd ⟨0, 0⟩) wReference ⟨0⟩
      .unknown).context
    ∃ start hwModule declarations, after.parent ⟨1, 0⟩ = .ok start ∧
      after.Innermost OpKind.hwModule.id start (some hwModule) ∧
      after.parameters hwModule = .ok declarations ∧
      Declares declarations { text := "w" } ⟨0⟩ := by
  intro after
  have has : ∀ ty ∈ wReference.typeRefs, oneModule.types.Has ty := by
    intro ty mem
    obtain rfl := List.mem_singleton.mp mem
    exact ⟨.integer 8 .signless, rfl⟩
  obtain ⟨o, live, called⟩ : ∃ o, after.operation ⟨1, 0⟩ = .ok o ∧ o.id = OpKind.paramValue.id :=
    ⟨_, rfl, rfl⟩
  obtain ⟨stored, start, hwModule, declarations, parent, innermost, found, declares⟩ :=
    materialize_declares reachable_oneModule has rfl o live called
  exact ⟨start, hwModule, declarations, parent, innermost, found,
    declares _ _ stored _ _ .reference⟩

/-! ## Types -/

/-- A type whose width is a parameter that nothing declares, and a hardware module with a parameter
of that type, among the standard dialects. -/
def sizedModule : Context :=
  Context.empty.after [.registerArc, .requestType (.integer 8 .signless),
    .requestType (.parametric (.paramRef { text := "FOO" } ⟨0⟩)),
    .newHwModule "m" [⟨{ text := "w" }, ⟨1⟩, none⟩]]

/-- A literal and the parameter, and their sum. -/
def sizedSum : Attribute :=
  .paramExpr .add [.verbatim "x" ⟨1⟩, .paramRef { text := "w" } ⟨1⟩] ⟨1⟩

theorem standard_sizedModule : sizedModule.Standard := by
  refine .call (.newHwModule "m" _) (.call (.requestType _) (.call (.requestType _)
    (.register .empty rfl) ?_) ?_) ?_
  · exact fun _ mem => absurd mem List.not_mem_nil
  · intro ty mem
    obtain rfl := List.mem_singleton.mp mem
    exact ⟨.integer 8 .signless, rfl⟩
  · intro ty mem
    obtain rfl := List.mem_singleton.mp mem
    exact ⟨.parametric (.paramRef { text := "FOO" } ⟨0⟩), rfl⟩

theorem acyclic_sizedModule : sizedModule.Acyclic :=
  acyclic_of_free (by decide)

/-- In the types of what is made there can be a reference to a parameter that is not declared: here
in that of the literal, of the reference, of the sum and of the result. -/
theorem materialize_undeclared_width :
    let made := sizedModule.materialize StandardDialect.arc.name (.blockEnd ⟨0, 0⟩) sizedSum ⟨1⟩
      .unknown
    sizedModule.Standard ∧ sizedModule.Acyclic ∧ made.outcome.result = .ok (some ⟨1, 0⟩) ∧
      ∃ o hwModule declarations, made.context.operation ⟨1, 0⟩ = .ok o ∧
        o.id = OpKind.paramValue.id ∧
        o.attributes.get? AttributeDict.paramValue = some sizedSum ∧
        made.context.parent ⟨1, 0⟩ = .ok (some hwModule) ∧
        made.context.Innermost OpKind.hwModule.id (some hwModule) (some hwModule) ∧
        made.context.parameters hwModule = .ok declarations ∧
        (∀ ty ∈ o.resultTypes ++ sizedSum.typeRefs,
          made.context.types.Refers { text := "FOO" } ⟨0⟩ ty) ∧
        ∀ ty, ¬ Declares declarations { text := "FOO" } ty := by
  intro made
  have typed : sizedModule.types.get ⟨1⟩ = .ok (.parametric (.paramRef { text := "FOO" } ⟨0⟩)) :=
    rfl
  -- All the types of the constant are the one that refers to what is not declared.
  have only : ∀ ty ∈ ⟨1⟩ :: sizedSum.typeRefs, ty = ⟨1⟩ := by
    simp [sizedSum, Attribute.typeRefs, Attribute.typeRefsAll]
  have has : ∀ ty ∈ sizedSum.typeRefs, sizedModule.types.Has ty := by
    intro ty mem
    rw [only ty (List.mem_cons_of_mem _ mem)]
    exact ⟨_, typed⟩
  have decides : sizedModule.Decides (.blockEnd ⟨0, 0⟩) sizedSum ⟨1⟩ (.paramValue sizedSum) := by
    refine .paramValue rfl ?_ ⟨some ⟨0, 0⟩, rfl, .here rfl rfl⟩ ⟨_, rfl, rfl⟩
    rintro ⟨-, _, _, ⟨⟩⟩
  have decided := standard_sizedModule.reachable.sound.plan_of_decides acyclic_sizedModule
    (standard_sizedModule.registered .hwModule) ⟨_, typed⟩ has decides
  have same : made = sizedModule.materializeArc (.blockEnd ⟨0, 0⟩) sizedSum ⟨1⟩ .unknown :=
    standard_sizedModule.materialize_eq _ _ _ _
  rw [materializeArc_of_plan decided] at same
  rw [same]
  -- The types of the sum were not looked at on the way, so that it was accepted.
  refine ⟨standard_sizedModule, acyclic_sizedModule, rfl, _, ⟨0, 0⟩, _, rfl, rfl, rfl, rfl,
    .here rfl rfl, rfl, ?_, ?_⟩
  · intro ty mem
    rw [only ty mem]
    exact .width typed .reference
  · intro ty declares
    obtain ⟨d, mem, called, -⟩ := declares.mem
    obtain rfl := List.mem_singleton.mp mem
    exact absurd called (by decide)

end Context

end HardwareIR
