import HardwareIR.Proofs.Context.Verification
import HardwareIR.Proofs.Materialization.Surroundings
import HardwareIR.Proofs.Session.Materialization
import HardwareIR.Proofs.Session.Standard

/-! # Materialized constants under verification

What the `arc` dialect makes is decided on before there is an operation, from the block outward; it
is checked afterwards, from the operation outward.  In sessions with the standard dialects the two
agree: parameter valued constants pass, and integer constants pass if their literals fit.
-/

namespace HardwareIR

namespace Context

variable {ctx ctx' : Context} {point : InsertionPoint} {op : OpRef} {o : Operation}
  {value : Attribute} {type : TypeRef} {location : Location}

/-! ## After an insertion -/

/-- A new operation finds the hardware module that was around its block before. -/
theorem Inserted.enclosing_hwModule (inserted : Inserted ctx ctx' point op o) (sound : ctx.Sound)
    (sound' : ctx'.Sound) (acyclic : ctx.Acyclic) (plain : o.regions = [])
    (registered : (ctx.registry.kind? OpKind.hwModule.id).isSome) {b : BlockRef}
    (block : point.block? ctx = .ok (some b)) {found : Option OpRef}
    (inner : ctx.InnermostModule b found) : ctx'.enclosing op .hwModule = .ok found := by
  have wf := sound.wellFormed
  obtain ⟨b', block', parent⟩ := inserted.parent_self
  cases block.symm.trans block'
  obtain ⟨start, owner, innermost⟩ := inner
  refine sound'.enclosing_of_innermost (inserted.acyclic wf plain acyclic) ?_
    (parent.trans owner) (inserted.innermost wf sound'.wellFormed innermost)
  rw [inserted.registry]
  exact registered

/-- A new operation that is called like a kind is of that kind. -/
theorem Inserted.kindOf (inserted : Inserted ctx ctx' point op o) (standard : ctx.Standard)
    {kind : OpKind} (called : o.id = kind.id) : ctx'.kindOf op = .ok kind := by
  obtain ⟨b, k, -, live, -⟩ := inserted.live
  apply kindOf_of_known live
  show ctx'.registry.kind? o.id = some kind
  rw [inserted.registry, called]
  exact standard.kind?_eq kind

/-! ## Verdicts -/

/-- The verdict on a new integer constant is that on its literal. -/
theorem Inserted.verify_constant {literalType : TypeRef} {literal : Literal}
    (inserted : Inserted ctx ctx' point op (constantOperation type literalType literal location))
    (standard : ctx.Standard) (has : ctx.types.Has literalType) {width : UInt32}
    {sign : Signedness} (typed : ctx.types.get type = .ok (.integer width sign)) :
    LiteralVerdict ctx'.types type literalType literal width location
      (ctx'.verify (.operation op)).result := by
  obtain ⟨b, k, -, live, -⟩ := inserted.live
  have shape : ConstantShape { constantOperation type literalType literal location with
      links := k } type := ⟨rfl, rfl, rfl⟩
  have known : ctx'.kindOf op = .ok .constant := inserted.kindOf standard rfl
  rw [shape.verify_eq live known rfl]
  show LiteralVerdict ctx'.types type literalType literal width location (ctx'.verifyConstant op)
  rw [← inserted.types] at typed has
  apply shape.literalVerdict live _ _ has typed
  · exact constantOperation_value type literalType literal location
  · rw [inserted.types]
    exact standard.reachable.sound.types

/-- What was accepted in the module around the block is accepted in that around the operation. -/
theorem Inserted.verify_paramValue
    (inserted : Inserted ctx ctx' point op (paramValueOperation type value location))
    (standard : ctx.Standard) (sound' : ctx'.Sound) (acyclic : ctx.Acyclic)
    (has : ∀ ty ∈ value.typeRefs, ctx.types.Has ty) {b : BlockRef}
    (block : point.block? ctx = .ok (some b)) {hwModule : OpRef}
    (inner : ctx.InnermostModule b (some hwModule)) (accepted : ctx.Accepts hwModule value) :
    (ctx'.verify (.operation op)).result = .ok () := by
  have sound := standard.reachable.sound
  obtain ⟨b', k, -, live, -⟩ := inserted.live
  have shape : ConstantShape { paramValueOperation type value location with links := k } type :=
    ⟨rfl, rfl, rfl⟩
  have known : ctx'.kindOf op = .ok .paramValue := inserted.kindOf standard rfl
  have registered := standard.registered .hwModule
  -- The way outward from the operation leads to the module that was decided on, which declares what
  -- it declared then.
  have enclosing := inserted.enclosing_hwModule sound sound' acyclic rfl registered block inner
  have stored := paramValueOperation_value type value location
  obtain ⟨declarations, found, passed⟩ := accepted
  have found' := inserted.parameters_kept sound.wellFormed sound'.wellFormed found
  have has' : ∀ ty ∈ value.typeRefs, ctx'.types.Has ty := by
    rw [inserted.types]
    exact has
  rw [shape.verify_eq live known rfl]
  show (ctx'.verifyParamValue op).result = .ok ()
  rw [verifyParamValue_eq live stored enclosing found',
    sound'.checkParameter_eq_ok_iff found' has']
  exact (sound.checkParameter_eq_ok_iff found has .unknown).mp passed

/-- The check of what was just made: a parameter valued constant passes, and the verdict on an
integer constant is that on its literal. -/
theorem verify_materialized (standard : ctx.Standard) (acyclic : ctx.Acyclic)
    (has : ∀ ty ∈ type :: value.typeRefs, ctx.types.Has ty)
    (made : (ctx.materializeArc point value type location).outcome.result = .ok (some op)) :
    let after := (ctx.materializeArc point value type location).context
    let verdict := (after.verify (.operation op)).result
    (after.kindOf op = .ok .paramValue ∧ verdict = .ok ()) ∨
    (after.kindOf op = .ok .constant ∧ ∃ literalType literal width sign,
      value = .integer literalType literal ∧
      after.types.get type = .ok (.integer width sign) ∧
      LiteralVerdict after.types type literalType literal width location verdict) := by
  intro after verdict
  have sound := standard.reachable.sound
  have sound' : after.Sound := sound.materializeArc point location has
  rcases sound.wellFormed.made_cases made with
    ⟨literalType, literal, rfl, ⟨⟨t, typed, integer⟩, -⟩, inserted⟩ |
    ⟨b, hwModule, block, inner, accepted, inserted⟩
  · have known : after.kindOf op = .ok .constant := inserted.kindOf standard rfl
    have types : after.types = ctx.types := inserted.types
    cases t with
    | integer width sign =>
      refine .inr ⟨known, literalType, literal, width, sign, rfl, types ▸ typed, ?_⟩
      exact inserted.verify_constant standard
        (has literalType (List.mem_cons_of_mem _ List.mem_cons_self)) typed
    | _ =>
      -- A constant is wanted as an integer only.
      cases integer
  · refine .inl ⟨inserted.kindOf standard rfl, ?_⟩
    exact inserted.verify_paramValue standard sound' acyclic
      (fun ty mem => has ty (List.mem_cons_of_mem _ mem)) block inner accepted

/-- The parameter of the module passes as a value in its body. -/
theorem verify_materialized_parameter :
    ((standardModule.materializeArc (.blockEnd ⟨0, 0⟩) wReference ⟨0⟩ .unknown).context.verify
      (.operation ⟨1, 0⟩)).result = .ok () := by
  have typed : standardModule.types.Has ⟨0⟩ := ⟨.integer 8 .signless, rfl⟩
  have has : ∀ ty ∈ (⟨0⟩ : TypeRef) :: wReference.typeRefs, standardModule.types.Has ty := by
    intro ty mem
    have same : ty = ⟨0⟩ := by simpa [wReference, Attribute.typeRefs] using mem
    exact same ▸ typed
  have decides : standardModule.Decides (.blockEnd ⟨0, 0⟩) wReference ⟨0⟩
      (.paramValue wReference) := by
    refine .paramValue rfl ?_ ⟨some ⟨0, 0⟩, rfl, .here rfl rfl⟩ ⟨_, rfl, rfl⟩
    rintro ⟨-, _, _, ⟨⟩⟩
  have decided := standard_standardModule.reachable.sound.plan_of_decides acyclic_standardModule
    (standard_standardModule.registered .hwModule) typed
    (fun ty mem => has ty (List.mem_cons_of_mem _ mem)) decides
  have made : (standardModule.materializeArc (.blockEnd ⟨0, 0⟩) wReference ⟨0⟩
      .unknown).outcome.result = .ok (some ⟨1, 0⟩) := by
    rw [materializeArc_of_plan decided]
    rfl
  rcases verify_materialized standard_standardModule acyclic_standardModule has made with
    ⟨-, passed⟩ | ⟨-, _, _, _, _, same, -⟩
  · exact passed
  · cases same

end Context

end HardwareIR
