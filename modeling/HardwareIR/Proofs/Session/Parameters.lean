import HardwareIR.Proofs.Session.Materialization

/-! # Parameter values in sessions

In a reachable context the check of parameter values accepts what `ParameterValue` derives and
nothing else, and otherwise reports the first offence.  The verdict on a value inside a hardware
module is that of the check against its declarations.
-/

namespace HardwareIR

namespace Context

variable {ctx : Context} {declarations : List ParamDecl} {value : Attribute}

/-! ## Verdicts -/

/-- The verdict inside a hardware module does not depend on where errors would be reported. -/
theorem Sound.acceptsParameter_eq_check (sound : ctx.Sound) {hwModule : OpRef} {o : Operation}
    (live : ctx.operation hwModule = .ok o) (has : ∀ ty ∈ value.typeRefs, ctx.types.Has ty)
    (location : Location) :
    ∃ own verdict, ctx.parameters hwModule = .ok own ∧
      (ctx.acceptsParameter hwModule value).result = .ok verdict ∧
      (verdict = true ↔ (value.checkParameter (ctx.scope own location)).result = .ok ()) := by
  obtain ⟨own, found⟩ := exists_parameters live
  obtain ⟨verdict, known, accepted⟩ := sound.acceptsParameter live has
  refine ⟨own, verdict, found, known, ?_⟩
  have elsewhere : (value.checkParameter (ctx.scope own location)).result = .ok () ↔
      (value.checkParameter (ctx.scope own .unknown)).result = .ok () := by
    rw [sound.checkParameter_eq_ok_iff found has, sound.checkParameter_eq_ok_iff found has]
  rw [accepted, elsewhere]
  constructor
  · rintro ⟨own', found', ok⟩
    rw [found] at found'
    cases found'
    exact ok
  · exact fun ok => ⟨own, found, ok⟩

/-! ## The check -/

/-- The check is sound and complete for parameter values. -/
theorem checkParameter_decides (reachable : ctx.Reachable)
    (declared : ∀ d ∈ declarations, ctx.types.Has d.type)
    (has : ∀ ty ∈ value.typeRefs, ctx.types.Has ty) (allowReferences : Bool)
    (location : Location) :
    let scope : ParameterScope :=
      { types := ctx.types, declarations, allowReferences, location }
    ((value.checkParameter scope).result = .ok () ↔
      ParameterValue declarations allowReferences value) ∧
    (∀ fault, (value.checkParameter scope).result = .error fault ↔
      ∃ offence, scope.FirstOffence value.parts offence ∧
        fault = .rejected (.verification (.parameter offence) location)) ∧
    ∀ hwModule o, ctx.operation hwModule = .ok o →
      ∃ own verdict, ctx.parameters hwModule = .ok own ∧
        (ctx.acceptsParameter hwModule value).result = .ok verdict ∧
        (verdict = true ↔ (value.checkParameter (ctx.scope own location)).result = .ok ()) := by
  have sound := reachable.sound
  intro scope
  have grounded : scope.Grounded := ⟨sound.types, declared⟩
  refine ⟨Attribute.checkParameter_eq_ok_iff grounded has, fun fault => ?_, ?_⟩
  · exact Attribute.checkParameter_eq_error_iff grounded has
  · exact fun hwModule o live => sound.acceptsParameter_eq_check live has location

/-- An undeclared parameter as one of two operands of a logarithm. -/
def malformedLogarithm : Attribute :=
  .paramExpr .clog2 [.paramRef { text := "foo" } ⟨0⟩, wReference] ⟨0⟩

/-- The number of operands is reported, and not the name that stands inside. -/
theorem checkParameter_decides_malformed :
    ((Attribute.paramExpr .add [wReference, malformedLogarithm] ⟨0⟩).checkParameter
        (oneModule.scope [⟨{ text := "w" }, ⟨0⟩, none⟩] .unknown)).result =
      .error (.rejected (.verification (.parameter (.arity .clog2 2)) .unknown)) := by
  have typed : oneModule.types.Has ⟨0⟩ := ⟨.integer 8 .signless, rfl⟩
  have declared : ∀ d ∈ [(⟨{ text := "w" }, ⟨0⟩, none⟩ : ParamDecl)],
      oneModule.types.Has d.type := by
    intro d mem
    obtain rfl := List.mem_singleton.mp mem
    exact typed
  have has : ∀ ty ∈ (Attribute.paramExpr .add [wReference, malformedLogarithm] ⟨0⟩).typeRefs,
      oneModule.types.Has ty := by
    intro ty mem
    have same : ty = ⟨0⟩ := by
      simpa [Attribute.typeRefs, Attribute.typeRefsAll, wReference, malformedLogarithm] using mem
    exact same ▸ typed
  obtain ⟨-, failed, -⟩ :=
    checkParameter_decides reachable_oneModule declared has true .unknown
  refine (failed _).mpr ⟨.arity .clog2 2, ?_, rfl⟩
  -- The sum and its first operand are in order; the logarithm is not.
  refine .later (fun fault offence => ?_) (.later (fun fault offence => ?_) (.here (.arity ?_)))
  · cases offence with
    | arity refused => exact refused (.pair (by decide))
    | invalid excluded _ => cases excluded
  · have valid : ParameterValue [⟨{ text := "w" }, ⟨0⟩, none⟩] true wReference :=
      .reference rfl ⟨[], _, [], rfl, rfl, rfl, fun _ mem => absurd mem List.not_mem_nil⟩
    exact valid.clean wReference List.mem_cons_self fault offence
  · rintro (_ | binary | ⟨associative, -⟩)
    · exact binary rfl
    · exact absurd associative (by decide)

end Context

end HardwareIR
