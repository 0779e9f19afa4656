import HardwareIR.Proofs.Parameter.Value
import HardwareIR.Proofs.Report
import HardwareIR.Proofs.TypeStore.Grounded

/-! # The check of parameter values

The check accepts the parameter values (`Attribute.checkParameter_eq_ok_iff`) and reports what is
wrong with the first offending part of any other attribute
(`Attribute.checkParameter_eq_error_iff`).

What is wrong is told with the texts of types, so that the check has to find the types that an
attribute mentions.  Where it does, it always comes to an end (`Attribute.checkParameter_sensible`).
-/

namespace HardwareIR

/-! ## Scopes -/

namespace ParameterScope

variable {scope : ParameterScope}

/-- The types of declarations are in the store. -/
structure Grounded (scope : ParameterScope) : Prop where
  types : scope.types.Grounded
  declarations : ∀ d ∈ scope.declarations, scope.types.Has d.type

theorem reject_result {α : Type} (scope : ParameterScope) (fault : ParameterFault) :
    (scope.reject fault : Report α).result =
      .error (.rejected (.verification (.parameter fault) scope.location)) := rfl

/-- What comes out when values are checked: all is in order, or the first offence of their parts is
reported. -/
def Outcome (scope : ParameterScope) (valid : Prop) (parts : List Attribute)
    (result : Except Fault Unit) : Prop :=
  (valid ∧ result = .ok ()) ∨
  ∃ fault, scope.FirstOffence parts fault ∧
    result = .error (.rejected (.verification (.parameter fault) scope.location))

theorem Grounded.checkReference_outcome (grounded : scope.Grounded) (name : Identifier)
    {ty : TypeRef} (has : scope.types.Has ty) :
    scope.Outcome (scope.allowReferences = true ∧ Declares scope.declarations name ty)
      [.paramRef name ty] (scope.checkReference name ty).result := by
  unfold checkReference
  by_cases allowed : scope.allowReferences = true
  · rw [if_pos allowed]
    cases found : scope.find? name with
    | none =>
      refine .inr ⟨_, .here (.unknown allowed fun d mem called => ?_), rfl⟩
      have other := List.find?_eq_none.mp found d mem
      simp [called] at other
    | some d =>
      have declares : Declares scope.declarations name d.type := declares_iff.mpr ⟨d, found, rfl⟩
      by_cases same : d.type = ty
      · exact .inl ⟨⟨allowed, same ▸ declares⟩, by simp [same]⟩
      · have listed := List.mem_of_find?_eq_some found
        obtain ⟨used, usedText⟩ := grounded.types.print_ok has
        obtain ⟨wanted, wantedText⟩ := grounded.types.print_ok (grounded.declarations d listed)
        refine .inr ⟨_, .here (.typeMismatch allowed declares same usedText wantedText), ?_⟩
        simp only [same, if_false]
        rw [Report.lift_bind usedText, Report.lift_bind wantedText, reject_result]
  · rw [if_neg allowed]
    exact .inr ⟨_, .here (.notAllowed (Bool.not_eq_true _ ▸ allowed)), rfl⟩

theorem Grounded.rejectValue_outcome (grounded : scope.Grounded) {value : Attribute}
    (excluded : value.Excluded) (has : ∀ ty ∈ value.typeRefs, scope.types.Has ty) (valid : Prop) :
    scope.Outcome valid [value] (scope.rejectValue value).result := by
  obtain ⟨text, printed⟩ := grounded.types.printAttribute_ok has
  refine .inr ⟨_, .here (.invalid excluded printed), ?_⟩
  rw [rejectValue, Report.lift_bind printed, reject_result]

end ParameterScope

/-! ## The check -/

namespace Attribute

variable {scope : ParameterScope} {value : Attribute}

mutual
theorem checkParameter_outcome (grounded : scope.Grounded) : ∀ value : Attribute,
    (∀ ty ∈ value.typeRefs, scope.types.Has ty) →
    scope.Outcome (ParameterValue scope.declarations scope.allowReferences value) value.parts
      (value.checkParameter scope).result
  | .integer ty literal, _ => .inl ⟨.integer ty literal, rfl⟩
  | .float bits, _ => .inl ⟨.float bits, rfl⟩
  | .string text, _ => .inl ⟨.string text, rfl⟩
  | .verbatim text ty, _ => .inl ⟨.verbatim text ty, rfl⟩
  | .paramExpr op operands ty, has => by
    rw [checkParameter]
    split
    next accepted =>
      have takes := (op.acceptsArity_iff operands.length).mp accepted
      rcases checkParameters_outcome grounded operands fun ty mem =>
        has ty (List.mem_cons_of_mem _ mem) with ⟨values, ok⟩ | ⟨fault, first, failed⟩
      · exact .inl ⟨.expression ty takes values, ok⟩
      · refine .inr ⟨fault, .later (fun fault' offence => ?_) first, failed⟩
        cases offence with
        | arity refused => exact refused takes
        | invalid excluded _ => cases excluded
    next refused =>
      rw [op.acceptsArity_iff] at refused
      exact .inr ⟨_, .here (.arity refused), rfl⟩
  | .paramRef name ty, has => by
    rcases grounded.checkReference_outcome name (has ty List.mem_cons_self) with
      ⟨⟨allowed, declares⟩, ok⟩ | failed
    · exact .inl ⟨.reference allowed declares, ok⟩
    · exact .inr failed
  | .type ty, has => grounded.rejectValue_outcome (.type ty) has _
  | .array elements, has => grounded.rejectValue_outcome (.array elements) has _
  | .paramDecl name ty default?, has =>
    grounded.rejectValue_outcome (.paramDecl name ty default?) has _
  | .zeroCount predicate, has => grounded.rejectValue_outcome (.zeroCount predicate) has _

theorem checkParameters_outcome (grounded : scope.Grounded) : ∀ values : List Attribute,
    (∀ ty ∈ typeRefsAll values, scope.types.Has ty) →
    scope.Outcome (∀ value ∈ values, ParameterValue scope.declarations scope.allowReferences value)
      (partsAll values) (checkParameters scope values).result
  | [], _ => .inl ⟨by simp, rfl⟩
  | value :: rest, has => by
    have first := checkParameter_outcome grounded value fun ty mem =>
      has ty (List.mem_append_left _ mem)
    have others := checkParameters_outcome grounded rest fun ty mem =>
      has ty (List.mem_append_right _ mem)
    rw [checkParameters, partsAll, Report.bind_result]
    rcases first with ⟨valid, ok⟩ | ⟨fault, first, failed⟩
    · rw [ok]
      rcases others with ⟨values, ok⟩ | ⟨fault, first, failed⟩
      · exact .inl ⟨List.forall_mem_cons.mpr ⟨valid, values⟩, ok⟩
      · exact .inr ⟨fault, .append_right valid.clean first, failed⟩
    · rw [failed]
      exact .inr ⟨fault, first.append_left _, rfl⟩
end

/-- The check accepts exactly the parameter values. -/
theorem checkParameter_eq_ok_iff (grounded : scope.Grounded)
    (has : ∀ ty ∈ value.typeRefs, scope.types.Has ty) :
    (value.checkParameter scope).result = .ok () ↔
      ParameterValue scope.declarations scope.allowReferences value := by
  rcases checkParameter_outcome grounded value has with ⟨valid, ok⟩ | ⟨fault, first, failed⟩
  · simp [ok, valid]
  · obtain ⟨part, mem, offence⟩ := first.exists_mem
    rw [failed]
    exact ⟨nofun, fun valid => absurd offence (valid.clean part mem fault)⟩

/-- A failed check tells what is wrong with the first part that offends. -/
theorem checkParameter_eq_error_iff (grounded : scope.Grounded)
    (has : ∀ ty ∈ value.typeRefs, scope.types.Has ty) {fault : Fault} :
    (value.checkParameter scope).result = .error fault ↔ ∃ offence,
      scope.FirstOffence value.parts offence ∧
      fault = .rejected (.verification (.parameter offence) scope.location) := by
  rcases checkParameter_outcome grounded value has with ⟨valid, ok⟩ | ⟨offence, first, failed⟩
  · rw [ok]
    refine ⟨nofun, ?_⟩
    rintro ⟨offence, first, -⟩
    obtain ⟨part, mem, offends⟩ := first.exists_mem
    exact absurd offends (valid.clean part mem offence)
  · rw [failed]
    constructor
    · intro same
      cases same
      exact ⟨offence, first, rfl⟩
    · rintro ⟨offence', first', rfl⟩
      rw [first.unique first']

theorem checkParameter_sensible (grounded : scope.Grounded)
    (has : ∀ ty ∈ value.typeRefs, scope.types.Has ty) : (value.checkParameter scope).Sensible := by
  intro m failed
  obtain ⟨offence, -, same⟩ := (checkParameter_eq_error_iff grounded has).mp failed
  cases same

end Attribute

end HardwareIR
