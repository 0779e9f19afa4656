import HardwareIR.Proofs.Parameter.Order
import HardwareIR.Proofs.Report

/-! # Parameter values elsewhere and with other parts

`ParameterScope.Accepts` says that the check of parameter values passes, which it does for the
parameter values and for nothing else, whatever types they mention (`ParameterScope.accepts_iff`).

What is accepted stays accepted where more is declared.  What is accepted without references is
accepted everywhere.  A part of a value, given by its path (`Attribute.partAt?`), can be replaced by
any other value that is accepted in the same scope (`Attribute.replaceAt`).
-/

namespace HardwareIR

/-! ## Acceptance -/

namespace ParameterScope

variable {scope : ParameterScope} {value : Attribute}

/-- The check of parameter values passes. -/
def Accepts (scope : ParameterScope) (value : Attribute) : Prop :=
  (value.checkParameter scope).result = .ok ()

theorem checkReference_eq_ok_iff {name : Identifier} {type : TypeRef} :
    (scope.checkReference name type).result = .ok () ↔
      scope.allowReferences = true ∧ Declares scope.declarations name type := by
  rw [declares_iff]
  unfold checkReference find?
  by_cases allowed : scope.allowReferences = true
  · rw [if_pos allowed]
    cases found : scope.declarations.find? fun d => d.name == name with
    | none => simp [allowed, reject, Report.reject]
    | some d =>
      by_cases same : d.type = type
      · simp [allowed, same]
      · -- The types are only looked up to tell what is wrong.
        simp [allowed, same, Report.bind_eq_ok, reject, Report.reject]
  · simp [allowed, reject, Report.reject]

theorem rejectValue_ne_ok : (scope.rejectValue value).result ≠ .ok () := by
  intro passed
  obtain ⟨text, -, rejected⟩ := Report.bind_eq_ok.mp passed
  cases rejected

mutual
/-- The check passes for the parameter values. -/
theorem accepts_iff : ∀ {value : Attribute},
    scope.Accepts value ↔ ParameterValue scope.declarations scope.allowReferences value
  | .integer type literal => iff_of_true rfl (.integer type literal)
  | .float bits => iff_of_true rfl (.float bits)
  | .string text => iff_of_true rfl (.string text)
  | .verbatim text type => iff_of_true rfl (.verbatim text type)
  | .paramExpr op operands type => by
    rw [Accepts, Attribute.checkParameter]
    split
    next accepted =>
      rw [acceptsAll_iff]
      constructor
      · exact .expression type ((op.acceptsArity_iff _).mp accepted)
      · intro valid
        cases valid with
        | expression _ _ values => exact values
    next refused =>
      constructor
      · nofun
      · intro valid
        cases valid with
        | expression _ takes _ => exact absurd ((op.acceptsArity_iff _).mpr takes) refused
  | .paramRef name type => by
    rw [Accepts, Attribute.checkParameter, checkReference_eq_ok_iff]
    constructor
    · rintro ⟨allowed, declares⟩
      exact .reference allowed declares
    · intro valid
      cases valid with
      | reference allowed declares => exact ⟨allowed, declares⟩
  | .type _ => iff_of_false rejectValue_ne_ok nofun
  | .array _ => iff_of_false rejectValue_ne_ok nofun
  | .paramDecl .. => iff_of_false rejectValue_ne_ok nofun
  | .zeroCount _ => iff_of_false rejectValue_ne_ok nofun

theorem acceptsAll_iff : ∀ {values : List Attribute},
    (Attribute.checkParameters scope values).result = .ok () ↔
      ∀ value ∈ values, ParameterValue scope.declarations scope.allowReferences value
  | [] => iff_of_true rfl nofun
  | value :: rest => by
    rw [Attribute.checkParameters, Report.bind_eq_ok, List.forall_mem_cons, ← accepts_iff,
      ← acceptsAll_iff]
    constructor
    · rintro ⟨_, first, others⟩
      exact ⟨first, others⟩
    · rintro ⟨first, others⟩
      exact ⟨(), first, others⟩
end

end ParameterScope

/-! ## Other scopes -/

section Scopes

variable {declarations : List ParamDecl} {name : Identifier} {type : TypeRef} {value : Attribute}

/-- What is declared stays declared where more is declared after it. -/
theorem Declares.append (declares : Declares declarations name type) (more : List ParamDecl) :
    Declares (declarations ++ more) name type := by
  obtain ⟨before, d, after, rfl, called, typed, others⟩ := declares
  exact ⟨before, d, after ++ more, by simp, called, typed, others⟩

theorem ParameterValue.append {allowReferences : Bool}
    (valid : ParameterValue declarations allowReferences value) (more : List ParamDecl) :
    ParameterValue (declarations ++ more) allowReferences value :=
  valid.of_declares fun _ _ declares => declares.append more

/-- A value without references is one in every scope. -/
theorem ParameterValue.of_closed (closed : ParameterValue declarations false value)
    (declarations' : List ParamDecl) (allowReferences : Bool) :
    ParameterValue declarations' allowReferences value := by
  refine closed.mono fun name type allowed _ => ?_
  cases allowed

end Scopes

/-! ## Other parts -/

namespace Attribute

/-- The part of a value at a path, which says for each expression on the way which operand is next,
if there is one. -/
def partAt? : List Nat → Attribute → Option Attribute
  | [], value => some value
  | i :: path, .paramExpr _ operands _ => operands[i]?.bind (partAt? path)
  | _ :: _, _ => none

/-- Puts `new` where a value has its part at a path.  A path to no part changes nothing. -/
def replaceAt : Attribute → List Nat → Attribute → Attribute
  | _, [], new => new
  | .paramExpr op operands ty, i :: path, new =>
    .paramExpr op (operands.modify i fun operand => operand.replaceAt path new) ty
  | value, _ :: _, _ => value

mutual
/-- Every part of a value is at a path. -/
theorem exists_partAt? {part : Attribute} : ∀ {value : Attribute}, part ∈ value.parts →
    ∃ path, value.partAt? path = some part
  | .paramExpr op operands ty, mem => by
    rcases List.mem_cons.mp mem with rfl | inside
    · exact ⟨[], rfl⟩
    · obtain ⟨i, path, found⟩ := exists_partAt?_of_mem_partsAll inside
      exact ⟨i :: path, found⟩
  | .integer .., mem | .float _, mem | .string _, mem | .verbatim .., mem | .paramRef .., mem
  | .type _, mem | .array _, mem | .paramDecl .., mem | .zeroCount _, mem =>
    ⟨[], congrArg some (List.mem_singleton.mp mem).symm⟩

theorem exists_partAt?_of_mem_partsAll {part : Attribute} : ∀ {values : List Attribute},
    part ∈ partsAll values → ∃ (i : Nat) (path : List Nat),
      values[i]?.bind (partAt? path) = some part
  | value :: rest, mem => by
    rcases List.mem_append.mp mem with first | later
    · obtain ⟨path, found⟩ := exists_partAt? first
      exact ⟨0, path, found⟩
    · obtain ⟨i, path, found⟩ := exists_partAt?_of_mem_partsAll later
      exact ⟨i + 1, path, found⟩
end

/-- The new value is where the part was. -/
theorem partAt?_replaceAt {new part : Attribute} {path : List Nat} {value : Attribute}
    (found : value.partAt? path = some part) :
    (value.replaceAt path new).partAt? path = some new := by
  induction path generalizing value with
  | nil => rfl
  | cons i path ih =>
    cases value with
    | paramExpr op operands ty =>
      obtain ⟨operand, listed, inside⟩ := Option.bind_eq_some_iff.mp found
      rw [replaceAt, partAt?, List.getElem?_modify_eq, listed]
      exact ih inside
    | _ => cases found

/-- The elements of a list of which one is changed are elements from before or the changed one. -/
theorem mem_modify {f : Attribute → Attribute} {operands : List Attribute} {i : Nat}
    {operand : Attribute} (mem : operand ∈ operands.modify i f) :
    operand ∈ operands ∨ ∃ old ∈ operands, operand = f old := by
  rcases Nat.lt_or_ge i operands.length with inside | outside
  · obtain ⟨old, before, after, rfl, -, changed⟩ := List.exists_of_modify f inside
    rw [changed] at mem
    simp only [List.mem_append, List.mem_cons] at mem ⊢
    grind
  · rw [List.modify_eq_self outside] at mem
    exact .inl mem

end Attribute

/-- Any part of a parameter value can be replaced by another parameter value. -/
theorem ParameterValue.replaceAt {declarations : List ParamDecl} {allowReferences : Bool}
    {value new : Attribute} (valid : ParameterValue declarations allowReferences value)
    (valid' : ParameterValue declarations allowReferences new) (path : List Nat) :
    ParameterValue declarations allowReferences (value.replaceAt path new) := by
  induction path generalizing value with
  | nil => exact valid'
  | cons i path ih =>
    cases valid with
    | expression type takes values =>
      -- There are as many operands as before, so that the operator takes them.
      refine .expression type (by rwa [List.length_modify]) fun operand mem => ?_
      rcases Attribute.mem_modify mem with old | ⟨old, listed, rfl⟩
      · exact values operand old
      · exact ih (values old listed)
    | integer type literal => exact .integer type literal
    | float bits => exact .float bits
    | string text => exact .string text
    | verbatim text type => exact .verbatim text type
    | reference allowed declares => exact .reference allowed declares

end HardwareIR
