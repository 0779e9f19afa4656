import HardwareIR.Proofs.Except
import HardwareIR.Proofs.Parameter.Value
import HardwareIR.TypeStore.Verification

/-! # Literals in parameter values

The check of parameter values takes every literal as it is, while a literal by itself is to have an
integer type of its own width.  This is the only point on which the two checks differ: what can be
the value of a parameter is valid by itself exactly if the literals in it fit their types
(`ParameterValue.verifyAttribute_eq_ok_iff`).
-/

namespace HardwareIR

/-! ## Literals -/

/-- An integer type has the width of a literal. -/
def Literal.Fits (literal : Literal) (type : IRType) : Prop :=
  ∃ width sign, type = .integer width sign ∧ literal.width = width.toNat

theorem Attribute.verifyLiteral_eq_ok_iff {literal : Literal} {type : IRType} :
    Attribute.verifyLiteral type literal = .ok () ↔ literal.Fits type := by
  constructor
  · intro passed
    unfold verifyLiteral at passed
    split at passed
    next width sign =>
      split at passed
      next same => exact ⟨width, sign, rfl, same⟩
      next => cases passed
    next => cases passed
  · rintro ⟨width, sign, rfl, same⟩
    exact if_pos same

namespace Attribute

mutual
/-- The integer literals in an attribute at any depth, each with the type that it is given. -/
def literals : Attribute → List (TypeRef × Literal)
  | .integer ty literal => [(ty, literal)]
  | .array elements => literalsAll elements
  | .paramDecl _ _ default? => literalsDefault default?
  | .paramExpr _ operands _ => literalsAll operands
  | .string _ | .float _ | .type _ | .paramRef .. | .verbatim .. | .zeroCount _ => []

/-- The integer literals in several attributes. -/
def literalsAll : List Attribute → List (TypeRef × Literal)
  | [] => []
  | a :: as => a.literals ++ literalsAll as

/-- The integer literals in a default value, if there is one. -/
def literalsDefault : Option Attribute → List (TypeRef × Literal)
  | none => []
  | some a => a.literals
end

theorem mem_literalsAll {as : List Attribute} {entry : TypeRef × Literal} :
    entry ∈ literalsAll as ↔ ∃ a ∈ as, entry ∈ a.literals := by
  induction as with
  | nil => simp [literalsAll]
  | cons a as ih => simp [literalsAll, ih]

theorem verifyAllWith_eq_ok_iff {s : TypeStore} {verifyType : TypeRef → Except Fault Unit}
    {as : List Attribute} :
    verifyAllWith s verifyType as = .ok () ↔ ∀ a ∈ as, a.verifyWith s verifyType = .ok () := by
  induction as with
  | nil => simp [verifyAllWith]
  | cons a as ih =>
    rw [verifyAllWith, Except.bind_eq_ok, List.forall_mem_cons, ih]
    constructor
    · rintro ⟨_, first, others⟩
      exact ⟨first, others⟩
    · rintro ⟨first, others⟩
      exact ⟨(), first, others⟩

end Attribute

namespace TypeStore

variable {s : TypeStore}

/-- Every literal in an attribute fits its type. -/
def LiteralsFit (s : TypeStore) (a : Attribute) : Prop :=
  ∀ type literal, (type, literal) ∈ a.literals → ∃ t, s.get type = .ok t ∧ literal.Fits t

theorem literalsFit_of_literals_eq_nil {a : Attribute} (none : a.literals = []) :
    s.LiteralsFit a := by
  intro type literal mem
  rw [none] at mem
  cases mem

/-- Several attributes have fitting literals if each has. -/
theorem forall_literalsFit_iff {as : List Attribute} :
    (∀ a ∈ as, s.LiteralsFit a) ↔ ∀ type literal, (type, literal) ∈ Attribute.literalsAll as →
      ∃ t, s.get type = .ok t ∧ literal.Fits t := by
  constructor
  · intro fit type literal mem
    obtain ⟨a, listed, inside⟩ := Attribute.mem_literalsAll.mp mem
    exact fit a listed type literal inside
  · intro fit a listed type literal inside
    exact fit type literal (Attribute.mem_literalsAll.mpr ⟨a, listed, inside⟩)

theorem verifyAttribute_integer_eq_ok_iff {type : TypeRef} {literal : Literal} :
    s.verifyAttribute (.integer type literal) = .ok () ↔
      s.LiteralsFit (.integer type literal) := by
  rw [verifyAttribute, Attribute.verifyWith, Except.bind_eq_ok]
  simp only [Attribute.verifyLiteral_eq_ok_iff]
  constructor
  · intro fits type' literal' mem
    cases List.mem_singleton.mp mem
    exact fits
  · exact fun fit => fit type literal List.mem_cons_self

end TypeStore

/-! ## Parameter values -/

/-- A parameter value is a valid attribute exactly if the literals in it fit. -/
theorem ParameterValue.verifyAttribute_eq_ok_iff {s : TypeStore} {declarations : List ParamDecl}
    {allowReferences : Bool} {value : Attribute}
    (valid : ParameterValue declarations allowReferences value) :
    s.verifyAttribute value = .ok () ↔ s.LiteralsFit value := by
  induction valid with
  | integer => exact TypeStore.verifyAttribute_integer_eq_ok_iff
  | expression type takes _ ih =>
    -- The number of operands is right, so that the operands decide, on both sides.
    have operands := forall₂_congr ih
    have accepted := (Parameter.Opcode.acceptsArity_iff _ _).mpr takes
    rw [TypeStore.verifyAttribute, Attribute.verifyWith, if_pos accepted,
      Attribute.verifyAllWith_eq_ok_iff]
    exact operands.trans TypeStore.forall_literalsFit_iff
  | float | string | verbatim | reference =>
    exact iff_of_true rfl (TypeStore.literalsFit_of_literals_eq_nil rfl)

namespace TypeStore

variable {s : TypeStore}

/-- The declarations of parameters are valid exactly if the literals in the default values fit. -/
theorem verifyAttribute_declarations_eq_ok_iff {declarations : List ParamDecl}
    (closed : ∀ d ∈ declarations, ∀ value ∈ d.default?, ParameterValue [] false value) :
    s.verifyAttribute (.array (declarations.map ParamDecl.toAttribute)) = .ok () ↔
      s.LiteralsFit (.array (declarations.map ParamDecl.toAttribute)) := by
  have each : ∀ a ∈ declarations.map ParamDecl.toAttribute,
      (s.verifyAttribute a = .ok () ↔ s.LiteralsFit a) := by
    intro a mem
    obtain ⟨d, listed, rfl⟩ := List.mem_map.mp mem
    obtain ⟨name, type, default?⟩ := d
    cases default? with
    | none => exact iff_of_true rfl (literalsFit_of_literals_eq_nil rfl)
    | some value => exact (closed _ listed value rfl).verifyAttribute_eq_ok_iff
  rw [verifyAttribute, Attribute.verifyWith, Attribute.verifyAllWith_eq_ok_iff]
  exact (forall₂_congr each).trans forall_literalsFit_iff

end TypeStore

end HardwareIR
