import HardwareIR.Attribute.Literal
import HardwareIR.Identifier
import HardwareIR.Parameter.Opcode

/-! # Attributes

Attributes are the constant data of operations: strings, numbers, types, lists, and the
declarations, references and expressions of module parameters.  They are compared by structure:

* `Attribute.same` decides equality, kind by kind, and `Attribute.same_iff` says that it is
  equality;
* floating point numbers are compared by their bits, so that a NaN equals itself and the two zeros
  differ; types are compared by their handles, which are unique.

`Attribute.id` names the kind of an attribute and `Attribute.type?` is the type of the value that
it denotes, if it denotes one.
-/

namespace HardwareIR

open Parameter (Opcode)

/-- A reference to an interned type. -/
structure TypeRef where
  index : Nat
deriving DecidableEq, Repr

/-- The end of a word from which zeros are counted. -/
inductive ZeroCountPredicate where
  | leading
  | trailing
deriving DecidableEq, Repr

def ZeroCountPredicate.name : ZeroCountPredicate → String
  | leading => "leading"
  | trailing => "trailing"

inductive Attribute where
  | string (value : String)
  /-- A word, as a value of an integer type of the same width. -/
  | integer (type : TypeRef) (value : Literal)
  /-- A double, given by its bits. -/
  | float (bits : UInt64)
  | type (type : TypeRef)
  | array (elements : List Attribute)
  /-- A parameter that a module declares, perhaps with a value that it has by default. -/
  | paramDecl (name : Identifier) (type : TypeRef) (default? : Option Attribute)
  /-- A use of a parameter of the module around. -/
  | paramRef (name : Identifier) (type : TypeRef)
  /-- An operator applied to parameter values. -/
  | paramExpr (opcode : Opcode) (operands : List Attribute) (type : TypeRef)
  /-- Text that stands for a parameter value as it is. -/
  | verbatim (text : String) (type : TypeRef)
  | zeroCount (predicate : ZeroCountPredicate)

structure ParamDecl where
  name : Identifier
  type : TypeRef
  default? : Option Attribute

def ParamDecl.toAttribute (d : ParamDecl) : Attribute :=
  .paramDecl d.name d.type d.default?

namespace Attribute

def decl? : Attribute → Option ParamDecl
  | .paramDecl name ty default? => some ⟨name, ty, default?⟩
  | _ => none

/-! ## Equality -/

mutual
/-- Whether two attributes are of the same kind and have the same contents. -/
def same : Attribute → Attribute → Bool
  | .string s, .string s' => s == s'
  | .integer ty l, .integer ty' l' => ty == ty' && l == l'
  | .float bits, .float bits' => bits == bits'
  | .type ty, .type ty' => ty == ty'
  | .array as, .array as' => sameAll as as'
  | .paramDecl n ty d, .paramDecl n' ty' d' => n == n' && ty == ty' && sameOption d d'
  | .paramRef n ty, .paramRef n' ty' => n == n' && ty == ty'
  | .paramExpr op as ty, .paramExpr op' as' ty' => op == op' && sameAll as as' && ty == ty'
  | .verbatim t ty, .verbatim t' ty' => t == t' && ty == ty'
  | .zeroCount p, .zeroCount p' => p == p'
  | _, _ => false

def sameAll : List Attribute → List Attribute → Bool
  | [], [] => true
  | a :: as, b :: bs => a.same b && sameAll as bs
  | _, _ => false

def sameOption : Option Attribute → Option Attribute → Bool
  | none, none => true
  | some a, some b => a.same b
  | _, _ => false
end

mutual
theorem eq_of_same : ∀ {a b : Attribute}, a.same b = true → a = b
  | .string _, b, h => by cases b <;> simp_all [same]
  | .integer .., b, h => by cases b <;> simp_all [same]
  | .float _, b, h => by cases b <;> simp_all [same]
  | .type _, b, h => by cases b <;> simp_all [same]
  | .array as, b, h => by
      cases b with
      | array bs => simp only [same] at h; rw [eq_of_sameAll h]
      | _ => simp [same] at h
  | .paramDecl _ _ d, b, h => by
      cases b with
      | paramDecl _ _ d' =>
        simp only [same, Bool.and_eq_true, beq_iff_eq] at h
        rw [h.1.1, h.1.2, eq_of_sameOption h.2]
      | _ => simp [same] at h
  | .paramRef .., b, h => by cases b <;> simp_all [same]
  | .paramExpr _ as _, b, h => by
      cases b with
      | paramExpr _ bs _ =>
        simp only [same, Bool.and_eq_true, beq_iff_eq] at h
        rw [h.1.1, eq_of_sameAll h.1.2, h.2]
      | _ => simp [same] at h
  | .verbatim .., b, h => by cases b <;> simp_all [same]
  | .zeroCount _, b, h => by cases b <;> simp_all [same]

theorem eq_of_sameAll : ∀ {as bs : List Attribute}, sameAll as bs = true → as = bs
  | [], bs, h => by cases bs <;> simp_all [sameAll]
  | a :: as, bs, h => by
      cases bs with
      | nil => simp [sameAll] at h
      | cons b bs =>
        simp only [sameAll, Bool.and_eq_true] at h
        rw [eq_of_same h.1, eq_of_sameAll h.2]

theorem eq_of_sameOption : ∀ {a b : Option Attribute}, sameOption a b = true → a = b
  | none, b, h => by cases b <;> simp_all [sameOption]
  | some a, b, h => by
      cases b with
      | none => simp [sameOption] at h
      | some b => simp only [sameOption] at h; rw [eq_of_same h]
end

mutual
theorem same_self : ∀ a : Attribute, a.same a = true
  | .string _ => by simp [same]
  | .integer .. => by simp [same]
  | .float _ => by simp [same]
  | .type _ => by simp [same]
  | .array as => by simp only [same]; exact sameAll_self as
  | .paramDecl _ _ d => by simp [same, sameOption_self d]
  | .paramRef .. => by simp [same]
  | .paramExpr _ as _ => by simp [same, sameAll_self as]
  | .verbatim .. => by simp [same]
  | .zeroCount _ => by simp [same]

theorem sameAll_self : ∀ as : List Attribute, sameAll as as = true
  | [] => by simp [sameAll]
  | a :: as => by simp [sameAll, same_self a, sameAll_self as]

theorem sameOption_self : ∀ a : Option Attribute, sameOption a a = true
  | none => by simp [sameOption]
  | some a => by simp [sameOption, same_self a]
end

/-- The comparison by structure is equality. -/
theorem same_iff {a b : Attribute} : a.same b = true ↔ a = b :=
  ⟨eq_of_same, fun h => h ▸ same_self a⟩

instance : DecidableEq Attribute := fun _ _ => decidable_of_iff _ same_iff

/-! ## Kinds -/

inductive Kind where
  | string
  | integer
  | float
  | type
  | array
  | paramDecl
  | paramRef
  | paramExpr
  | verbatim
  | zeroCount
deriving DecidableEq, Repr

def kind : Attribute → Kind
  | .string _ => .string
  | .integer .. => .integer
  | .float _ => .float
  | .type _ => .type
  | .array _ => .array
  | .paramDecl .. => .paramDecl
  | .paramRef .. => .paramRef
  | .paramExpr .. => .paramExpr
  | .verbatim .. => .verbatim
  | .zeroCount _ => .zeroCount

def Kind.id : Kind → QualifiedName
  | string => ⟨{ text := "builtin" }, { text := "string" }⟩
  | integer => ⟨{ text := "builtin" }, { text := "integer" }⟩
  | float => ⟨{ text := "builtin" }, { text := "float" }⟩
  | type => ⟨{ text := "builtin" }, { text := "type" }⟩
  | array => ⟨{ text := "builtin" }, { text := "array" }⟩
  | paramDecl => ⟨{ text := "hw" }, { text := "param.decl" }⟩
  | paramRef => ⟨{ text := "hw" }, { text := "param.decl.ref" }⟩
  | paramExpr => ⟨{ text := "hw" }, { text := "param.expr" }⟩
  | verbatim => ⟨{ text := "hw" }, { text := "param.verbatim" }⟩
  | zeroCount => ⟨{ text := "arc" }, { text := "zero_count_predicate" }⟩

/-- The type of the value that an attribute denotes, for the kinds that denote one. -/
def type? : Attribute → Option TypeRef
  | .integer ty _ => some ty
  | .type ty => some ty
  | .paramDecl _ ty _ => some ty
  | .paramRef _ ty => some ty
  | .paramExpr _ _ ty => some ty
  | .verbatim _ ty => some ty
  | _ => none

end Attribute

instance : DecidableEq ParamDecl := fun a b =>
  decidable_of_iff (a.name = b.name ∧ a.type = b.type ∧ a.default? = b.default?)
    (by cases a; cases b; simp)

end HardwareIR
