import HardwareIR.Attribute.Basic

/-! # Digests of attributes

A digest is the data by which values are filed before they are compared.  It is a list of tokens:
the name of the kind, then the contents in order, lists with their length in front.

Two things deserve attention, as digests are not simply the contents.  The digest of an integer
literal holds the text of the word and not its width, so literals of different widths can have one
digest; and types enter by their handles.
-/

namespace HardwareIR

inductive Token where
  /-- The kind of what follows. -/
  | tag (id : QualifiedName)
  | number (n : Nat)
  | text (s : String)
deriving DecidableEq

/-- The data by which a value is filed. -/
abbrev Digest := List Token

def TypeRef.digest (ty : TypeRef) : Digest :=
  [.number ty.index]

namespace Attribute

mutual
/-- The contents of an attribute, behind the name of its kind. -/
def digest : Attribute → Digest
  | .string s => [.tag Kind.string.id, .text s]
  | .integer ty l => .tag Kind.integer.id :: ty.digest ++ [.text l.hex]
  | .float bits => [.tag Kind.float.id, .number bits.toNat]
  | .type ty => .tag Kind.type.id :: ty.digest
  | .array as => .tag Kind.array.id :: .number as.length :: digestAll as
  | .paramDecl n ty d => .tag Kind.paramDecl.id :: .text n.text :: ty.digest ++ digestOption d
  | .paramRef n ty => .tag Kind.paramRef.id :: .text n.text :: ty.digest
  | .paramExpr op as ty =>
    .tag Kind.paramExpr.id :: .text op.name :: .number as.length :: digestAll as ++ ty.digest
  | .verbatim t ty => .tag Kind.verbatim.id :: .text t :: ty.digest
  | .zeroCount p => [.tag Kind.zeroCount.id, .text p.name]

def digestAll : List Attribute → Digest
  | [] => []
  | a :: as => a.digest ++ digestAll as

/-- The digest of a value that may be missing says first whether it is there. -/
def digestOption : Option Attribute → Digest
  | none => [.number 0]
  | some a => .number 1 :: a.digest
end

end Attribute

end HardwareIR
