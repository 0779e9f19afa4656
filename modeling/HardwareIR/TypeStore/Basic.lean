import HardwareIR.Fault
import HardwareIR.IRType.Basic
import HardwareIR.UniqueStore

/-! # Interned types

Types live in a unique store, filed by hashes of their digests, so that asking for the same type
twice gives the same handle.  A type is interned after the types and attributes that it is made of;
handles inside a stored type are therefore smaller than its own.

The hash is a parameter of the store.  It may be any function of digests: a hash that many types
have in common makes a search longer, but nothing else depends on it.
-/

namespace HardwareIR

/-- The hash that is taken where no other one is given.  It only tells digests of different lengths
apart. -/
def Digest.coarseHash (digest : Digest) : UInt64 :=
  .ofNat digest.length

/-- The types that were asked for, each once. -/
structure TypeStore extends UniqueStore UInt64 IRType where
  hash : Digest → UInt64 := Digest.coarseHash

namespace TypeStore

/-- What a type is filed by. -/
def key (s : TypeStore) (type : IRType) : UInt64 :=
  s.hash type.digest

def equal (a b : IRType) : Bool :=
  decide (a = b)

/-- The handle of a type that was interned before. -/
def find? (s : TypeStore) (type : IRType) : Option TypeRef :=
  (s.lookup (s.key type) (equal type)).map TypeRef.mk

/-- The handle of a type, which is interned if it is new. -/
def add (s : TypeStore) (type : IRType) : TypeRef × TypeStore :=
  let (index, store) := s.intern (s.key type) type equal
  (⟨index⟩, { s with toUniqueStore := store })

def get (s : TypeStore) (ty : TypeRef) : Except Fault IRType :=
  match s.get? ty.index with
  | some type => .ok type
  | none => Misuse.freed.throw

/-- The integer type of the width that an attribute gives.  A literal that stands for a width gives
the signless type of that fixed width. -/
def addParametric (s : TypeStore) (width : Attribute) : TypeRef × TypeStore :=
  match width with
  | .integer _ literal =>
    match literal.width32? with
    | some fixed => s.add (.integer fixed .signless)
    | none => s.add (.parametric width)
  | _ => s.add (.parametric width)

/-- The handle of a type that is asked for. -/
def request (s : TypeStore) : IRType → TypeRef × TypeStore
  | .parametric width => s.addParametric width
  | type => s.add type

end TypeStore

end HardwareIR
