import HardwareIR.Fault

/-! # Dialects

A dialect is a namespace: it lists the qualified names of the operations, types and attributes that
belong to it, all of which begin with its own name.  It may also have a hook: a way to build the
operation that defines a constant.

Programs that use the library can bring hooks of their own.  What these are is a parameter,
`Foreign`, about which nothing is assumed; without one there are the hooks of the library only.
-/

namespace HardwareIR

/-- A way to build constants. -/
inductive Materializer (Foreign : Type := Empty) where
  /-- Builds the constants of `hw` for the `arc` dialect. -/
  | arc
  | foreign (hook : Foreign)
deriving DecidableEq, Repr

/-- A hook of the library is one of all hooks. -/
def Materializer.widen {Foreign : Type} : Materializer → Materializer Foreign
  | .arc => .arc

/-- A namespace of operations, types and attributes. -/
structure Dialect (Foreign : Type := Empty) where
  name : Identifier
  operations : SortedSet QualifiedName
  types : SortedSet QualifiedName
  attributes : SortedSet QualifiedName
  /-- How the dialect builds constants, if it can. -/
  materializer : Option (Materializer Foreign)
deriving DecidableEq

namespace Dialect

variable {Foreign : Type}

def empty (name : Identifier) : Dialect Foreign :=
  ⟨name, ∅, ∅, ∅, none⟩

/-- Refuses a name that belongs to another dialect. -/
def checkOwner (d : Dialect Foreign) (id : QualifiedName) : Except Fault Unit :=
  if id.dialect = d.name then .ok () else (Misuse.foreignName id d.name).throw

def addOperation (d : Dialect Foreign) (id : QualifiedName) : Except Fault (Dialect Foreign) := do
  d.checkOwner id
  return { d with operations := SortedSet.add d.operations id }

def addType (d : Dialect Foreign) (id : QualifiedName) : Except Fault (Dialect Foreign) := do
  d.checkOwner id
  return { d with types := SortedSet.add d.types id }

def addAttribute (d : Dialect Foreign) (id : QualifiedName) :
    Except Fault (Dialect Foreign) := do
  d.checkOwner id
  return { d with attributes := SortedSet.add d.attributes id }

end Dialect

end HardwareIR
