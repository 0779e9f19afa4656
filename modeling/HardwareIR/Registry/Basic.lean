import HardwareIR.OpKind.Basic
import HardwareIR.Registry.Dialect

/-! # The registry

What a context knows: the kinds of operations, by their qualified names, and the dialects.  Both
only grow.  A dialect is put together outside of the registry and then installed in it; one that
was installed before under the same name stays as it is.

Making a kind of operations known and listing it in a dialect are two steps.  The first stands
even if the dialect then refuses the name (`OpKind.register`).
-/

namespace HardwareIR

abbrev KnownKinds := SortedMap QualifiedName OpKind

/-- The kinds of operations and the dialects that are known. -/
structure Registry (Foreign : Type := Empty) where
  known : KnownKinds
  dialects : SortedMap Identifier (Dialect Foreign)
deriving DecidableEq

variable {Foreign : Type}

namespace Registry

def empty : Registry Foreign := ⟨∅, ∅⟩

/-- The kind of operations called `id`. -/
def kind? (r : Registry Foreign) (id : QualifiedName) : Option OpKind :=
  r.known.get? id

/-- Installs a dialect, unless there is one of its name. -/
def install (r : Registry Foreign) (d : Dialect Foreign) : Registry Foreign :=
  if r.dialects.contains d.name then r
  else { r with dialects := r.dialects.insert d.name d }

end Registry

namespace OpKind

/-- Makes a kind known and lists it in a dialect.  If it was known before, nothing happens. -/
def register (kind : OpKind) (known : KnownKinds) (d : Dialect Foreign) :
    KnownKinds × Except Fault (Dialect Foreign) :=
  if known.contains kind.id then (known, .ok d)
  else (known.insert kind.id kind, d.addOperation kind.id)

/-- Registers several kinds in order, up to the first that the dialect refuses. -/
def registerAll :
    List OpKind → KnownKinds → Dialect Foreign → KnownKinds × Except Fault (Dialect Foreign)
  | [], known, d => (known, .ok d)
  | kind :: kinds, known, d =>
    match kind.register known d with
    | (known, .ok d) => registerAll kinds known d
    | (known, .error fault) => (known, .error fault)

/-- Registers kinds in order, up to the first that the dialect refuses or whose name was among
`seen`, the names that came before. -/
def registerDistinct (seen : List Identifier) :
    List OpKind → KnownKinds → Dialect Foreign → KnownKinds × Except Fault (Dialect Foreign)
  | [], known, d => (known, .ok d)
  | kind :: kinds, known, d =>
    -- The kind itself may have been known for long; only a repetition in the list is a fault.
    if seen.contains kind.id.name then (known, (Misuse.listedTwice kind.id.name).throw)
    else
      match kind.register known d with
      | (known, .ok d) => registerDistinct (kind.id.name :: seen) kinds known d
      | (known, .error fault) => (known, .error fault)

end OpKind

end HardwareIR
