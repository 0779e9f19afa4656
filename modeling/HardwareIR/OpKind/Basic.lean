import HardwareIR.OpKind.Catalog

/-! # Kinds of operations

The operations whose meaning is known: modules, hardware modules with parameters, integer
constants, parameter valued constants, and everything in the `arc` catalog.  A kind has a
qualified name of its own, and implements some interfaces, which are properties that operations of
several kinds share.

`OpKind.interfaces` lists them in the order in which they are checked.
-/

namespace HardwareIR

inductive OpKind where
  /-- A named container of operations. -/
  | module
  /-- A hardware module, which declares parameters. -/
  | hwModule
  | constant
  /-- A constant that is given by a parameter value. -/
  | paramValue
  | arc (index : Fin catalog.length)
deriving DecidableEq

/-- A property that operations of several kinds share. -/
inductive Interface where
  | oneRegion
  /-- Has a single block in every region. -/
  | singleBlockRegion
  | symbol
  | oneResult
  | zeroOperand
  /-- Is a constant, given by an attribute. -/
  | constantLike
deriving DecidableEq, Repr

namespace OpKind

def id : OpKind → QualifiedName
  | module => ⟨{ text := "builtin" }, { text := "module" }⟩
  | hwModule => ⟨{ text := "hw" }, { text := "module" }⟩
  | constant => ⟨{ text := "hw" }, { text := "constant" }⟩
  | paramValue => ⟨{ text := "hw" }, { text := "param.value" }⟩
  | arc index => ⟨{ text := "arc" }, (catalog.get index).name⟩

/-- The kinds of the `arc` catalog, in its order. -/
def catalogKinds : List OpKind :=
  (List.finRange catalog.length).map arc

def all : List OpKind :=
  [module, hwModule, constant, paramValue] ++ catalogKinds

/-- The kind that is called `id`. -/
def ofId? (id : QualifiedName) : Option OpKind :=
  all.find? fun kind => kind.id = id

def interfaces : OpKind → List Interface
  | module | hwModule => [.oneRegion, .singleBlockRegion, .symbol]
  | constant | paramValue => [.zeroOperand, .oneResult, .constantLike]
  | arc _ => []

def implements (kind : OpKind) (interface : Interface) : Bool :=
  kind.interfaces.contains interface

end OpKind

end HardwareIR
