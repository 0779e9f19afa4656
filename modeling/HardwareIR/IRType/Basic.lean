import HardwareIR.Attribute.Digest

/-! # Types

The types of values: integers of a fixed width, integers whose width is a parameter value, and the
storage of simulated models (states, memories, raw storage and instances).

Types refer to other types by handles, so a type is compared with another by its own fields; since
equal types have equal handles, that compares them to any depth.
-/

namespace HardwareIR

/-- How the bits of an integer are read. -/
inductive Signedness where
  | signed
  | unsigned
  | signless
deriving DecidableEq, Repr

/-- What stands before the width in the text of an integer type. -/
def Signedness.mark : Signedness → String
  | signed => "si"
  | unsigned => "ui"
  | signless => "i"

inductive IRType where
  | integer (width : UInt32) (sign : Signedness)
  /-- An integer whose width is given by an attribute. -/
  | parametric (width : Attribute)
  /-- The stored state of a value. -/
  | state (value : TypeRef)
  /-- A memory of `words` words. -/
  | memory (words : UInt32) (word address : TypeRef)
  /-- A block of `size` bytes. -/
  | storage (size : UInt32)
  /-- An instance of a simulated model. -/
  | simInstance (model : Identifier)
deriving DecidableEq

namespace IRType

inductive Kind where
  | integer
  | parametric
  | state
  | memory
  | storage
  | simInstance
deriving DecidableEq, Repr

def kind : IRType → Kind
  | .integer .. => .integer
  | .parametric _ => .parametric
  | .state _ => .state
  | .memory .. => .memory
  | .storage _ => .storage
  | .simInstance _ => .simInstance

def Kind.id : Kind → QualifiedName
  | integer => ⟨{ text := "builtin" }, { text := "integer" }⟩
  | parametric => ⟨{ text := "hw" }, { text := "int" }⟩
  | state => ⟨{ text := "arc" }, { text := "state" }⟩
  | memory => ⟨{ text := "arc" }, { text := "memory" }⟩
  | storage => ⟨{ text := "arc" }, { text := "storage" }⟩
  | simInstance => ⟨{ text := "arc" }, { text := "sim.instance" }⟩

/-- Whether values of a type are integers of a fixed width. -/
def isInteger : IRType → Bool
  | .integer .. => true
  | _ => false

/-- The data by which a type is filed: the name of its kind, then its contents. -/
def digest : IRType → Digest
  | .integer w s => [.tag Kind.integer.id, .number w.toNat, .text s.mark]
  | .parametric a => .tag Kind.parametric.id :: a.digest
  | .state ty => .tag Kind.state.id :: ty.digest
  | .memory n w a => .tag Kind.memory.id :: .number n.toNat :: w.digest ++ a.digest
  | .storage n => [.tag Kind.storage.id, .number n.toNat]
  | .simInstance m => [.tag Kind.simInstance.id, .text m.text]

end IRType

end HardwareIR
