import HardwareIR.Context.Printer
import HardwareIR.Materialization
import HardwareIR.Registry.Standard
import HardwareIR.TypeStore.Storage
import HardwareIR.Proofs.Arena
import HardwareIR.Proofs.Context.Shape
import HardwareIR.Proofs.Context.Chain
import HardwareIR.Proofs.Context.Listed
import HardwareIR.Proofs.Context.Walk
import HardwareIR.Proofs.Context.WellFormed
import HardwareIR.Proofs.Context.Edit
import HardwareIR.Proofs.Context.Frame
import HardwareIR.Proofs.Context.Creation
import HardwareIR.Proofs.Context.Nesting
import HardwareIR.Proofs.Context.Removal
import HardwareIR.Proofs.Context.Erasure
import HardwareIR.Proofs.Context.Ancestor
import HardwareIR.Proofs.Context.Preorder
import HardwareIR.Proofs.Context.Later
import HardwareIR.Proofs.Context.Erased
import HardwareIR.Proofs.Context.Makings
import HardwareIR.Proofs.Context.Names
import HardwareIR.Proofs.TypeStore.Grounded
import HardwareIR.Proofs.TypeStore.Unique
import HardwareIR.Proofs.TypeStore.Width
import HardwareIR.Proofs.TypeStore.Unfolding
import HardwareIR.Proofs.Registry.Known
import HardwareIR.Proofs.Registry.Standard
import HardwareIR.Proofs.Registry.Commutation
import HardwareIR.Proofs.Registry.Refusal
import HardwareIR.Proofs.Parameter.Check
import HardwareIR.Proofs.Parameter.References
import HardwareIR.Proofs.Context.Sound
import HardwareIR.Proofs.Context.Verification
import HardwareIR.Proofs.Context.Verdict
import HardwareIR.Proofs.Context.Descent
import HardwareIR.Proofs.Materialization.Decision
import HardwareIR.Proofs.Materialization.Effect
import HardwareIR.Proofs.Materialization.Surroundings
import HardwareIR.Proofs.Materialization.Unaffected
import HardwareIR.Proofs.Session.Basic
import HardwareIR.Proofs.Session.WellFormed
import HardwareIR.Proofs.Session.Sound
import HardwareIR.Proofs.Session.Environment
import HardwareIR.Proofs.Session.Standard
import HardwareIR.Proofs.Session.Materialization
import HardwareIR.Proofs.Session.Parameters
import HardwareIR.Proofs.Session.Interning
import HardwareIR.Proofs.Session.Verification
import HardwareIR.Proofs.Session.References
import HardwareIR.Proofs.Session.Erasure
import HardwareIR.Proofs.Session.Verdict
import HardwareIR.Proofs.Session.Preservation
import HardwareIR.Proofs.Session.Registration
import HardwareIR.Proofs.Session.Commutation
import HardwareIR.Proofs.Session.History
import HardwareIR.Proofs.Session.Refusal
import HardwareIR.Proofs.Session.Handles
import HardwareIR.Proofs.Session.Lifetime
import HardwareIR.Proofs.Session.Names
import HardwareIR.Proofs.Parameter.Order
import HardwareIR.Proofs.Session.Declarations
import HardwareIR.Proofs.Context.Location
import HardwareIR.Proofs.Session.Location
import HardwareIR.Proofs.Context.Printing
import HardwareIR.Proofs.Session.Arguments
import HardwareIR.Proofs.Context.Operands
import HardwareIR.Proofs.Context.Slots
import HardwareIR.Proofs.Context.Sequences
import HardwareIR.Proofs.Session.Operands
import HardwareIR.Proofs.Session.Sequences
import HardwareIR.Proofs.Context.Deallocation
import HardwareIR.Proofs.Session.Atomicity
import HardwareIR.Proofs.Context.Attributes
import HardwareIR.Proofs.Session.Attributes
import HardwareIR.Proofs.Parameter.Substitution
import HardwareIR.Proofs.Session.Acceptance
import HardwareIR.Proofs.Context.Cursor
import HardwareIR.Proofs.Session.Iteration
import HardwareIR.Proofs.Context.Insertions
import HardwareIR.Proofs.Session.Insertions
import HardwareIR.Proofs.Session.Enclosure
import HardwareIR.Proofs.Session.Terminators
import HardwareIR.Proofs.Text.Hex
import HardwareIR.Proofs.Text.OneLine
import HardwareIR.Proofs.Context.Heads
import HardwareIR.Proofs.Context.Lines
import HardwareIR.Proofs.Context.LaidOut
import HardwareIR.Proofs.Session.Lines
import HardwareIR.Proofs.Attribute.Equality
import HardwareIR.Proofs.TypeStore.Parts
import HardwareIR.Proofs.Session.Parts
import HardwareIR.Proofs.TypeStore.Storage
import HardwareIR.Proofs.Identifier
import HardwareIR.Proofs.Materialization.Log
import HardwareIR.Proofs.Session.Log
import HardwareIR.Proofs.UniqueStore.HashConsing
import HardwareIR.Proofs.Session.Dictionaries
