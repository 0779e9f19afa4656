import HardwareIR.Identifier

/-! # The catalog of arc operations

The operations of the `arc` dialect are opaque: each has a fixed shape, and is built and checked
against that shape alone.  The catalog lists them with their shapes, each name once
(`catalog_names_nodup`).
-/

namespace HardwareIR

/-- The shape of an operation of the `arc` dialect. -/
structure CatalogEntry where
  /-- The name behind `arc.`. -/
  name : Identifier
  summary : String
  /-- How many regions an operation of this kind has; each is made with one block. -/
  regions : Nat
  /-- Whether nothing may follow the operation in its block. -/
  terminator : Bool
deriving DecidableEq

/-- The operations of the `arc` dialect. -/
def catalog : List CatalogEntry := [
  ⟨{ text := "define" }, "State transfer arc definition", 1, false⟩,
  ⟨{ text := "output" }, "Arc terminator", 0, true⟩,
  ⟨{ text := "state" }, "State transfer arc", 0, false⟩,
  ⟨{ text := "call" }, "Calls an arc", 0, false⟩,
  ⟨{ text := "memory" }, "Memory", 0, false⟩,
  ⟨{ text := "memory_read_port" }, "Read port from a memory", 0, false⟩,
  ⟨{ text := "memory_write_port" }, "Write port to a memory", 0, false⟩,
  ⟨{ text := "memory_read" }, "Read a word from a memory", 0, false⟩,
  ⟨{ text := "memory_write" }, "Write a word to a memory", 0, false⟩,
  ⟨{ text := "clock_gate" }, "Clock gate", 0, false⟩,
  ⟨{ text := "clock_inv" }, "Clock inverter", 0, false⟩,
  ⟨{ text := "clock_tree" }, "A clock tree", 1, false⟩,
  ⟨{ text := "clock_domain" }, "A clock domain", 1, false⟩,
  ⟨{ text := "passthrough" }, "Clock-less passthrough operations", 1, false⟩,
  ⟨{ text := "tap" }, "A tap to observe a value in the model's state", 0, false⟩,
  ⟨{ text := "model" }, "A model with stratified clocks", 1, false⟩,
  ⟨{ text := "lut" }, "A lookup table", 1, false⟩,
  ⟨{ text := "zero_count" }, "Leading or trailing zero count", 0, false⟩,
  ⟨{ text := "vectorize" }, "Isolated subgraph of operations to be vectorized", 1, false⟩,
  ⟨{ text := "vectorize.return" }, "Vectorized boundary terminator", 0, true⟩,
  ⟨{ text := "root_input" }, "A root input", 0, false⟩,
  ⟨{ text := "root_output" }, "A root output", 0, false⟩,
  ⟨{ text := "alloc_state" }, "Allocate internal state", 0, false⟩,
  ⟨{ text := "alloc_memory" }, "Allocate a memory", 0, false⟩,
  ⟨{ text := "alloc_storage" }, "Allocate a slice of a larger storage", 0, false⟩,
  ⟨{ text := "storage.get" }, "Access an allocated state, memory or storage slice", 0, false⟩,
  ⟨{ text := "state_read" }, "Get a state's current value", 0, false⟩,
  ⟨{ text := "state_write" }, "Update a state's value", 0, false⟩,
  ⟨{ text := "sim.instantiate" }, "Instantiate a model for simulation", 1, false⟩,
  ⟨{ text := "sim.set_input" }, "Set an input of a model instance", 0, false⟩,
  ⟨{ text := "sim.get_port" }, "Get the value of a port of a model instance", 0, false⟩,
  ⟨{ text := "sim.step" }, "Evaluate one step of a model instance", 0, false⟩,
  ⟨{ text := "sim.emit" }, "Send a value to the simulation driver", 0, false⟩]

def CatalogEntry.named? (name : String) : Option CatalogEntry :=
  catalog.find? fun entry => entry.name.text == name

theorem catalog_names_nodup : (catalog.map fun entry => entry.name.text).Nodup := by
  decide

end HardwareIR
