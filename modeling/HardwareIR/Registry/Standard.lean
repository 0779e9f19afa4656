import HardwareIR.IRType.Basic
import HardwareIR.Registry.Basic
import HardwareIR.Report

/-! # The standard dialects

The three dialects that come with the library: `builtin` with the types, attributes and containers
that every design needs, `hw` with hardware modules and constants, and `arc` with the operations of
its catalog.

Registering a dialect that is there already does nothing.  Registering `hw` registers `builtin`
first, and registering `arc` registers `hw` first, unless there is an `arc` dialect already.
-/

namespace HardwareIR

variable {Foreign : Type}

/-- What a standard dialect lists. -/
structure StandardDialect where
  name : Identifier
  operations : List OpKind
  types : List IRType.Kind
  attributes : List Attribute.Kind
  materializer : Option Materializer

namespace StandardDialect

/-- Types and attributes for all designs, and the outermost container. -/
def builtin : StandardDialect where
  name := { text := "builtin" }
  operations := [.module]
  types := [.integer]
  attributes := [.string, .integer, .float, .type, .array]
  materializer := none

/-- Hardware modules, their parameters, and constants. -/
def hw : StandardDialect where
  name := { text := "hw" }
  operations := [.hwModule, .constant, .paramValue]
  types := [.parametric]
  attributes := [.paramDecl, .paramRef, .paramExpr, .verbatim]
  materializer := none

/-- The operations of the catalog, which make their constants out of those of `hw`. -/
def arc : StandardDialect where
  name := { text := "arc" }
  operations := OpKind.catalogKinds
  types := [.state, .memory, .storage, .simInstance]
  attributes := [.zeroCount]
  materializer := some .arc

/-- A dialect with the types and attributes of a standard dialect, besides what it lists. -/
def addContents (s : StandardDialect) (d : Dialect Foreign) : Except Fault (Dialect Foreign) := do
  let d ← s.types.foldlM (fun d kind => d.addType kind.id) d
  let d ← s.attributes.foldlM (fun d kind => d.addAttribute kind.id) d
  return { d with materializer := s.materializer.map .widen }

end StandardDialect

namespace Registry

/-- Takes over the known kinds and installs a dialect that was put together with them. -/
def complete (r : Registry Foreign) (s : StandardDialect) :
    KnownKinds × Except Fault (Dialect Foreign) → Registry Foreign × Except Fault (Dialect Foreign)
  | (known, result) =>
    let r := { r with known }
    match result.bind s.addContents with
    | .ok d => (r.install d, .ok d)
    | .error fault => (r, .error fault)

/-- Registers the `builtin` dialect. -/
def registerBuiltin (r : Registry Foreign) : Registry Foreign × Report Unit :=
  let s := StandardDialect.builtin
  if r.dialects.contains s.name then (r, pure ())
  else
    let (r, result) := r.complete s (OpKind.registerAll s.operations r.known (.empty s.name))
    (r, .ofExcept (result.map fun _ => ()))

/-- Registers the `builtin` dialect, and then the `hw` dialect. -/
def registerHw (r : Registry Foreign) : Registry Foreign × Report Unit :=
  let (r, first) := r.registerBuiltin
  match first.result with
  | .error _ => (r, first)
  | .ok () =>
    let s := StandardDialect.hw
    if r.dialects.contains s.name then (r, first)
    else
      let (r, result) := r.complete s (OpKind.registerAll s.operations r.known (.empty s.name))
      (r, first.bind fun _ => .ofExcept (result.map fun _ => ()))

/-- Registers the `hw` dialect, and then the `arc` dialect, whose operations are counted in the
log. -/
def registerArc (r : Registry Foreign) : Registry Foreign × Report Unit :=
  let s := StandardDialect.arc
  if r.dialects.contains s.name then (r, pure ())
  else
    let (r, first) := r.registerHw
    match first.result with
    | .error _ => (r, first)
    | .ok () =>
      let (r, result) :=
        r.complete s (OpKind.registerDistinct [] s.operations r.known (.empty s.name))
      (r, first.bind fun _ =>
        match result with
        | .ok d => .emit .debug s!"Registered dialect {d.name} with {d.operations.size} ops"
        | .error fault => .ofExcept (.error fault))

end Registry

end HardwareIR
