import HardwareIR.Context.Creation
import HardwareIR.Context.Verification
import HardwareIR.Inserter

/-! # Constants as operations

A dialect that can build constants turns an attribute into the operation that defines a value by it.
The `arc` dialect does that in two steps.  `Context.plan` decides, without touching anything:

* if there is no block to put an operation into, it declines;
* an integer literal asked for as an integer becomes an `hw.constant`, wherever that is and
  whatever the widths are;
* what is a parameter value in the innermost hardware module around the block becomes an
  `hw.param.value`;
* it declines everything else.

`Context.carryOut` then makes the operation, with its location, and inserts it.  Every decision is
logged.
-/

namespace HardwareIR

/-- What is to be done about a constant. -/
inductive Plan where
  | decline
  /-- An integer constant, given by a literal and the type of the literal. -/
  | constant (literalType : TypeRef) (literal : Literal)
  /-- A parameter valued constant. -/
  | paramValue (value : Attribute)
deriving DecidableEq

/-- How things stand after a constant was asked for. -/
structure Materialization where
  context : Context
  /-- Where the next operation goes. -/
  point : InsertionPoint
  /-- The operation that was made, if one was. -/
  outcome : Report (Option OpRef)

namespace Context

/-! ## Decisions -/

/-- The innermost hardware module around a block. -/
def enclosingHwModule (ctx : Context) (b : BlockRef) : Report (Option OpRef) := do
  match ← ctx.blockOwner b with
  | none => return none
  | some owner => do
    let o ← ctx.operation owner
    .emit .trace s!"Looking for a hw.module from {o.id}"
    match ← ctx.firstCalled OpKind.hwModule.id (← ctx.blockAncestors b) with
    | none => return none
    | some found => do
      let kind ← ctx.kindOf found
      return if kind = .hwModule then some found else none

/-- What to do about an attribute that is no literal for an integer. -/
def planParamValue (ctx : Context) (b : BlockRef) (value : Attribute) : Report Plan := do
  let text ← ctx.types.printAttribute value
  match ← ctx.enclosingHwModule b with
  | none =>
    .emit .debug s!"No enclosing hw.module for {text}"
    return .decline
  | some hwModule => do
    if ← ctx.acceptsParameter hwModule value then
      .emit .debug s!"Materializing {text} as hw.param.value"
      return .paramValue value
    else return .decline

/-- What to do about an attribute in a block, where a value of type `type` is wanted. -/
def planIn (ctx : Context) (b : BlockRef) (value : Attribute) (type : TypeRef) : Report Plan := do
  match (← ctx.types.get type).isInteger, value with
  | true, .integer literalType literal => do
    -- Whether the literal fits the type is left to the check of the constant.
    let text ← ctx.types.printAttribute value
    .emit .debug s!"Materializing {text} as hw.constant"
    return .constant literalType literal
  | _, _ => ctx.planParamValue b value

/-- What to do about an attribute at an insertion point, where a value of type `type` is wanted. -/
def plan (ctx : Context) (point : InsertionPoint) (value : Attribute) (type : TypeRef) :
    Report Plan := do
  match ← point.block? ctx with
  | some b => ctx.planIn b value type
  | none => do
    let text ← ctx.types.printAttribute value
    .emit .debug s!"No insertion block, cannot materialize {text}"
    return .decline

/-! ## Actions -/

/-- Inserts a new operation.  One that cannot be inserted stays outside of all blocks. -/
def place (ctx : Context) (point : InsertionPoint) (op : OpRef) :
    Context × Except Fault (Option OpRef) :=
  -- A point at a freed block is only found out here, when the operation is there already.
  match point.insert ctx op with
  | .ok ctx => (ctx, .ok (some op))
  | .error fault => (ctx, .error fault)

/-- Makes and inserts the operation of a plan. -/
def carryOut (ctx : Context) (point : InsertionPoint) (type : TypeRef) (location : Location) :
    Plan → Context × Except Fault (Option OpRef)
  | .decline => (ctx, .ok none)
  | .constant literalType literal =>
    let (op, ctx) := ctx.newConstant type literalType literal location
    ctx.place point op
  | .paramValue value =>
    let (op, ctx) := ctx.newParamValue type value location
    ctx.place point op

/-- Makes a constant the way that the `arc` dialect does. -/
def materializeArc (ctx : Context) (point : InsertionPoint) (value : Attribute) (type : TypeRef)
    (location : Location) : Materialization :=
  let decision := ctx.plan point value type
  match decision.result with
  | .ok plan =>
    let (after, result) := ctx.carryOut point type location plan
    { context := after, point, outcome := ⟨result, decision.log⟩ }
  | .error fault => { context := ctx, point, outcome := ⟨.error fault, decision.log⟩ }

/-- Makes a constant the way that a dialect does.  A dialect that is not there, or that cannot build
constants, declines. -/
def materialize (ctx : Context) (dialect : Identifier) (point : InsertionPoint) (value : Attribute)
    (type : TypeRef) (location : Location) : Materialization :=
  match (ctx.registry.dialects.get? dialect).bind Dialect.materializer with
  | some .arc => ctx.materializeArc point value type location
  | none => { context := ctx, point, outcome := pure none }

end Context

end HardwareIR
