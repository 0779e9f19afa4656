import HardwareIR.Context.Chain

/-! # Values

The results of operations and the arguments of blocks: what they are called, where they are
defined, and which type they have.

A value is named after the operation or the block that defines it, and its index there.  Naming an
argument takes the block, which may have a label; naming a result does not take the operation.
-/

namespace HardwareIR

namespace Context

/-- The name of a block: its label, or else the name of its slot. -/
def blockName (ctx : Context) (b : BlockRef) : Except Fault String := do
  match (← ctx.block b).label with
  | some label => return label.text
  | none => return b.name

def printValue (ctx : Context) : Value → Except Fault String
  | .result op index => return s!"%{op.name}_res{index}"
  | .argument b index => do return s!"%{← ctx.blockName b}_arg{index}"

def valueType (ctx : Context) : Value → Except Fault TypeRef
  | .result op index => do
    match (← ctx.operation op).resultTypes[index]? with
    | some ty => return ty
    | none => Misuse.noSuchResult.throw
  | .argument b index => do
    match (← ctx.block b).argumentTypes[index]? with
    | some ty => return ty
    | none => Misuse.noSuchArgument.throw

/-- The block in which a value is defined. -/
def valueBlock (ctx : Context) : Value → Except Fault (Option BlockRef)
  | .result op _ => do return (← ctx.operation op).links.container
  | .argument b _ => return some b

end Context

namespace Value

/-- The operation that defines a value, if it is a result. -/
def definingOp : Value → Option OpRef
  | .result op _ => some op
  | .argument .. => none

end Value

namespace Operation

def results (o : Operation) (self : OpRef) : List Value :=
  (List.range o.resultTypes.length).map (.result self)

/-- The result with an index, if there is one. -/
def result? (o : Operation) (self : OpRef) (index : Nat) : Option Value :=
  if index < o.resultTypes.length then some (.result self index) else none

end Operation

namespace Block

/-- The arguments of a block with their types. -/
def arguments (b : Block) (self : BlockRef) : List (Value × TypeRef) :=
  b.argumentTypes.mapIdx fun index ty => (.argument self index, ty)

/-- The argument with an index, if there is one. -/
def argument? (b : Block) (self : BlockRef) (index : Nat) : Option Value :=
  if index < b.argumentTypes.length then some (.argument self index) else none

end Block

end HardwareIR
