import HardwareIR.Context.Chain

/-! # What encloses an operation

From an operation outward: the block that it is in, the region of that block, and the operation
that owns the region.  `Context.ancestors` follows these steps as far as they go.
-/

namespace HardwareIR

namespace Context

/-- The operation around a block: the owner of the region that the block is in. -/
def blockOwner (ctx : Context) (b : BlockRef) : Except Fault (Option OpRef) := do
  match (← ctx.block b).links.container with
  | some r => return some (← ctx.region r).owner
  | none => return none

def parent (ctx : Context) (op : OpRef) : Except Fault (Option OpRef) := do
  match (← ctx.operation op).links.container with
  | some b => ctx.blockOwner b
  | none => return none

/-- An operation and all operations around it, the innermost first, if there are fewer than
`bound`. -/
def outward (ctx : Context) : Nat → Option OpRef → Except Fault (List OpRef)
  | _, none => .ok []
  | 0, some _ => Misuse.endless.throw
  | bound + 1, some op => do
    return op :: (← ctx.outward bound (← ctx.parent op))

/-- All operations around an operation, the innermost first. -/
def ancestors (ctx : Context) (op : OpRef) : Except Fault (List OpRef) := do
  ctx.outward (ctx.operations.capacity + 1) (← ctx.parent op)

/-- All operations around a block, the innermost first. -/
def blockAncestors (ctx : Context) (b : BlockRef) : Except Fault (List OpRef) := do
  ctx.outward (ctx.operations.capacity + 1) (← ctx.blockOwner b)

/-- The first of several operations whose kind is called `id`. -/
def firstCalled (ctx : Context) (id : QualifiedName) : List OpRef → Except Fault (Option OpRef)
  | [] => .ok none
  | op :: rest => do
    if (← ctx.operation op).id = id then return some op else ctx.firstCalled id rest

end Context

end HardwareIR
