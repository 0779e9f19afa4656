import HardwareIR.Context.Chain

/-! # What is nested in an object

An operation holds its regions, a region its blocks, and a block its operations.  `Context.tree` is
everything that an object holds, to any depth.  Checks, printing and erasure go over that tree.

No object may end up inside itself.  Objects that do would make a tree without end, which is
reported instead: no branch of a tree is longer than there are slots for objects.
-/

namespace HardwareIR

inductive Object where
  | operation (op : OpRef)
  | region (r : RegionRef)
  | block (b : BlockRef)
deriving DecidableEq

/-- An object with everything that is nested in it, in order. -/
inductive Tree where
  | node (root : Object) (children : List Tree)

namespace Tree

def root : Tree → Object
  | .node x _ => x

mutual
/-- All objects of a tree, each before those that it holds. -/
def preorder : Tree → List Object
  | .node x children => x :: preorderAll children

def preorderAll : List Tree → List Object
  | [] => []
  | t :: ts => t.preorder ++ preorderAll ts
end

mutual
/-- All objects of a tree, each after those that it holds. -/
def postorder : Tree → List Object
  | .node x children => postorderAll children ++ [x]

def postorderAll : List Tree → List Object
  | [] => []
  | t :: ts => t.postorder ++ postorderAll ts
end

end Tree

namespace Context

/-- What an object holds directly, in order. -/
def holdings (ctx : Context) : Object → Except Fault (List Object)
  | .operation op => do return (← ctx.operation op).regions.map .region
  | .region r => do return (← ctx.members .blocks r).map .block
  | .block b => do return (← ctx.members .ops b).map .operation

/-- The tree of an object, if no branch of it has more than `depth` objects. -/
def treeWithin (ctx : Context) : Nat → Object → Except Fault Tree
  | 0, _ => Misuse.endless.throw
  | depth + 1, x => do
    return .node x (← (← ctx.holdings x).mapM (ctx.treeWithin depth))

def capacity (ctx : Context) : Nat :=
  ctx.operations.capacity + ctx.blocks.capacity + ctx.regions.capacity

def tree (ctx : Context) (x : Object) : Except Fault Tree :=
  ctx.treeWithin (ctx.capacity + 1) x

/-! ## Erasure -/

def release (ctx : Context) : Object → Context
  | .operation op => { ctx with operations := ctx.operations.erase op }
  | .region r => { ctx with regions := ctx.regions.erase r }
  | .block b => { ctx with blocks := ctx.blocks.erase b }

/-- Takes an operation out of its block, if it is in one, and frees it with everything nested in
it, whatever is inside before what holds it. -/
def erase (ctx : Context) (op : OpRef) : Except Fault Context := do
  let ctx ← if ← ctx.isLinked .ops op then ctx.unlink .ops op else pure ctx
  -- Nothing outside of the tree has a neighbour in it: the contents go with their lists.
  let tree ← ctx.tree (.operation op)
  return tree.postorder.foldl release ctx

end Context

end HardwareIR
