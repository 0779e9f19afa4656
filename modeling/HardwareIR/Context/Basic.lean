import HardwareIR.Attribute.Dictionary
import HardwareIR.Registry.Basic

/-! # Operations, blocks and regions

A design is made of operations.  An operation uses values, defines new ones, carries attributes, and
may own regions; a region is a list of blocks, and a block is a list of operations.  All of them
live in the arenas of a `Context` and refer to each other by handles.

Lists are chained through their nodes.  The two kinds of lists differ in nothing else, so a `Level`
says which one is meant: operations in a block, or blocks in a region.  A node knows its neighbours
and its container (`Links`), a container the two ends of its list (`Ends`).
-/

namespace HardwareIR

/-! ## Levels -/

/-- The two kinds of lists. -/
inductive Level where
  /-- Operations, in a block. -/
  | ops
  /-- Blocks, in a region. -/
  | blocks
deriving DecidableEq, Repr

abbrev Level.node : Level → ObjectKind
  | ops => .operation
  | blocks => .block

/-- What holds a list of a level. -/
abbrev Level.container : Level → ObjectKind
  | ops => .block
  | blocks => .region

structure Links (l : Level) where
  prev : Option (Handle l.node) := none
  next : Option (Handle l.node) := none
  /-- What holds the list that the node is in, if it is in one. -/
  container : Option (Handle l.container) := none
deriving DecidableEq

structure Ends (l : Level) where
  head : Option (Handle l.node) := none
  tail : Option (Handle l.node) := none
deriving DecidableEq

/-! ## Objects -/

/-- A value that operations can use. -/
inductive Value where
  /-- The result of an operation with that index. -/
  | result (op : OpRef) (index : Nat)
  /-- The argument of a block with that index. -/
  | argument (block : BlockRef) (index : Nat)
deriving DecidableEq

structure Operation where
  /-- The qualified name of its kind. -/
  id : QualifiedName
  resultTypes : List TypeRef
  operands : List Value
  regions : List RegionRef
  attributes : AttributeDict
  location : Location
  links : Links .ops
deriving DecidableEq

/-- A straight line of operations, with typed arguments. -/
structure Block where
  label : Option Identifier
  argumentTypes : List TypeRef
  ends : Ends .ops
  links : Links .blocks
deriving DecidableEq

/-- The blocks in an operation. -/
structure Region where
  ends : Ends .blocks
  /-- The operation that the region was made for. -/
  owner : OpRef
deriving DecidableEq

/-- All objects of a design, its types, and what is known about dialects.  Their hooks are those of
the library: a hook of another program acts by calls of its own. -/
structure Context where
  operations : Arena Operation
  blocks : Arena Block
  regions : Arena Region
  types : TypeStore
  registry : Registry

namespace Context

/-- A context with nothing in it, whose types are going to be filed by a hash. -/
def empty (hash : Digest → UInt64 := Digest.coarseHash) : Context :=
  ⟨∅, ∅, ∅, { hash }, .empty⟩

def operation (ctx : Context) (op : OpRef) : Except Fault Operation :=
  match ctx.operations.get? op with
  | some o => .ok o
  | none => Misuse.freed.throw

def block (ctx : Context) (b : BlockRef) : Except Fault Block :=
  match ctx.blocks.get? b with
  | some content => .ok content
  | none => Misuse.freed.throw

def region (ctx : Context) (r : RegionRef) : Except Fault Region :=
  match ctx.regions.get? r with
  | some content => .ok content
  | none => Misuse.freed.throw

/-- Changes an operation; a stale handle changes nothing. -/
def modifyOperation (ctx : Context) (op : OpRef) (f : Operation → Operation) : Context :=
  { ctx with operations := ctx.operations.modify op f }

def modifyBlock (ctx : Context) (b : BlockRef) (f : Block → Block) : Context :=
  { ctx with blocks := ctx.blocks.modify b f }

def modifyRegion (ctx : Context) (r : RegionRef) (f : Region → Region) : Context :=
  { ctx with regions := ctx.regions.modify r f }

/-! ## Links and ends at either level -/

def links (ctx : Context) : (l : Level) → Handle l.node → Except Fault (Links l)
  | .ops, op => do return (← ctx.operation op).links
  | .blocks, b => do return (← ctx.block b).links

def ends (ctx : Context) : (l : Level) → Handle l.container → Except Fault (Ends l)
  | .ops, b => do return (← ctx.block b).ends
  | .blocks, r => do return (← ctx.region r).ends

/-- Changes the place that a node remembers. -/
def modifyLinks (ctx : Context) : (l : Level) → Handle l.node → (Links l → Links l) → Context
  | .ops, op, f => ctx.modifyOperation op fun o => { o with links := f o.links }
  | .blocks, b, f => ctx.modifyBlock b fun content => { content with links := f content.links }

/-- Changes the ends that a container remembers. -/
def modifyEnds (ctx : Context) : (l : Level) → Handle l.container → (Ends l → Ends l) → Context
  | .ops, b, f => ctx.modifyBlock b fun content => { content with ends := f content.ends }
  | .blocks, r, f => ctx.modifyRegion r fun content => { content with ends := f content.ends }

/-- How many slots there are for the nodes of a level, which bounds the length of every list. -/
def nodeCapacity (ctx : Context) : Level → Nat
  | .ops => ctx.operations.capacity
  | .blocks => ctx.blocks.capacity

end Context

end HardwareIR
