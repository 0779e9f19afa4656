import HardwareIR.Context.Basic

/-! # Lists of operations and of blocks

Edits and walks of the lists in blocks and regions, for both levels at once.

* `Context.pushFront`, `pushBack`, `insertBefore` and `insertAfter` put an unlinked node into a
  list, `Context.unlink` takes a node out.  All of them look at everything that they need before
  they change anything, so an edit that fails changes nothing.
* `Cursor` walks a list from both ends, and `Context.members` is the whole list.
-/

namespace HardwareIR

namespace Context

/-! ## Edits -/

/-- Writes what follows `prev` in the list of a container, or what comes first in it. -/
def setNext (ctx : Context) (l : Level) (container : Handle l.container)
    (prev next : Option (Handle l.node)) : Context :=
  match prev with
  | some p => ctx.modifyLinks l p fun links => { links with next }
  | none => ctx.modifyEnds l container fun ends => { ends with head := next }

/-- Writes what comes before `next` in the list of a container, or what comes last in it. -/
def setPrev (ctx : Context) (l : Level) (container : Handle l.container)
    (prev next : Option (Handle l.node)) : Context :=
  match next with
  | some n => ctx.modifyLinks l n fun links => { links with prev }
  | none => ctx.modifyEnds l container fun ends => { ends with tail := prev }

/-- Writes the links that put `x` between two neighbours.  Where a neighbour is missing, `x` becomes
that end of the list. -/
def splice (ctx : Context) (l : Level) (x : Handle l.node) (container : Handle l.container)
    (prev next : Option (Handle l.node)) : Context :=
  let ctx := (ctx.setNext l container prev (some x)).setPrev l container (some x) next
  ctx.modifyLinks l x fun _ => ⟨prev, next, some container⟩

/-- Puts `x` between two neighbours, unless it is in a list already. -/
def linkBetween (ctx : Context) (l : Level) (x : Handle l.node) (container : Handle l.container)
    (prev next : Option (Handle l.node)) : Except Fault Context := do
  if (← ctx.links l x).container.isSome then
    Misuse.alreadyLinked.throw
  else
    return ctx.splice l x container prev next

def pushFront (ctx : Context) (l : Level) (x : Handle l.node) (container : Handle l.container) :
    Except Fault Context := do
  ctx.linkBetween l x container none (← ctx.ends l container).head

def pushBack (ctx : Context) (l : Level) (x : Handle l.node) (container : Handle l.container) :
    Except Fault Context := do
  ctx.linkBetween l x container (← ctx.ends l container).tail none

/-- The place of a node that is in a list, and the container of the list. -/
def neighbourhood (ctx : Context) (l : Level) (mark : Handle l.node) :
    Except Fault (Handle l.container × Links l) := do
  let links ← ctx.links l mark
  match links.container with
  | some container => return (container, links)
  | none => Misuse.markNotLinked.throw

/-- Puts `x` into the list of `mark`, right before it. -/
def insertBefore (ctx : Context) (l : Level) (x mark : Handle l.node) : Except Fault Context := do
  let (container, links) ← ctx.neighbourhood l mark
  ctx.linkBetween l x container links.prev (some mark)

/-- Puts `x` into the list of `mark`, right after it. -/
def insertAfter (ctx : Context) (l : Level) (x mark : Handle l.node) : Except Fault Context := do
  let (container, links) ← ctx.neighbourhood l mark
  ctx.linkBetween l x container (some mark) links.next

/-- Clears the links of `x` and closes the gap that it leaves: its neighbours become neighbours of
each other, or ends of the list. -/
def bypass (ctx : Context) (l : Level) (x : Handle l.node) (container : Handle l.container)
    (prev next : Option (Handle l.node)) : Context :=
  let ctx := ctx.modifyLinks l x fun _ => {}
  (ctx.setPrev l container prev next).setNext l container prev next

/-- Takes `x` out of its list. -/
def unlink (ctx : Context) (l : Level) (x : Handle l.node) : Except Fault Context := do
  let links ← ctx.links l x
  match links.container with
  | none => Misuse.notLinked.throw
  | some container => return ctx.bypass l x container links.prev links.next

def isLinked (ctx : Context) (l : Level) (x : Handle l.node) : Except Fault Bool := do
  return (← ctx.links l x).container.isSome

end Context

/-! ## Walks -/

/-- A walk over a list from both ends: the nodes that come next from the front and from the back,
until the two meet. -/
structure Cursor (l : Level) where
  front : Option (Handle l.node)
  back : Option (Handle l.node)

namespace Cursor

variable {l : Level}

/-- The walk over the list of a container. -/
def start (ctx : Context) (container : Handle l.container) : Except Fault (Cursor l) := do
  let ends ← ctx.ends l container
  return ⟨ends.head, ends.tail⟩

/-- The next node from the front, if one is left. -/
def next (ctx : Context) (c : Cursor l) : Except Fault (Option (Handle l.node) × Cursor l) :=
  match c.front with
  | none => .ok (none, c)
  | some x =>
    if c.back = some x then .ok (some x, ⟨none, none⟩)
    else do return (some x, ⟨(← ctx.links l x).next, c.back⟩)

/-- The next node from the back, if one is left. -/
def nextBack (ctx : Context) (c : Cursor l) : Except Fault (Option (Handle l.node) × Cursor l) :=
  match c.back with
  | none => .ok (none, c)
  | some x =>
    if c.front = some x then .ok (some x, ⟨none, none⟩)
    else do return (some x, ⟨c.front, (← ctx.links l x).prev⟩)

/-- The nodes that are left, from the front, if there are fewer than `bound`. -/
def collect (ctx : Context) : Nat → Cursor l → Except Fault (List (Handle l.node))
  | 0, _ => Misuse.endless.throw
  | bound + 1, c => do
    match ← c.next ctx with
    | (none, _) => return []
    | (some x, rest) => return x :: (← collect ctx bound rest)

end Cursor

/-- The list of a container, from the front. -/
def Context.members (ctx : Context) (l : Level) (container : Handle l.container) :
    Except Fault (List (Handle l.node)) := do
  (← Cursor.start ctx container).collect ctx (ctx.nodeCapacity l + 1)

end HardwareIR
