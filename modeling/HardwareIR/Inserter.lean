import HardwareIR.Context.Value

/-! # Insertion points

Where the next operation goes: nowhere yet, to the start or the end of a block, or next to another
operation.  Insertion leaves the point as it is, so that operations inserted one after the other
come out in that order at the end of a block or before an operation, and in the opposite order at
the start of a block or after an operation.
-/

namespace HardwareIR

inductive InsertionPoint where
  | unset
  | blockStart (b : BlockRef)
  | blockEnd (b : BlockRef)
  | after (mark : OpRef)
  | before (mark : OpRef)
deriving DecidableEq

namespace InsertionPoint

/-- The name of an operation that has to be there still. -/
def markName (ctx : Context) (mark : OpRef) : Except Fault String := do
  let _ ← ctx.operation mark
  return mark.name

def print (ctx : Context) : InsertionPoint → Except Fault String
  | unset => .ok "<unset>"
  | blockStart b => do return "start of " ++ (← ctx.blockName b)
  | blockEnd b => do return "end of " ++ (← ctx.blockName b)
  | after mark => do return "after " ++ (← markName ctx mark)
  | before mark => do return "before " ++ (← markName ctx mark)

/-- The block that the next operation goes into.  There is none if the point is unset, or next to an
operation that is in no block. -/
def block? (ctx : Context) : InsertionPoint → Except Fault (Option BlockRef)
  | unset => .ok none
  | blockStart b | blockEnd b => .ok (some b)
  | after mark | before mark => do return (← ctx.operation mark).links.container

/-- Puts an operation that is in no block at a point. -/
def insert (ctx : Context) (point : InsertionPoint) (op : OpRef) : Except Fault Context :=
  match point with
  | blockStart b => ctx.pushFront .ops op b
  | blockEnd b => ctx.pushBack .ops op b
  | after mark => ctx.insertAfter .ops op mark
  | before mark => ctx.insertBefore .ops op mark
  | unset => do
    let _ ← ctx.operation op
    (Misuse.noInsertionPoint op).throw

end InsertionPoint

end HardwareIR
