import HardwareIR.Context.Query
import HardwareIR.Context.Tree
import HardwareIR.Layout

/-! # The text of a design

`Context.print` writes an object with everything nested in it in the generic form, which is the
same for all operations:

* an operation shows its results, its name, its operands, its attributes if it has any, the types
  of its results, and its regions;
* a region shows its blocks, each on a line of its own and one level deeper, between braces;
* a block shows its name and its arguments, and then its operations, each on a line of its own and
  one level deeper.

`Context.printAs` writes an operation in the form that is particular to its kind.  The operations in
it are in the generic form all the same.
-/

namespace HardwareIR

namespace Context

/-- The text of an operation up to its regions. -/
def printHead (ctx : Context) (op : OpRef) : Except Fault String := do
  let o ← ctx.operation op
  let results ← (o.results op).mapM ctx.printValue
  let operands ← o.operands.mapM ctx.printValue
  let attributes ← if o.attributes.isEmpty then pure "" else
    (" " ++ ·) <$> AttributeDict.print ctx.types o.attributes
  let types ← o.resultTypes.mapM ctx.types.print
  let defines := if results.isEmpty then "" else commaSeparated results ++ " = "
  let typed := if types.isEmpty then "" else " : " ++ commaSeparated types
  return s!"{defines}{o.id}({commaSeparated operands}){attributes}{typed}"

def printArgument (ctx : Context) (argument : Value × TypeRef) : Except Fault String := do
  return s!"{← ctx.printValue argument.1}: {← ctx.types.print argument.2}"

def printBlockHead (ctx : Context) (b : BlockRef) : Except Fault String := do
  let name ← ctx.blockName b
  let arguments ← ((← ctx.block b).arguments b).mapM ctx.printArgument
  return s!"^{name}({commaSeparated arguments}):"

mutual
/-- The text of an object and everything nested in it. -/
def printTree (ctx : Context) : Tree → Printer String
  | .node (.operation op) regions => do
    let head ← ctx.printHead op
    return head ++ (← ctx.printBeside regions)
  | .node (.region _) blocks => Printer.braced (ctx.printBelow blocks)
  | .node (.block b) ops => do
    let head ← ctx.printBlockHead b
    return head ++ (← Printer.indented (ctx.printBelow ops))

/-- Several objects, each behind a blank. -/
def printBeside (ctx : Context) : List Tree → Printer String
  | [] => return ""
  | t :: ts => do
    let first ← ctx.printTree t
    return " " ++ first ++ (← ctx.printBeside ts)

/-- Several objects, each on a line of its own. -/
def printBelow (ctx : Context) : List Tree → Printer String
  | [] => return ""
  | t :: ts => do
    let start ← Printer.newline
    let first ← ctx.printTree t
    return start ++ first ++ (← ctx.printBelow ts)
end

/-- The generic text of an object. -/
def print (ctx : Context) (x : Object) : Printer String := do
  ctx.printTree (← ctx.tree x)

/-- The text of an operation that is seen as one of a kind. -/
def printAs (ctx : Context) (kind : OpKind) (op : OpRef) : Printer String :=
  match kind with
  | .module => do
    let name ← ctx.symbolName op
    let region ← ctx.soleRegion op
    return s!"{kind.id} @{name} " ++ (← ctx.print (.region region))
  | .hwModule => do
    let name ← ctx.symbolName op
    let parameters ← (← ctx.parameters op).mapM fun d => ctx.types.printDecl d
    let region ← ctx.soleRegion op
    return s!"{kind.id} @{name}<{commaSeparated parameters}> " ++ (← ctx.print (.region region))
  | .constant => do
    let result ← ctx.printValue (← ctx.soleResult op)
    let value ← ctx.types.printAttribute (← ctx.constantAttribute op)
    return s!"{result} = {kind.id} {value}"
  | .paramValue => do
    let result ← ctx.printValue (← ctx.soleResult op)
    let value ← ctx.types.printAttribute (← ctx.paramAttribute op)
    let type ← ctx.types.print (← ctx.soleResultType op)
    return s!"{result} = {kind.id} {value} : {type}"
  | .arc _ => ctx.print (.operation op)

end Context

end HardwareIR
