import HardwareIR.Context.Query

/-! # New objects

Operations and blocks are made outside of any list.  An operation is made with its regions; in
those of a module or of a catalog operation there is one empty block each, the body, while
`Context.newOperation` leaves regions empty.
-/

namespace HardwareIR

namespace Context

/-! ## Blocks and operations of any kind -/

def newBlock (ctx : Context) (label : Option Identifier) (argumentTypes : List TypeRef) :
    BlockRef × Context :=
  let (b, blocks) := ctx.blocks.insert .block
    { label, argumentTypes, ends := {}, links := {} }
  (b, { ctx with blocks })

/-- A number of regions without blocks. -/
def newRegions (ctx : Context) (owner : OpRef) : Nat → List RegionRef × Context
  | 0 => ([], ctx)
  | count + 1 =>
    let (r, regions) := ctx.regions.insert .region { ends := {}, owner }
    let (rest, ctx) := newRegions { ctx with regions } owner count
    (r :: rest, ctx)

/-- An operation with a number of empty regions. -/
def newOperation (ctx : Context) (id : QualifiedName) (resultTypes : List TypeRef)
    (operands : List Value) (regionCount : Nat) (attributes : AttributeDict := ∅)
    (location : Location := .unknown) : OpRef × Context :=
  let (op, operations) := ctx.operations.insert .operation
    { id, resultTypes, operands, regions := [], attributes, location, links := {} }
  let (regions, ctx) := newRegions { ctx with operations } op regionCount
  (op, ctx.modifyOperation op fun o => { o with regions })

/-- Puts a new block without arguments at the end of each region. -/
def addBodies (ctx : Context) : List RegionRef → Except Fault Context
  | [] => .ok ctx
  | r :: rest => do
    let (b, ctx) := ctx.newBlock none []
    addBodies (← ctx.pushBack .blocks b r) rest

/-- An operation with a number of regions, each of which has an empty block. -/
def newWithBodies (ctx : Context) (id : QualifiedName) (resultTypes : List TypeRef)
    (operands : List Value) (regionCount : Nat) (attributes : AttributeDict := ∅) :
    Except Fault (OpRef × Context) := do
  let (op, ctx) := ctx.newOperation id resultTypes operands regionCount attributes
  return (op, ← ctx.addBodies (← ctx.operation op).regions)

/-! ## Operations of the known kinds -/

def newModule (ctx : Context) (name : String) : Except Fault (OpRef × Context) :=
  ctx.newWithBodies OpKind.module.id [] [] 1
    (SortedMap.insert ∅ AttributeDict.symbolName (.string name))

/-- A hardware module of that name, which declares parameters. -/
def newHwModule (ctx : Context) (name : String) (declarations : List ParamDecl) :
    Except Fault (OpRef × Context) :=
  let parameters := .array (declarations.map ParamDecl.toAttribute)
  ctx.newWithBodies OpKind.hwModule.id [] [] 1
    ((SortedMap.insert ∅ AttributeDict.parameters parameters).insert
      AttributeDict.symbolName (.string name))

/-- An integer constant, which defines a value of type `type` by a literal. -/
def newConstant (ctx : Context) (type literalType : TypeRef) (literal : Literal)
    (location : Location := .unknown) : OpRef × Context :=
  ctx.newOperation OpKind.constant.id [type] [] 0
    (SortedMap.insert ∅ AttributeDict.constantValue (.integer literalType literal)) location

/-- A parameter valued constant, which defines a value of type `type`. -/
def newParamValue (ctx : Context) (type : TypeRef) (value : Attribute)
    (location : Location := .unknown) : OpRef × Context :=
  ctx.newOperation OpKind.paramValue.id [type] [] 0
    (SortedMap.insert ∅ AttributeDict.paramValue value) location

def newCatalogued (ctx : Context) (index : Fin catalog.length) (resultTypes : List TypeRef)
    (operands : List Value) : Except Fault (OpRef × Context) :=
  ctx.newWithBodies (OpKind.arc index).id resultTypes operands (catalog.get index).regions

end Context

end HardwareIR
