import HardwareIR.Context.Query
import HardwareIR.Context.Tree
import HardwareIR.Parameter.Check
import HardwareIR.TypeStore.Verification

/-! # Checks of operations

An operation is checked as one of the kind that it is registered as.  First come the shapes that the
interfaces of the kind demand, in their order, and then what the kind demands by itself:

* a hardware module declares its parameters, with default values that mention no parameter;
* an integer constant has a literal of its result type, which has the width of that type;
* a parameter valued constant has a value that is valid in the hardware module around it;
* an operation of the catalog has the number of regions that its entry says, and is the last of its
  block if it is a terminator.

`Context.verify` goes over everything nested in an object, an operation before what it holds, and
stops at the first failure.
-/

namespace HardwareIR

namespace Context

/-! ## Parameter values -/

/-- What parameter values are checked against where `declarations` are in scope. -/
def scope (ctx : Context) (declarations : List ParamDecl) (location : Location) : ParameterScope :=
  { types := ctx.types, declarations, allowReferences := true, location }

/-- What default values of parameters are checked against: nothing is in scope, and references are
not allowed. -/
def defaultScope (ctx : Context) (location : Location) : ParameterScope :=
  { types := ctx.types, declarations := [], allowReferences := false, location }

/-- Whether an attribute is a parameter value inside a hardware module.  If it is none, the log says
why. -/
def acceptsParameter (ctx : Context) (hwModule : OpRef) (value : Attribute) : Report Bool := do
  let declarations ← ctx.parameters hwModule
  (value.checkParameter (ctx.scope declarations .unknown)).accepted fun error =>
    s!"Not a valid parameter expression: {error.cause.message}"

/-! ## Shapes -/

/-- Fails for an operation that does not have the shape that a rule demands. -/
def demand (o : Operation) (rule : ShapeRule) (holds : Bool) : Except Fault Unit :=
  if holds then .ok () else (Error.verification (.shape rule o.id) o.location).throw

def hasSingleBlock (ctx : Context) (r : RegionRef) : Except Fault Bool := do
  return (← ctx.members .blocks r).length = 1

/-- Whether every region has exactly one block; the regions after the first that has not do not
matter. -/
def haveSingleBlocks (ctx : Context) : List RegionRef → Except Fault Bool
  | [] => .ok true
  | r :: rest => do
    if ← ctx.hasSingleBlock r then ctx.haveSingleBlocks rest else return false

/-- Checks what an interface demands of an operation, whatever its kind is. -/
def verifyInterface (ctx : Context) (op : OpRef) (interface : Interface) : Except Fault Unit := do
  match interface with
  | .oneRegion =>
    let o ← ctx.operation op
    demand o .oneRegion (o.regions.length = 1)
  | .singleBlockRegion =>
    let o ← ctx.operation op
    demand o .singleBlockRegions (← ctx.haveSingleBlocks o.regions)
  | .symbol =>
    let o ← ctx.operation op
    demand o .symbolName
      (AttributeDict.getString? o.attributes AttributeDict.symbolName).isSome
  | .oneResult =>
    let o ← ctx.operation op
    demand o .oneResult (o.resultTypes.length = 1)
  | .zeroOperand =>
    let o ← ctx.operation op
    demand o .noOperands o.operands.isEmpty
  | .constantLike => return ()

def verifyInterfaces (ctx : Context) (op : OpRef) : List Interface → Except Fault Unit
  | [] => .ok ()
  | interface :: rest => do
    ctx.verifyInterface op interface
    ctx.verifyInterfaces op rest

/-! ## Kinds -/

/-- The declarations in a list of attributes, if it has nothing else. -/
def onlyDecls? (elements : List Attribute) : Option (List ParamDecl) :=
  elements.mapM Attribute.decl?

/-- Checks the default value of a parameter, if it has one. -/
def verifyDefault (ctx : Context) (location : Location) (d : ParamDecl) : Report Unit :=
  match d.default? with
  | none => pure ()
  | some value =>
    (value.checkParameter (ctx.defaultScope location)).warnOnError fun error =>
      s!"Bad default for parameter {d.name}: {error.cause.message}"

def verifyDefaults (ctx : Context) (location : Location) : List ParamDecl → Report Unit
  | [] => pure ()
  | d :: rest => do
    ctx.verifyDefault location d
    ctx.verifyDefaults location rest

/-- Checks the declarations of a hardware module. -/
def verifyHwModule (ctx : Context) (op : OpRef) : Report Unit := do
  let o ← ctx.operation op
  match (AttributeDict.getArray? o.attributes AttributeDict.parameters).bind onlyDecls? with
  | some declarations => ctx.verifyDefaults o.location declarations
  | none => .reject (.verification .malformedParameters o.location)

/-- Checks the literal of an integer constant.  A literal of the wrong width is reported without a
location. -/
def verifyConstant (ctx : Context) (op : OpRef) : Except Fault Unit := do
  let o ← ctx.operation op
  match ← ctx.literal? op with
  | none => (Error.verification .constantNotInteger o.location).throw
  | some (type, literal) => do
    let resultType ← ctx.soleResultType op
    -- The types are compared before the width, so a literal of a wrong type is a type mismatch.
    if type = resultType then Attribute.verifyLiteral (← ctx.types.get type) literal
    else do
      let cause := .constantType (← ctx.types.print type) (← ctx.types.print resultType)
      (Error.verification cause o.location).throw

def verifyParamValue (ctx : Context) (op : OpRef) : Report Unit := do
  let o ← ctx.operation op
  match o.attributes.get? AttributeDict.paramValue with
  | none => .reject (.verification .paramValueMissing o.location)
  | some value =>
    match ← ctx.enclosing op .hwModule with
    | none => .reject (.verification .noEnclosingModule o.location)
    | some hwModule => do
      let declarations ← ctx.parameters hwModule
      (value.checkParameter (ctx.scope declarations o.location)).warnOnError fun error =>
        s!"Rejected parameter value: {error.cause.message}"

/-- Checks an operation against its entry in the catalog. -/
def verifyCatalogued (ctx : Context) (op : OpRef) (entry : CatalogEntry) : Except Fault Unit := do
  let o ← ctx.operation op
  if o.regions.length ≠ entry.regions then
    let cause := .regionCount o.id entry.regions o.regions.length
    (Error.verification cause o.location).throw
  else if entry.terminator && o.links.next.isSome then
    (Error.verification (.terminatorNotLast o.id) o.location).throw
  else return ()

/-- Checks what a kind demands by itself of an operation that is seen as one of it. -/
def verifyAs (ctx : Context) (kind : OpKind) (op : OpRef) : Report Unit :=
  match kind with
  | .module => pure ()
  | .hwModule => ctx.verifyHwModule op
  | .constant => ctx.verifyConstant op
  | .paramValue => ctx.verifyParamValue op
  | .arc index => ctx.verifyCatalogued op (catalog.get index)

/-! ## Trees -/

/-- Checks one operation, but nothing that it holds. -/
def verifyOperation (ctx : Context) (op : OpRef) : Report Unit := do
  let kind ← ctx.kindOf op
  ctx.verifyInterfaces op kind.interfaces
  ctx.verifyAs kind op

/-- Checks an object by itself.  There is nothing to check about regions and blocks. -/
def verifyObject (ctx : Context) : Object → Report Unit
  | .operation op => ctx.verifyOperation op
  | .region _ | .block _ => pure ()

/-- Checks several objects, each by itself, up to the first failure. -/
def verifyObjects (ctx : Context) : List Object → Report Unit
  | [] => pure ()
  | x :: rest => do
    ctx.verifyObject x
    ctx.verifyObjects rest

/-- Checks an object and everything nested in it. -/
def verify (ctx : Context) (x : Object) : Report Unit := do
  ctx.verifyObjects (← ctx.tree x).preorder

end Context

end HardwareIR
