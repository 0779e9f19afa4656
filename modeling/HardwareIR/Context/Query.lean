import HardwareIR.Context.Ancestor
import HardwareIR.Context.Value

/-! # Questions to operations

What the interfaces of operations, and the kinds that have attributes of their own, let one ask.
The questions go to any operation, as it is seen for the moment as one of a kind that knows the
answer; an operation that does not have what is asked for is misused.
-/

namespace HardwareIR

namespace Context

/-- The kind that an operation is of, which has to be known. -/
def kindOf (ctx : Context) (op : OpRef) : Except Fault OpKind := do
  let o ← ctx.operation op
  match ctx.registry.kind? o.id with
  | some kind => return kind
  | none => (Misuse.notRegistered o.id).throw

/-- The innermost operation of a kind around an operation.  The kind has to be known if there is
one. -/
def enclosing (ctx : Context) (op : OpRef) (kind : OpKind) : Except Fault (Option OpRef) := do
  match ← ctx.firstCalled kind.id (← ctx.ancestors op) with
  | none => return none
  | some found => do
    let actual ← ctx.kindOf found
    return if actual = kind then some found else none

/-! ## Regions -/

/-- The only region of an operation that has one. -/
def soleRegion (ctx : Context) (op : OpRef) : Except Fault RegionRef := do
  match (← ctx.operation op).regions[0]? with
  | some r => return r
  | none => Misuse.missingRegion.throw

/-- The first block of a region of an operation. -/
def body (ctx : Context) (op : OpRef) (index : Nat) : Except Fault BlockRef := do
  match (← ctx.operation op).regions[index]? with
  | none => Misuse.noRegionAtIndex.throw
  | some r =>
    match (← ctx.region r).ends.head with
    | some b => return b
    | none => Misuse.emptyRegion.throw

/-! ## Symbols -/

def symbolName (ctx : Context) (op : OpRef) : Except Fault String := do
  match AttributeDict.getString? (← ctx.operation op).attributes AttributeDict.symbolName with
  | some name => return name
  | none => Misuse.missingSymbol.throw

def setAttribute (ctx : Context) (op : OpRef) (key : String) (value : Attribute) :
    Except Fault Context := do
  let _ ← ctx.operation op
  return ctx.modifyOperation op fun o => { o with attributes := o.attributes.insert key value }

def setSymbolName (ctx : Context) (op : OpRef) (name : String) : Except Fault Context :=
  ctx.setAttribute op AttributeDict.symbolName (.string name)

def setLocation (ctx : Context) (op : OpRef) (location : Location) : Except Fault Context := do
  let _ ← ctx.operation op
  return ctx.modifyOperation op fun o => { o with location }

/-! ## Results -/

/-- The only result of an operation that has one. -/
def soleResult (ctx : Context) (op : OpRef) : Except Fault Value := do
  match (← ctx.operation op).result? op 0 with
  | some value => return value
  | none => Misuse.missingResult.throw

def soleResultType (ctx : Context) (op : OpRef) : Except Fault TypeRef := do
  match (← ctx.operation op).resultTypes[0]? with
  | some ty => return ty
  | none => Misuse.missingResult.throw

/-! ## Constants and parameters -/

/-- The value of an integer constant, whatever attribute it is. -/
def constantAttribute (ctx : Context) (op : OpRef) : Except Fault Attribute := do
  match (← ctx.operation op).attributes.get? AttributeDict.constantValue with
  | some value => return value
  | none => Misuse.missingConstantValue.throw

def paramAttribute (ctx : Context) (op : OpRef) : Except Fault Attribute := do
  match (← ctx.operation op).attributes.get? AttributeDict.paramValue with
  | some value => return value
  | none => Misuse.missingParamValue.throw

/-- The attribute that gives the value of an operation that is seen as one of a kind, if that is a
kind of constants. -/
def constantValue? (ctx : Context) (kind : OpKind) (op : OpRef) :
    Except Fault (Option Attribute) :=
  match kind with
  | .constant => some <$> ctx.constantAttribute op
  | .paramValue => some <$> ctx.paramAttribute op
  | .module | .hwModule | .arc _ => .ok none

/-- The literal that an integer constant defines, with its type, if its value is one. -/
def literal? (ctx : Context) (op : OpRef) : Except Fault (Option (TypeRef × Literal)) := do
  match (← ctx.operation op).attributes.get? AttributeDict.constantValue with
  | some (.integer ty l) => return some (ty, l)
  | _ => return none

/-- The parameters that a hardware module declares, in order. -/
def parameters (ctx : Context) (op : OpRef) : Except Fault (List ParamDecl) := do
  match AttributeDict.getArray? (← ctx.operation op).attributes AttributeDict.parameters with
  | some elements => return elements.filterMap Attribute.decl?
  | none => return []

end Context

end HardwareIR
