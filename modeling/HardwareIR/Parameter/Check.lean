import HardwareIR.Report
import HardwareIR.TypeStore.Printer

/-! # Parameter values

Which attributes can be the value of a parameter, given the declarations in scope:

* integers, floating point numbers, strings and verbatim text, always;
* an expression whose operator takes that many operands, if all operands are parameter values;
* a reference, if references are allowed and the first declaration of its name has its type.

Nothing else is one.  `Attribute.checkParameter` reports the first offence, an expression before
its operands and operands from left to right.  It logs every reference that it resolves.
-/

namespace HardwareIR

open Parameter (Opcode)

/-- What a parameter value is checked against. -/
structure ParameterScope where
  types : TypeStore
  /-- The declarations that references can mean; of two with one name, the first counts. -/
  declarations : List ParamDecl
  /-- Whether there may be references at all. -/
  allowReferences : Bool
  /-- Where errors are reported. -/
  location : Location

namespace ParameterScope

/-- The declaration that a name means. -/
def find? (scope : ParameterScope) (name : Identifier) : Option ParamDecl :=
  scope.declarations.find? fun declaration => declaration.name == name

/-- Fails at the location of the scope. -/
def reject {α : Type} (scope : ParameterScope) (fault : ParameterFault) : Report α :=
  .reject (.verification (.parameter fault) scope.location)

def checkReference (scope : ParameterScope) (name : Identifier) (type : TypeRef) : Report Unit :=
  if scope.allowReferences then
    match scope.find? name with
    | some declaration =>
      if declaration.type = type then .emit .trace s!"Parameter {name} resolved"
      else do
        let used ← scope.types.print type
        let declared ← scope.types.print declaration.type
        scope.reject (.typeMismatch name used declared)
    | none => scope.reject (.unknown name)
  else scope.reject (.referenceNotAllowed name)

/-- Refuses an attribute of a kind that is never a parameter value. -/
def rejectValue (scope : ParameterScope) (value : Attribute) : Report Unit := do
  scope.reject (.invalid (← scope.types.printAttribute value))

end ParameterScope

namespace Attribute

mutual
/-- Checks that an attribute is a parameter value. -/
def checkParameter (scope : ParameterScope) : Attribute → Report Unit
  | .integer .. | .float _ | .string _ | .verbatim .. => pure ()
  | .paramExpr op operands _ =>
    if op.acceptsArity operands.length then checkParameters scope operands
    else scope.reject (.arity op operands.length)
  | .paramRef name ty => scope.checkReference name ty
  | .type ty => scope.rejectValue (.type ty)
  | .array elements => scope.rejectValue (.array elements)
  | .paramDecl name ty default? => scope.rejectValue (.paramDecl name ty default?)
  | .zeroCount predicate => scope.rejectValue (.zeroCount predicate)

def checkParameters (scope : ParameterScope) : List Attribute → Report Unit
  | [] => pure ()
  | value :: rest => do
    value.checkParameter scope
    checkParameters scope rest
end

end Attribute

end HardwareIR
