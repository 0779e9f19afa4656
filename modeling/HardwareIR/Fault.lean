import HardwareIR.Arena
import HardwareIR.Identifier
import HardwareIR.Location
import HardwareIR.Parameter.Opcode
import HardwareIR.Text.Quoted

/-! # Failures

Two things can go wrong.  A check can find the design at fault, which gives an `Error`: a cause, the
broad kind of the failure, and the location of what failed.  Or an operation can be asked for
something that makes no sense, such as linking what is linked already: that is a `Misuse`.

Causes are values; their wording is in `Cause.message` and `Misuse.message` alone.
-/

namespace HardwareIR

open Parameter (Opcode)

/-! ## Errors -/

inductive ErrorKind where
  /-- A part of the design breaks a rule. -/
  | verificationFailed
  /-- A request came with arguments that it cannot work with. -/
  | invalidArgument
deriving DecidableEq, Repr

def ErrorKind.message : ErrorKind → String
  | verificationFailed => "verification failed"
  | invalidArgument => "invalid argument"

/-- Why an attribute is not a parameter value. -/
inductive ParameterFault where
  /-- A reference has another type than the declaration. -/
  | typeMismatch (name : Identifier) (used declared : String)
  | unknown (name : Identifier)
  /-- A reference stands where none may. -/
  | referenceNotAllowed (name : Identifier)
  | invalid (value : String)
  /-- An operator has a number of operands that it does not take. -/
  | arity (opcode : Opcode) (operands : Nat)
deriving DecidableEq

/-- The wording for an operator with a wrong number of operands. -/
def arityMessage (opcode : Opcode) (operands : Nat) : String :=
  s!"Parameter expression {opcode.name} cannot have {operands} operand(s)"

def ParameterFault.message : ParameterFault → String
  | typeMismatch name used declared =>
    s!"parameter {name} used with type {used}; should have type {declared}"
  | unknown name => s!"use of unknown parameter {name}"
  | referenceNotAllowed name => s!"parameter reference {name} is not allowed here"
  | invalid value => s!"invalid parameter value {value}"
  | arity opcode operands => arityMessage opcode operands

/-- The shapes that an interface can demand of an operation. -/
inductive ShapeRule where
  | oneRegion
  | singleBlockRegions
  | symbolName
  | oneResult
  | noOperands
deriving DecidableEq, Repr

/-- The demand of a rule, as the end of a sentence. -/
def ShapeRule.demand : ShapeRule → String
  | oneRegion => "must have a single region"
  | singleBlockRegions => "must only have regions with single block"
  | symbolName => "must have a symbol name"
  | oneResult => "must have single result"
  | noOperands => "must not have any operand"

inductive Cause where
  /-- A failure that is only described. -/
  | described (text : String)
  | malformedIdentifier (text : String)
  | zeroWidthInteger
  /-- An integer literal of a type that is no integer type. -/
  | literalTypeNotInteger
  | literalWidth (literal : Nat) (type : UInt32)
  | expressionArity (opcode : Opcode) (operands : Nat)
  | unsizedState
  | nonIntegerMemory
  | parameter (fault : ParameterFault)
  | shape (rule : ShapeRule) (op : QualifiedName)
  /-- The parameters of a module are no list of declarations. -/
  | malformedParameters
  | constantNotInteger
  | constantType (value result : String)
  | paramValueMissing
  | noEnclosingModule
  | regionCount (op : QualifiedName) (expected found : Nat)
  | terminatorNotLast (op : QualifiedName)
deriving DecidableEq

def Cause.message : Cause → String
  | described text => text
  | malformedIdentifier text => Text.quote text ++ " is not an identifier"
  | zeroWidthInteger => "Integer types cannot be zero bits wide"
  | literalTypeNotInteger => "Value of IntegerAttr must be of IntegerType"
  | literalWidth literal type =>
    s!"IntegerAttr value is {literal} bits wide, but its type is {type} bits wide"
  | expressionArity opcode operands => arityMessage opcode operands
  | unsizedState => "State type must have a known bit width"
  | nonIntegerMemory => "Memory word and address types must be integers"
  | parameter fault => fault.message
  | shape rule op => s!"Op {op} {rule.demand}"
  | malformedParameters => "Module parameters must be an array of parameter declarations"
  | constantNotInteger => "Constant value must be an integer attribute"
  | constantType value result =>
    s!"Constant value of type {value} does not match result type {result}"
  | paramValueMissing => "Parameter value has no value attribute"
  | noEnclosingModule => "Parameter value used outside of a hw.module"
  | regionCount op expected found =>
    s!"Op {op} must have {expected} region(s), but has {found}"
  | terminatorNotLast op => s!"Terminator {op} must be the last operation in its block"

structure Error where
  kind : ErrorKind
  cause : Cause
  location : Location
deriving DecidableEq

namespace Error

/-- The kind and the cause of an error, without its location. -/
def message (e : Error) : String :=
  s!"{e.kind.message}: {e.cause.message}"

/-- The kind, the cause and the location of an error. -/
def print (e : Error) : String :=
  s!"{e.message} at {e.location.print}"

/-- A rule broken at a place. -/
def verification (cause : Cause) (location : Location := .unknown) : Error :=
  ⟨.verificationFailed, cause, location⟩

end Error

/-! ## Misuse -/

/-- What the parts of qualified names name. -/
inductive NameRole where
  | ofDialect
  | ofOperation
  | ofType
  | ofAttribute
deriving DecidableEq, Repr

inductive Misuse where
  /-- A handle to an object that was freed. -/
  | freed
  | alreadyLinked
  | notLinked
  /-- Linking next to a node that is in no list. -/
  | markNotLinked
  | noInsertionPoint (op : OpRef)
  | malformedName (role : NameRole) (text : String)
  /-- Listing a name in a dialect that it does not belong to. -/
  | foreignName (id : QualifiedName) (dialect : Identifier)
  | notRegistered (op : QualifiedName)
  | listedTwice (name : Identifier)
  | noSuchResult
  | noSuchArgument
  | missingSymbol
  | missingRegion
  | noRegionAtIndex
  | emptyRegion
  | missingResult
  | missingConstantValue
  | missingParamValue
  /-- Objects that hold each other, so that a walk over them has no end. -/
  | endless
deriving DecidableEq

/-- The wording for a name that is no identifier.  The name of a type is reported with all parts of
the error in their raw form. -/
def NameRole.message (role : NameRole) (text : String) : String :=
  let error := (Error.verification (.malformedIdentifier text)).message
  match role with
  | ofDialect => s!"Bad dialect name: {error}"
  | ofOperation => s!"Bad op name: {error}"
  | ofAttribute => s!"Bad attribute name: {error}"
  | ofType =>
    "Type name must be an identifier: Error \x7b kind: VerificationFailed, "
      ++ "err: MalformedIdentifierErr(" ++ Text.quote text ++ "), loc: Unknown \x7d"

def Misuse.message : Misuse → String
  | freed => "Ptr to a freed object"
  | alreadyLinked => "Cannot link a node that is already in a list"
  | notLinked => "Cannot unlink a node that is not in a list"
  | markNotLinked => "Cannot link relative to a node that is not in a list"
  | noInsertionPoint op => s!"Cannot insert {op.name} without an insertion point"
  | malformedName role text => role.message text
  | foreignName id dialect => s!"{id} does not belong to {dialect}"
  | notRegistered op => s!"Op {op} is not registered"
  | listedTwice name => s!"Malformed arc op catalog: {name} is listed twice"
  | noSuchResult => "Value refers to a non-existent operation result"
  | noSuchArgument => "Value refers to a non-existent block argument"
  | missingSymbol => "Symbol op without a symbol name"
  | missingRegion => "OneRegion op without its region"
  | noRegionAtIndex => "No region at this index"
  | emptyRegion => "SingleBlockRegion op with an empty region"
  | missingResult => "OneResult op without its result"
  | missingConstantValue => "hw.constant without a value"
  | missingParamValue => "hw.param.value without a value"
  | endless => "Objects hold each other"

/-! ## Faults -/

/-- Why an operation has no answer. -/
inductive Fault where
  | rejected (error : Error)
  | misuse (misuse : Misuse)
deriving DecidableEq

def Misuse.throw {α : Type} (m : Misuse) : Except Fault α :=
  .error (.misuse m)

def Error.throw {α : Type} (e : Error) : Except Fault α :=
  .error (.rejected e)

/-- The identifier that `text` is, or the error that it is none. -/
def Identifier.parse (text : String) : Except Fault Identifier :=
  match ofString? text with
  | some id => .ok id
  | none => (Error.verification (.malformedIdentifier text)).throw

/-- The identifier that `text` is, to be used in a qualified name. -/
def NameRole.parse (role : NameRole) (text : String) : Except Fault Identifier :=
  match Identifier.ofString? text with
  | some id => .ok id
  | none => (Misuse.malformedName role text).throw

end HardwareIR
