import HardwareIR.TypeStore.Basic

/-! # Checks of types and attributes

What makes a type or an attribute valid by itself, wherever it is used:

* an integer type is at least one bit wide, a state and the parts of a memory are integers;
* an integer literal has an integer type of its own width;
* an expression has as many operands as its operator takes, and valid ones;
* a list, a declaration with a default value, and a type used as a value are as valid as their
  parts.

Neither a state nor a memory looks into the integer types that it is made of.  Errors found here
have no location.
-/

namespace HardwareIR

namespace Attribute

/-- Whether a literal fits the type that it is given. -/
def verifyLiteral (type : IRType) (literal : Literal) : Except Fault Unit :=
  match type with
  | .integer width _ =>
    if literal.width = width.toNat then .ok ()
    else (Error.verification (.literalWidth literal.width width)).throw
  | _ => (Error.verification .literalTypeNotInteger).throw

mutual
/-- Checks an attribute, given the store of types and the check of types. -/
def verifyWith (s : TypeStore) (verifyType : TypeRef → Except Fault Unit) :
    Attribute → Except Fault Unit
  | .integer ty literal => do verifyLiteral (← s.get ty) literal
  | .type ty => verifyType ty
  | .array as => verifyAllWith s verifyType as
  | .paramDecl _ _ d => verifyDefaultWith s verifyType d
  | .paramExpr op as _ =>
    if op.acceptsArity as.length then verifyAllWith s verifyType as
    else (Error.verification (.expressionArity op as.length)).throw
  | .string _ | .float _ | .paramRef .. | .verbatim .. | .zeroCount _ => .ok ()

def verifyAllWith (s : TypeStore) (verifyType : TypeRef → Except Fault Unit) :
    List Attribute → Except Fault Unit
  | [] => .ok ()
  | a :: as => do
    a.verifyWith s verifyType
    verifyAllWith s verifyType as

/-- Checks a default value, if there is one. -/
def verifyDefaultWith (s : TypeStore) (verifyType : TypeRef → Except Fault Unit) :
    Option Attribute → Except Fault Unit
  | none => .ok ()
  | some a => a.verifyWith s verifyType
end

end Attribute

namespace TypeStore

/-- Checks a type whose nesting has at most `depth` levels. -/
def verifyWithin (s : TypeStore) : Nat → TypeRef → Except Fault Unit
  | 0, _ => Misuse.endless.throw
  | depth + 1, ty => do
    match ← s.get ty with
    | .integer width _ =>
      if width = 0 then (Error.verification .zeroWidthInteger).throw else .ok ()
    | .parametric width => width.verifyWith s (s.verifyWithin depth)
    | .state value =>
      if (← s.get value).isInteger then .ok () else (Error.verification .unsizedState).throw
    | .memory _ word address =>
      if (← s.get word).isInteger && (← s.get address).isInteger then .ok ()
      else (Error.verification .nonIntegerMemory).throw
    | .storage _ | .simInstance _ => .ok ()

def verify (s : TypeStore) (ty : TypeRef) : Except Fault Unit :=
  s.verifyWithin (ty.index + 1) ty

def verifyAttribute (s : TypeStore) (a : Attribute) : Except Fault Unit :=
  a.verifyWith s s.verify

end TypeStore

end HardwareIR
