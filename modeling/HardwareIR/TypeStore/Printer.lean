import HardwareIR.Decimal.Scientific
import HardwareIR.TypeStore.Basic

/-! # The text of types and attributes

Types and attributes are printed on one line.  Strings in them are quoted, so no line break of
theirs shows (see `HardwareIR.Text.quote`).

The text of an attribute needs the texts of the types in it, and the other way round.
`Attribute.printWith` therefore takes the printer of types as an argument, and
`TypeStore.printWithin` closes the circle: a stored type is made of types with smaller handles, so
the handle bounds the nesting.
-/

namespace HardwareIR

/-- Texts with a comma and a blank between them. -/
def commaSeparated (texts : List String) : String :=
  ", ".intercalate texts

namespace Attribute

mutual
/-- The text of an attribute, given the texts of types. -/
def printWith (printType : TypeRef → Except Fault String) : Attribute → Except Fault String
  | .string s => .ok (Text.quote s)
  | .integer ty l => do return s!"0x{l.hex}: {← printType ty}"
  | .float bits => .ok (Decimal.Double.ofBits bits).print
  | .type ty => printType ty
  | .array as => do return "[" ++ commaSeparated (← printAllWith printType as) ++ "]"
  | .paramDecl n ty d => do
    return s!"{n}: {← printType ty}" ++ (← printDefaultWith printType d)
  | .paramRef n ty => do
    return "#hw.param.decl.ref<" ++ Text.quote n.text ++ s!">: {← printType ty}"
  | .paramExpr op as ty => do
    let operands ← printAllWith printType as
    return s!"#hw.param.expr.{op.name}<{commaSeparated operands}>: {← printType ty}"
  | .verbatim t ty => do
    return "#hw.param.verbatim<" ++ Text.quote t ++ s!">: {← printType ty}"
  | .zeroCount p => .ok s!"#arc<zero_count_predicate {p.name}>"

def printAllWith (printType : TypeRef → Except Fault String) :
    List Attribute → Except Fault (List String)
  | [] => .ok []
  | a :: as => do
    let first ← a.printWith printType
    return first :: (← printAllWith printType as)

/-- The text of a default value, behind the declaration that has it. -/
def printDefaultWith (printType : TypeRef → Except Fault String) :
    Option Attribute → Except Fault String
  | none => .ok ""
  | some a => do return " = " ++ (← a.printWith printType)
end

end Attribute

namespace TypeStore

/-- The text of a type whose nesting has at most `depth` levels. -/
def printWithin (s : TypeStore) : Nat → TypeRef → Except Fault String
  | 0, _ => Misuse.endless.throw
  | depth + 1, ty => do
    match ← s.get ty with
    | .integer width sign => return s!"{sign.mark}{width}"
    | .parametric width => return s!"hw.int<{← width.printWith (s.printWithin depth)}>"
    | .state value => return s!"!arc.state<{← s.printWithin depth value}>"
    | .memory words word address =>
      let word ← s.printWithin depth word
      let address ← s.printWithin depth address
      return s!"!arc.memory<{words} x {word}, {address}>"
    | .storage size => return s!"!arc.storage<{size}>"
    | .simInstance model => return s!"!arc.sim.instance<@{model}>"

def print (s : TypeStore) (ty : TypeRef) : Except Fault String :=
  s.printWithin (ty.index + 1) ty

def printAttribute (s : TypeStore) (a : Attribute) : Except Fault String :=
  a.printWith s.print

def printDecl (s : TypeStore) (d : ParamDecl) : Except Fault String :=
  s.printAttribute d.toAttribute

end TypeStore

end HardwareIR
