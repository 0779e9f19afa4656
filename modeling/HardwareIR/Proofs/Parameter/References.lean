import HardwareIR.Proofs.Parameter.Value
import HardwareIR.Proofs.TypeStore.Grounded

/-! # References to parameters

A reference can be in an attribute (`Attribute.Refers`), or in the width of an integer type that an
attribute mentions (`TypeStore.Refers`).  In a parameter value the references of the first sort are
to declared parameters.  Nothing is demanded of the others: a literal is a parameter value whatever
its type is, and so is an expression.
-/

namespace HardwareIR

variable {name : Identifier} {type : TypeRef}

/-- An attribute refers to a parameter, by itself or by an attribute in it. -/
inductive Attribute.Refers (name : Identifier) (type : TypeRef) : Attribute → Prop where
  | reference : Refers name type (.paramRef name type)
  | operand {op : Parameter.Opcode} {operands : List Attribute} {operand : Attribute}
      (ty : TypeRef) (mem : operand ∈ operands) (refers : operand.Refers name type) :
      Refers name type (.paramExpr op operands ty)
  | element {elements : List Attribute} {element : Attribute} (mem : element ∈ elements)
      (refers : element.Refers name type) : Refers name type (.array elements)
  | default {value : Attribute} (declared : Identifier) (ty : TypeRef)
      (refers : value.Refers name type) : Refers name type (.paramDecl declared ty (some value))

/-- A type refers to a parameter, in a width at any depth. -/
inductive TypeStore.Refers (types : TypeStore) (name : Identifier) (type : TypeRef) :
    TypeRef → Prop where
  | width {ty : TypeRef} {width : Attribute} (found : types.get ty = .ok (.parametric width))
      (refers : width.Refers name type) : Refers types name type ty
  | part {ty part : TypeRef} {t : IRType} (found : types.get ty = .ok t) (mem : part ∈ t.typeRefs)
      (refers : Refers types name type part) : Refers types name type ty

/-- The references in a parameter value are to declared parameters. -/
theorem ParameterValue.declares {declarations : List ParamDecl} {allowReferences : Bool}
    {value : Attribute} (valid : ParameterValue declarations allowReferences value)
    (refers : value.Refers name type) : Declares declarations name type := by
  induction refers with
  | reference =>
    cases valid with
    | reference _ declares => exact declares
  | operand ty mem _ ih =>
    cases valid with
    | expression _ _ values => exact ih (values _ mem)
  | element => cases valid
  | default => cases valid

end HardwareIR
