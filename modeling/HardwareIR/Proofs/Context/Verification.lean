import HardwareIR.Proofs.Context.Enclosure

/-! # Checks of constants

A constant holds nothing and has the shape that its interfaces demand, so that checking it comes
down to what its kind demands by itself: for an integer constant, the type and then the width of
its literal; for a parameter valued constant, that the innermost hardware module around it accepts
its value.
-/

namespace HardwareIR

namespace Context

variable {ctx : Context} {op : OpRef} {o : Operation} {type : TypeRef} {location : Location}

/-! ## Operations without regions -/

theorem tree_of_plain (live : ctx.operation op = .ok o) (plain : o.regions = []) :
    ctx.tree (.operation op) = .ok (.node (.operation op) []) := by
  simp [tree, treeWithin, holdings, live, plain]

/-- An operation without regions is all that there is to check. -/
theorem verify_of_plain (live : ctx.operation op = .ok o) (plain : o.regions = []) :
    (ctx.verify (.operation op)).result = (ctx.verifyOperation op).result := by
  rw [verify, Report.lift_bind (tree_of_plain live plain)]
  show (ctx.verifyOperation op >>= fun _ => pure ()).result = _
  rw [Report.bind_result]
  cases (ctx.verifyOperation op).result <;> rfl

theorem verifyOperation_of_kind {kind : OpKind} (known : ctx.kindOf op = .ok kind)
    (shape : ctx.verifyInterfaces op kind.interfaces = .ok ()) :
    (ctx.verifyOperation op).result = (ctx.verifyAs kind op).result := by
  rw [verifyOperation, Report.lift_bind known, Report.lift_bind shape]

/-- The shape that the interfaces of constants demand. -/
structure ConstantShape (o : Operation) (type : TypeRef) : Prop where
  regions : o.regions = []
  operands : o.operands = []
  results : o.resultTypes = [type]

theorem ConstantShape.interfaces (shape : ConstantShape o type) (live : ctx.operation op = .ok o) :
    ctx.verifyInterfaces op [.zeroOperand, .oneResult, .constantLike] = .ok () := by
  simp [verifyInterfaces, verifyInterface, demand, live, shape.operands, shape.results]

/-- Checking a constant is the check of its kind. -/
theorem ConstantShape.verify_eq (shape : ConstantShape o type) (live : ctx.operation op = .ok o)
    {kind : OpKind} (known : ctx.kindOf op = .ok kind)
    (constant : kind.interfaces = [.zeroOperand, .oneResult, .constantLike]) :
    (ctx.verify (.operation op)).result = (ctx.verifyAs kind op).result := by
  rw [verify_of_plain live shape.regions]
  apply verifyOperation_of_kind known
  rw [constant]
  exact shape.interfaces live

theorem ConstantShape.soleResultType (shape : ConstantShape o type)
    (live : ctx.operation op = .ok o) : ctx.soleResultType op = .ok type := by
  simp [Context.soleResultType, live, shape.results]

/-! ## Integer constants -/

section Literal

variable {literalType : TypeRef} {literal : Literal}

theorem ConstantShape.verifyConstant_of_same (shape : ConstantShape o type)
    (live : ctx.operation op = .ok o)
    (value : o.attributes.get? AttributeDict.constantValue = some (.integer type literal))
    {t : IRType} (typed : ctx.types.get type = .ok t) :
    ctx.verifyConstant op = Attribute.verifyLiteral t literal := by
  simp only [verifyConstant, literal?, live, value, Except.bind_ok, Except.pure_eq_ok,
    shape.soleResultType live, if_true, typed]

theorem ConstantShape.verifyConstant_of_other (shape : ConstantShape o type)
    (live : ctx.operation op = .ok o)
    (value : o.attributes.get? AttributeDict.constantValue = some (.integer literalType literal))
    (other : literalType ≠ type) {used wanted : String}
    (usedText : ctx.types.print literalType = .ok used)
    (wantedText : ctx.types.print type = .ok wanted) :
    ctx.verifyConstant op =
      .error (.rejected (.verification (.constantType used wanted) o.location)) := by
  simp only [verifyConstant, literal?, live, value, Except.bind_ok, Except.pure_eq_ok,
    shape.soleResultType live, if_neg other, usedText, wantedText, Error.throw]

/-- What the check of an integer constant says.  The type of the literal is compared before its
width. -/
structure LiteralVerdict (types : TypeStore) (type literalType : TypeRef) (literal : Literal)
    (width : UInt32) (location : Location) (verdict : Except Fault Unit) : Prop where
  ok_iff : verdict = .ok () ↔ literalType = type ∧ literal.width = width.toNat
  otherType : literalType ≠ type → ∃ used wanted, types.print literalType = .ok used ∧
    types.print type = .ok wanted ∧
    verdict = .error (.rejected (.verification (.constantType used wanted) location))
  otherWidth : literalType = type → literal.width ≠ width.toNat →
    verdict = .error (.rejected (.verification (.literalWidth literal.width width)))

theorem ConstantShape.literalVerdict (shape : ConstantShape o type)
    (live : ctx.operation op = .ok o)
    (value : o.attributes.get? AttributeDict.constantValue = some (.integer literalType literal))
    (grounded : ctx.types.Grounded) (has : ctx.types.Has literalType) {width : UInt32}
    {sign : Signedness} (typed : ctx.types.get type = .ok (.integer width sign)) :
    LiteralVerdict ctx.types type literalType literal width o.location (ctx.verifyConstant op) := by
  have otherType : literalType ≠ type → ∃ used wanted, ctx.types.print literalType = .ok used ∧
      ctx.types.print type = .ok wanted ∧ ctx.verifyConstant op =
        .error (.rejected (.verification (.constantType used wanted) o.location)) := by
    intro other
    obtain ⟨used, usedText⟩ := grounded.print_ok has
    obtain ⟨wanted, wantedText⟩ := grounded.print_ok ⟨_, typed⟩
    exact ⟨used, wanted, usedText, wantedText,
      shape.verifyConstant_of_other live value other usedText wantedText⟩
  have otherWidth : literalType = type → literal.width ≠ width.toNat → ctx.verifyConstant op =
      .error (.rejected (.verification (.literalWidth literal.width width))) := by
    rintro rfl misfit
    rw [shape.verifyConstant_of_same live value typed]
    exact if_neg misfit
  refine ⟨⟨fun ok => ?_, ?_⟩, otherType, otherWidth⟩
  · by_cases same : literalType = type
    · refine ⟨same, ?_⟩
      by_contra misfit
      rw [otherWidth same misfit] at ok
      cases ok
    · obtain ⟨used, wanted, -, -, failed⟩ := otherType same
      rw [failed] at ok
      cases ok
  · rintro ⟨rfl, fits⟩
    rw [shape.verifyConstant_of_same live value typed]
    exact if_pos fits

end Literal

/-! ## Parameter valued constants -/

theorem verifyParamValue_eq (live : ctx.operation op = .ok o) {value : Attribute}
    (stored : o.attributes.get? AttributeDict.paramValue = some value) {hwModule : OpRef}
    (enclosing : ctx.enclosing op .hwModule = .ok (some hwModule))
    {declarations : List ParamDecl} (found : ctx.parameters hwModule = .ok declarations) :
    (ctx.verifyParamValue op).result =
      (value.checkParameter (ctx.scope declarations o.location)).result := by
  rw [verifyParamValue, Report.lift_bind live]
  simp only [stored]
  rw [Report.lift_bind enclosing]
  simp only
  rw [Report.lift_bind found, Report.warnOnError_result]

end Context

end HardwareIR
