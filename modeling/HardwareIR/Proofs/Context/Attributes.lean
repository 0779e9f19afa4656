import HardwareIR.Proofs.Context.Verdict
import HardwareIR.Proofs.Parameter.Literals

/-! # Attributes of operations that pass

An operation that passes has the attributes that its kind asks for (`OpKind.attributeKeys`), and
each of them is valid by itself but for the literals in it.  The literal of an integer constant is
checked as an attribute; the literals in the value of a parameter valued constant and in the default
values of a hardware module are not, because the check of parameter values takes literals as they
are.  No check looks at attributes at other keys.
-/

namespace HardwareIR

/-- The keys of the attributes that the checks of operations of a kind look at. -/
def OpKind.attributeKeys : OpKind → List String
  | .module => [AttributeDict.symbolName]
  | .hwModule => [AttributeDict.symbolName, AttributeDict.parameters]
  | .constant => [AttributeDict.constantValue]
  | .paramValue => [AttributeDict.paramValue]
  | .arc _ => []

/-- The keys of the attributes that are checked as parameter values, or have default values that
are. -/
def AttributeDict.parameterKeys : List String :=
  [AttributeDict.parameters, AttributeDict.paramValue]

namespace Context

variable {ctx : Context} {op : OpRef} {o : Operation} {kind : OpKind}

/-! ## Kinds -/

/-- What passes the check of an integer constant has a literal that fits its type. -/
theorem fitting_of_verifyConstant (live : ctx.operation op = .ok o)
    (passed : ctx.verifyConstant op = .ok ()) :
    ∃ type literal,
      o.attributes.get? AttributeDict.constantValue = some (.integer type literal) ∧
      ctx.types.verifyAttribute (.integer type literal) = .ok () := by
  unfold verifyConstant literal? at passed
  simp only [live, Except.bind_ok] at passed
  split at passed
  next type literal stored =>
    refine ⟨type, literal, stored, ?_⟩
    simp only [Except.pure_eq_ok, Except.bind_ok] at passed
    obtain ⟨resultType, -, compared⟩ := Except.bind_eq_ok.mp passed
    split at compared
    next => exact compared
    next =>
      obtain ⟨_, -, told⟩ := Except.bind_eq_ok.mp compared
      obtain ⟨_, -, told⟩ := Except.bind_eq_ok.mp told
      cases told
  next => cases passed

/-- What passes the check of a parameter valued constant has a value that is one in the hardware
module around it. -/
theorem Sound.value_of_verifyParamValue (sound : ctx.Sound) (live : ctx.operation op = .ok o)
    (passed : (ctx.verifyParamValue op).result = .ok ()) :
    ∃ value declarations, o.attributes.get? AttributeDict.paramValue = some value ∧
      ParameterValue declarations true value := by
  cases stored : o.attributes.get? AttributeDict.paramValue with
  | none =>
    rw [verifyParamValue_of_none live stored] at passed
    cases passed
  | some value =>
    have unfolded := passed
    rw [verifyParamValue, Report.lift_bind live] at unfolded
    simp only [stored] at unfolded
    obtain ⟨found, enclosing, rest⟩ := Report.bind_eq_ok.mp unfolded
    cases found with
    | none => cases rest
    | some hwModule =>
      obtain ⟨declarations, parameters, -⟩ := Report.bind_eq_ok.mp rest
      rw [verifyParamValue_eq live stored enclosing parameters] at passed
      refine ⟨value, declarations, rfl, ?_⟩
      have has := (sound.operations op o live).attributes _ _ stored
      exact (sound.checkParameter_eq_ok_iff parameters has o.location).mp passed

/-! ## Attributes -/

/-- An operation has an attribute at a key, which is valid by itself exactly if the literals in it
fit their types, and is valid in any case unless it is checked as a parameter value. -/
def HasChecked (ctx : Context) (o : Operation) (key : String) : Prop :=
  ∃ value, o.attributes.get? key = some value ∧
    (ctx.types.verifyAttribute value = .ok () ↔ ctx.types.LiteralsFit value) ∧
    (key ∉ AttributeDict.parameterKeys → ctx.types.verifyAttribute value = .ok ())

theorem hasChecked_symbolName (live : ctx.operation op = .ok o)
    (passed : ctx.verifyInterface op .symbol = .ok ()) :
    ctx.HasChecked o AttributeDict.symbolName := by
  obtain ⟨name, found⟩ := (verifyInterface_symbol_iff live).mp passed
  have fit : ctx.types.LiteralsFit (.string name) := TypeStore.literalsFit_of_literals_eq_nil rfl
  exact ⟨.string name, AttributeDict.get?_of_getString? found, iff_of_true rfl fit, fun _ => rfl⟩

theorem Sound.hasChecked_parameters (sound : ctx.Sound) (live : ctx.operation op = .ok o)
    (passed : (ctx.verifyHwModule op).result = .ok ()) :
    ctx.HasChecked o AttributeDict.parameters := by
  obtain ⟨declarations, stored, closed⟩ := (sound.verifyHwModule_eq_ok_iff live).mp passed
  exact ⟨_, AttributeDict.get?_of_getArray? stored,
    TypeStore.verifyAttribute_declarations_eq_ok_iff closed, fun other => absurd (by decide) other⟩

theorem hasChecked_constantValue (live : ctx.operation op = .ok o)
    (passed : ctx.verifyConstant op = .ok ()) :
    ctx.HasChecked o AttributeDict.constantValue := by
  obtain ⟨type, literal, stored, valid⟩ := fitting_of_verifyConstant live passed
  exact ⟨_, stored, TypeStore.verifyAttribute_integer_eq_ok_iff, fun _ => valid⟩

theorem Sound.hasChecked_paramValue (sound : ctx.Sound) (live : ctx.operation op = .ok o)
    (passed : (ctx.verifyParamValue op).result = .ok ()) :
    ctx.HasChecked o AttributeDict.paramValue := by
  obtain ⟨value, declarations, stored, valid⟩ := sound.value_of_verifyParamValue live passed
  exact ⟨value, stored, valid.verifyAttribute_eq_ok_iff, fun other => absurd (by decide) other⟩

/-- An operation that passes has every attribute that its kind asks for. -/
theorem Sound.attributes_of_passes (sound : ctx.Sound) (live : ctx.operation op = .ok o)
    (passes : ctx.Passes op) :
    ∃ kind, ctx.kindOf op = .ok kind ∧ ∀ key ∈ kind.attributeKeys, ctx.HasChecked o key := by
  obtain ⟨kind, known, shaped, passed⟩ := passes
  refine ⟨kind, known, ?_⟩
  cases kind with
  | module =>
    have named := hasChecked_symbolName live (shaped .symbol (by decide))
    simpa [OpKind.attributeKeys] using named
  | hwModule =>
    have named := hasChecked_symbolName live (shaped .symbol (by decide))
    simpa [OpKind.attributeKeys] using And.intro named (sound.hasChecked_parameters live passed)
  | constant =>
    have valued := hasChecked_constantValue live passed
    simpa [OpKind.attributeKeys] using valued
  | paramValue =>
    have valued := sound.hasChecked_paramValue live passed
    simpa [OpKind.attributeKeys] using valued
  | arc index =>
    intro key mem
    cases mem

end Context

end HardwareIR
