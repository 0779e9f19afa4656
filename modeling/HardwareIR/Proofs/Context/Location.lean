import HardwareIR.Proofs.Context.Verdict
import HardwareIR.Proofs.Parameter.Literals

/-! # Where errors are reported

What the checks of an operation reject is reported at the location of the operation, with one
exception.  The literal of an integer constant is checked as an attribute, which is nowhere by
itself, and what is found then is not placed afterwards.  So an integer constant that is in order
but for a literal that has the type of the result and does not fit it (`Context.Misfit`) is rejected
without a location.
-/

namespace HardwareIR

/-! ## Located results -/

/-- What is rejected is reported at a place. -/
def LocatedAt {α : Type} (location : Location) (result : Except Fault α) : Prop :=
  ∀ error, result = .error (.rejected error) → error.location = location

section LocatedAt

variable {α β : Type} {location : Location}

theorem locatedAt_ok (a : α) : LocatedAt location (.ok a) := nofun

theorem locatedAt_verification (cause : Cause) (location : Location) :
    LocatedAt location ((Error.verification cause location).throw : Except Fault α) := by
  rintro error ⟨⟩
  rfl

theorem LocatedAt.bind {x : Except Fault α} {next : α → Except Fault β}
    (first : LocatedAt location x) (rest : ∀ a, x = .ok a → LocatedAt location (next a)) :
    LocatedAt location (x.bind next) := by
  cases x with
  | ok a => exact rest a rfl
  | error fault =>
    rintro error ⟨⟩
    exact first error rfl

end LocatedAt

/-! ## Literals -/

/-- A literal is checked without a location. -/
theorem Attribute.verifyLiteral_locatedAt (type : IRType) (literal : Literal) :
    LocatedAt .unknown (Attribute.verifyLiteral type literal) := by
  unfold verifyLiteral
  split
  · split
    · exact locatedAt_ok ()
    · exact locatedAt_verification _ _
  · exact locatedAt_verification _ _

namespace Context

variable {ctx : Context} {op : OpRef} {o : Operation} {kind : OpKind} {error : Error}

/-! ## Shapes -/

theorem demand_locatedAt (o : Operation) (rule : ShapeRule) (holds : Bool) :
    LocatedAt o.location (demand o rule holds) := by
  unfold demand
  split
  · exact locatedAt_ok ()
  · exact locatedAt_verification _ _

theorem WellFormed.verifyInterface_locatedAt (wf : ctx.WellFormed)
    (live : ctx.operation op = .ok o) (interface : Interface) :
    LocatedAt o.location (ctx.verifyInterface op interface) := by
  cases interface with
  | singleBlockRegion =>
    have regions : ∀ r ∈ o.regions, ctx.Live (.region r) := fun r mem =>
      wf.live_of_holds (.region (regionsOf_of_operation live) mem)
    obtain ⟨verdict, known⟩ := wf.exists_haveSingleBlocks regions
    simp only [verifyInterface, live, known, Except.bind_ok]
    exact demand_locatedAt o _ _
  | constantLike => exact locatedAt_ok ()
  | oneRegion | symbol | oneResult | zeroOperand =>
    simp only [verifyInterface, live, Except.bind_ok]
    exact demand_locatedAt o _ _

theorem WellFormed.verifyInterfaces_locatedAt (wf : ctx.WellFormed)
    (live : ctx.operation op = .ok o) (interfaces : List Interface) :
    LocatedAt o.location (ctx.verifyInterfaces op interfaces) := by
  induction interfaces with
  | nil => exact locatedAt_ok ()
  | cons interface rest ih =>
    exact (wf.verifyInterface_locatedAt live interface).bind fun _ _ => ih

/-! ## Kinds -/

/-- Parameter values are checked at the location of the scope. -/
theorem checkParameter_locatedAt {scope : ParameterScope} (grounded : scope.Grounded)
    {value : Attribute} (has : ∀ ty ∈ value.typeRefs, scope.types.Has ty) :
    LocatedAt scope.location (value.checkParameter scope).result := by
  intro error failed
  obtain ⟨offence, -, same⟩ := (Attribute.checkParameter_eq_error_iff grounded has).mp failed
  cases same
  rfl

theorem Sound.verifyDefaults_locatedAt (sound : ctx.Sound) {location : Location}
    {declarations : List ParamDecl}
    (has : ∀ d ∈ declarations, ∀ ty ∈ d.toAttribute.typeRefs, ctx.types.Has ty) :
    LocatedAt location (ctx.verifyDefaults location declarations).result := by
  have grounded : (ctx.defaultScope location).Grounded := ⟨sound.types, by simp [defaultScope]⟩
  induction declarations with
  | nil => exact locatedAt_ok ()
  | cons d rest ih =>
    rw [verifyDefaults, Report.bind_result]
    refine LocatedAt.bind ?_ fun _ _ => ih fun d' mem => has d' (List.mem_cons_of_mem d mem)
    unfold verifyDefault
    split
    next => exact locatedAt_ok ()
    next value default =>
      rw [Report.warnOnError_result]
      refine checkParameter_locatedAt grounded fun ty mem => ?_
      refine has d List.mem_cons_self ty (List.mem_cons_of_mem d.type ?_)
      rw [default]
      exact mem

theorem Sound.verifyHwModule_locatedAt (sound : ctx.Sound) (live : ctx.operation op = .ok o) :
    LocatedAt o.location (ctx.verifyHwModule op).result := by
  rw [verifyHwModule, Report.lift_bind live]
  split
  next declarations stored =>
    obtain ⟨elements, array, only⟩ := Option.bind_eq_some_iff.mp stored
    obtain rfl := onlyDecls?_eq_some_iff.mp only
    exact sound.verifyDefaults_locatedAt (sound.has_of_declarations live array)
  next => exact locatedAt_verification _ _

theorem Sound.verifyParamValue_locatedAt (sound : ctx.Sound) (acyclic : ctx.Acyclic)
    (registered : (ctx.registry.kind? OpKind.hwModule.id).isSome)
    (live : ctx.operation op = .ok o) :
    LocatedAt o.location (ctx.verifyParamValue op).result := by
  cases stored : o.attributes.get? AttributeDict.paramValue with
  | none =>
    rw [verifyParamValue_of_none live stored]
    exact locatedAt_verification _ _
  | some value =>
    obtain ⟨found, enclosing, declares⟩ := sound.exists_enclosing acyclic registered live
    cases found with
    | none =>
      rw [verifyParamValue_of_outside live stored enclosing]
      exact locatedAt_verification _ _
    | some hwModule =>
      obtain ⟨declarations, parameters⟩ := declares hwModule rfl
      have grounded : (ctx.scope declarations o.location).Grounded :=
        ⟨sound.types, sound.has_of_parameters parameters⟩
      rw [verifyParamValue_eq live stored enclosing parameters]
      exact checkParameter_locatedAt grounded
        ((sound.operations op o live).attributes _ _ stored)

theorem verifyCatalogued_locatedAt (live : ctx.operation op = .ok o) (entry : CatalogEntry) :
    LocatedAt o.location (ctx.verifyCatalogued op entry) := by
  unfold verifyCatalogued
  rw [live, Except.bind_ok]
  split
  · exact locatedAt_verification _ _
  · split
    · exact locatedAt_verification _ _
    · exact locatedAt_ok ()

/-! ## Integer constants -/

/-- The literal of an operation has the type of its only result, and does not fit that type. -/
def LiteralMisfit (ctx : Context) (o : Operation) : Prop :=
  ∃ type literal t, o.resultTypes = [type] ∧
    o.attributes.get? AttributeDict.constantValue = some (.integer type literal) ∧
    ctx.types.get type = .ok t ∧ ¬ literal.Fits t

theorem verifyConstant_of_misfit (live : ctx.operation op = .ok o) (misfit : ctx.LiteralMisfit o) :
    LocatedAt .unknown (ctx.verifyConstant op) := by
  obtain ⟨type, literal, t, results, stored, typed, -⟩ := misfit
  have sole : ctx.soleResultType op = .ok type := by simp [soleResultType, live, results]
  simp only [verifyConstant, literal?, live, stored, Except.bind_ok, Except.pure_eq_ok, sole,
    if_true, typed]
  exact Attribute.verifyLiteral_locatedAt t literal

theorem Sound.verifyConstant_locatedAt (sound : ctx.Sound) (live : ctx.operation op = .ok o)
    {type : TypeRef} (results : o.resultTypes = [type]) (fits : ¬ ctx.LiteralMisfit o) :
    LocatedAt o.location (ctx.verifyConstant op) := by
  have interned := sound.operations op o live
  have sole : ctx.soleResultType op = .ok type := by simp [soleResultType, live, results]
  unfold verifyConstant literal?
  simp only [live, Except.bind_ok]
  split
  next literalType literal stored =>
    have known : ctx.types.Has literalType :=
      interned.attributes _ _ stored literalType List.mem_cons_self
    simp only [Except.pure_eq_ok, Except.bind_ok, sole]
    by_cases same : literalType = type
    · -- What would be found wrong with the literal is excluded.
      subst same
      obtain ⟨t, typed⟩ := known
      have fitting : literal.Fits t := by
        by_contra misfit
        exact fits ⟨literalType, literal, t, results, stored, typed, misfit⟩
      rw [if_pos rfl, typed, Except.bind_ok, Attribute.verifyLiteral_eq_ok_iff.mpr fitting]
      exact locatedAt_ok ()
    · obtain ⟨used, usedText⟩ := sound.types.print_ok known
      obtain ⟨wanted, wantedText⟩ :=
        sound.types.print_ok (interned.results type (by simp [results]))
      simp only [if_neg same, usedText, wantedText, Except.bind_ok]
      exact locatedAt_verification _ _
  next => exact locatedAt_verification _ _

/-! ## Operations -/

/-- An integer constant has the shape that is demanded of constants, and a literal of the type of
its result that does not fit that type. -/
structure Misfit (ctx : Context) (op : OpRef) (o : Operation) : Prop where
  kind : ctx.kindOf op = .ok .constant
  operands : o.operands = []
  literal : ctx.LiteralMisfit o

/-- What passes the interfaces of constants has no operands and one result. -/
theorem constant_shape (live : ctx.operation op = .ok o)
    (shaped : ∀ interface ∈ OpKind.constant.interfaces,
      ctx.verifyInterface op interface = .ok ()) :
    o.operands = [] ∧ ∃ type, o.resultTypes = [type] := by
  have none := (verifyInterface_zeroOperand_iff live).mp (shaped .zeroOperand (by decide))
  have one := (verifyInterface_oneResult_iff live).mp (shaped .oneResult (by decide))
  exact ⟨none, one⟩

theorem Misfit.interfaces (misfit : ctx.Misfit op o) (live : ctx.operation op = .ok o) :
    ctx.verifyInterfaces op OpKind.constant.interfaces = .ok () := by
  obtain ⟨type, _, _, results, -⟩ := misfit.literal
  simp [OpKind.interfaces, verifyInterfaces, verifyInterface, demand, live, misfit.operands,
    results]

/-- What is rejected about an operation is reported at its location, unless it is the literal of a
constant that is in order otherwise. -/
theorem Sound.location_of_rejects (sound : ctx.Sound) (acyclic : ctx.Acyclic)
    (registered : (ctx.registry.kind? OpKind.hwModule.id).isSome)
    (live : ctx.operation op = .ok o) (rejects : ctx.Rejects op error) :
    (ctx.Misfit op o → error.location = .unknown) ∧
      (¬ ctx.Misfit op o → error.location = o.location) := by
  obtain ⟨kind, known, shape | ⟨shaped, own⟩⟩ := rejects
  · refine ⟨fun misfit => ?_, fun _ => ?_⟩
    · -- A misfit has the shape of a constant, so that it is not the shape that was rejected.
      cases known.symm.trans misfit.kind
      rw [misfit.interfaces live] at shape
      cases shape
    · exact sound.wellFormed.verifyInterfaces_locatedAt live _ _ shape
  · constructor
    · intro misfit
      cases known.symm.trans misfit.kind
      exact verifyConstant_of_misfit live misfit.literal _ own
    · intro fine
      cases kind with
      | module => cases own
      | hwModule => exact sound.verifyHwModule_locatedAt live _ own
      | constant =>
        obtain ⟨operands, type, results⟩ := constant_shape live shaped
        refine sound.verifyConstant_locatedAt live results (fun literal => ?_) _ own
        exact fine ⟨known, operands, literal⟩
      | paramValue => exact sound.verifyParamValue_locatedAt acyclic registered live _ own
      | arc index => exact verifyCatalogued_locatedAt live _ _ own

/-! ## Trees -/

/-- Of several operations that do not all pass there is a first that does not. -/
theorem exists_first_failing {ops : List OpRef} (fails : ¬ ∀ op ∈ ops, ctx.Passes op) :
    ∃ before op after, ops = before ++ op :: after ∧ (∀ p ∈ before, ctx.Passes p) ∧
      ¬ ctx.Passes op := by
  induction ops with
  | nil => exact absurd (fun _ mem => absurd mem List.not_mem_nil) fails
  | cons op rest ih =>
    by_cases passes : ctx.Passes op
    · have later : ¬ ∀ p ∈ rest, ctx.Passes p := fun others =>
        fails (List.forall_mem_cons.mpr ⟨passes, others⟩)
      obtain ⟨before, p, after, rfl, passed, failing⟩ := ih later
      exact ⟨op :: before, p, after, rfl, List.forall_mem_cons.mpr ⟨passes, passed⟩, failing⟩
    · exact ⟨[], op, rest, rfl, fun _ mem => absurd mem List.not_mem_nil, passes⟩

/-- What is rejected in the check of a tree is its first operation in pre-order that does not
pass. -/
theorem Sound.exists_rejected (sound : ctx.Sound) (acyclic : ctx.Acyclic)
    (registered : (ctx.registry.kind? OpKind.hwModule.id).isSome)
    (live : ctx.Live (.operation op))
    (failed : (ctx.verify (.operation op)).result = .error (.rejected error)) :
    ∃ before p after o, ctx.Preorder [.operation op] (before ++ p :: after) ∧
      (∀ q ∈ before, ctx.Passes q) ∧ ctx.operation p = .ok o ∧ ctx.Rejects p error := by
  have wf := sound.wellFormed
  obtain ⟨t, tree⟩ := wf.tree_ok live fun x _ => acyclic.irreflexive x
  obtain ⟨ops, preorder, same⟩ := verify_of_tree tree
  rw [same] at failed
  have fails : ¬ ∀ p ∈ ops, ctx.Passes p := by
    intro passed
    rw [verifyObjects_eq_ok_iff.mpr passed] at failed
    cases failed
  obtain ⟨before, p, after, rfl, passed, failing⟩ := exists_first_failing fails
  rw [verifyObjects_of_first passed failing] at failed
  obtain ⟨x, root, below⟩ := (preorder.mem_iff wf).mp (List.mem_append_right _ List.mem_cons_self)
  obtain rfl := List.mem_singleton.mp root
  obtain ⟨o, live'⟩ := wf.live_of_below live below
  refine ⟨before, p, after, o, preorder, passed, live', ?_⟩
  cases known : ctx.registry.kind? o.id with
  | none =>
    rw [verifyOperation_of_unknown live' known] at failed
    cases failed
  | some kind =>
    obtain ⟨error', rejects, same'⟩ :=
      sound.verifyOperation_of_known acyclic registered live' known failing
    rw [same'] at failed
    cases failed
    exact rejects

end Context

end HardwareIR
