import HardwareIR.Proofs.Context.Preorder
import HardwareIR.Proofs.Context.Verification

/-! # Verdicts on operations and trees

In a sound context, checking a live operation comes to a verdict: it passes, it is rejected, or its
kind is not known.  No check fails for another reason, because the interfaces of a kind see to it
that its own check finds what it asks for.

The check of a tree is that of its operations in pre-order, up to the first that does not pass.
-/

namespace HardwareIR

open Relation (ReflTransGen TransGen)

namespace Context

variable {ctx : Context} {op : OpRef} {o : Operation} {kind : OpKind}

/-! ## Interfaces -/

theorem verifyInterfaces_eq_ok_iff {interfaces : List Interface} :
    ctx.verifyInterfaces op interfaces = .ok () ↔
      ∀ interface ∈ interfaces, ctx.verifyInterface op interface = .ok () := by
  induction interfaces with
  | nil => simp [verifyInterfaces]
  | cons interface rest ih =>
    rw [verifyInterfaces, Except.bind_eq_ok, List.forall_mem_cons, ih]
    constructor
    · rintro ⟨_, first, others⟩
      exact ⟨first, others⟩
    · rintro ⟨first, others⟩
      exact ⟨(), first, others⟩

theorem demand_ne_misuse {rule : ShapeRule} {holds : Bool} (m : Misuse) :
    demand o rule holds ≠ .error (.misuse m) := by
  unfold demand
  split <;> simp [Error.throw]

theorem demand_eq_ok_iff {rule : ShapeRule} {holds : Bool} :
    demand o rule holds = .ok () ↔ holds = true := by
  cases holds <;> simp [demand, Error.throw]

theorem verifyInterface_oneRegion_iff (live : ctx.operation op = .ok o) :
    ctx.verifyInterface op .oneRegion = .ok () ↔ ∃ r, o.regions = [r] := by
  rw [verifyInterface, live, Except.bind_ok, demand_eq_ok_iff, decide_eq_true_iff,
    List.length_eq_one_iff]

theorem verifyInterface_symbol_iff (live : ctx.operation op = .ok o) :
    ctx.verifyInterface op .symbol = .ok () ↔
      ∃ name, AttributeDict.getString? o.attributes AttributeDict.symbolName = some name := by
  rw [verifyInterface, live, Except.bind_ok, demand_eq_ok_iff, Option.isSome_iff_exists]

theorem verifyInterface_oneResult_iff (live : ctx.operation op = .ok o) :
    ctx.verifyInterface op .oneResult = .ok () ↔ ∃ type, o.resultTypes = [type] := by
  rw [verifyInterface, live, Except.bind_ok, demand_eq_ok_iff, decide_eq_true_iff,
    List.length_eq_one_iff]

theorem verifyInterface_zeroOperand_iff (live : ctx.operation op = .ok o) :
    ctx.verifyInterface op .zeroOperand = .ok () ↔ o.operands = [] := by
  rw [verifyInterface, live, Except.bind_ok, demand_eq_ok_iff, List.isEmpty_iff]

/-- The blocks of live regions can be counted. -/
theorem WellFormed.exists_haveSingleBlocks (wf : ctx.WellFormed) {rs : List RegionRef}
    (live : ∀ r ∈ rs, ctx.Live (.region r)) :
    ∃ verdict, ctx.haveSingleBlocks rs = .ok verdict := by
  induction rs with
  | nil => exact ⟨true, rfl⟩
  | cons r rest ih =>
    obtain ⟨content, found⟩ := live r List.mem_cons_self
    obtain ⟨bs, listed⟩ := wf.listed (ends_of_region found)
    obtain ⟨verdict, others⟩ := ih fun r' mem => live r' (List.mem_cons_of_mem r mem)
    by_cases single : bs.length = 1
    · exact ⟨verdict, by simp [haveSingleBlocks, hasSingleBlock, listed.members, single, others]⟩
    · exact ⟨false, by simp [haveSingleBlocks, hasSingleBlock, listed.members, single]⟩

/-- The shape of a live operation can be checked. -/
theorem WellFormed.verifyInterface_ne_misuse (wf : ctx.WellFormed)
    (live : ctx.operation op = .ok o) (interface : Interface) (m : Misuse) :
    ctx.verifyInterface op interface ≠ .error (.misuse m) := by
  cases interface with
  | singleBlockRegion =>
    have regions : ∀ r ∈ o.regions, ctx.Live (.region r) := fun r mem =>
      wf.live_of_holds (.region (regionsOf_of_operation live) mem)
    obtain ⟨verdict, known⟩ := wf.exists_haveSingleBlocks regions
    simp only [verifyInterface, live, known, Except.bind_ok]
    exact demand_ne_misuse m
  | constantLike => simp [verifyInterface]
  | oneRegion | symbol | oneResult | zeroOperand =>
    simp only [verifyInterface, live, Except.bind_ok]
    exact demand_ne_misuse m

theorem WellFormed.verifyInterfaces_ne_misuse (wf : ctx.WellFormed)
    (live : ctx.operation op = .ok o) (interfaces : List Interface) (m : Misuse) :
    ctx.verifyInterfaces op interfaces ≠ .error (.misuse m) := by
  induction interfaces with
  | nil => simp [verifyInterfaces]
  | cons interface rest ih =>
    rw [verifyInterfaces]
    cases first : ctx.verifyInterface op interface with
    | ok _ => exact ih
    | error fault =>
      rintro same
      cases same
      exact wf.verifyInterface_ne_misuse live interface m first

/-! ## Kinds -/

theorem onlyDecls?_eq_some_iff {elements : List Attribute} {declarations : List ParamDecl} :
    onlyDecls? elements = some declarations ↔
      elements = declarations.map ParamDecl.toAttribute := by
  induction elements generalizing declarations with
  | nil => cases declarations <;> simp [onlyDecls?]
  | cons a rest ih =>
    unfold onlyDecls? at ih ⊢
    simp only [List.mapM_cons, Option.bind_eq_bind, Option.bind_eq_some_iff, ih]
    constructor
    · rintro ⟨d, decl, ds, rfl, same⟩
      cases same
      cases a <;> cases decl
      rfl
    · intro same
      cases declarations with
      | nil => cases same
      | cons d ds =>
        obtain ⟨rfl, rfl⟩ := List.cons.inj same
        exact ⟨d, rfl, ds, rfl, rfl⟩

/-- What is stored as the declarations of parameters are the parameters. -/
theorem parameters_of_stored (live : ctx.operation op = .ok o) {declarations : List ParamDecl}
    (stored : AttributeDict.getArray? o.attributes AttributeDict.parameters =
      some (declarations.map ParamDecl.toAttribute)) :
    ctx.parameters op = .ok declarations := by
  have decls :
      (declarations.map ParamDecl.toAttribute).filterMap Attribute.decl? = declarations := by
    rw [List.filterMap_map]
    exact List.filterMap_some
  simp [parameters, live, stored, decls]

theorem Sound.verifyDefaults_sensible (sound : ctx.Sound) {location : Location}
    {declarations : List ParamDecl}
    (has : ∀ d ∈ declarations, ∀ ty ∈ d.toAttribute.typeRefs, ctx.types.Has ty) :
    (ctx.verifyDefaults location declarations).Sensible := by
  have grounded : (ctx.defaultScope location).Grounded := ⟨sound.types, by simp [defaultScope]⟩
  induction declarations with
  | nil => exact Report.sensible_of_ok rfl
  | cons d rest ih =>
    rw [verifyDefaults]
    refine Report.Sensible.bind ?_ fun _ _ => ih fun d' mem => has d' (List.mem_cons_of_mem d mem)
    unfold verifyDefault
    split
    next => exact Report.sensible_of_ok rfl
    next value default =>
      intro m failed
      rw [Report.warnOnError_result] at failed
      refine Attribute.checkParameter_sensible grounded ?_ m failed
      intro ty mem
      refine has d List.mem_cons_self ty (List.mem_cons_of_mem d.type ?_)
      rw [default]
      exact mem

/-- The default values are parameter values that mention no parameter. -/
theorem Sound.verifyDefaults_eq_ok_iff (sound : ctx.Sound) {location : Location}
    {declarations : List ParamDecl}
    (has : ∀ d ∈ declarations, ∀ ty ∈ d.toAttribute.typeRefs, ctx.types.Has ty) :
    (ctx.verifyDefaults location declarations).result = .ok () ↔
      ∀ d ∈ declarations, ∀ value ∈ d.default?, ParameterValue [] false value := by
  have grounded : (ctx.defaultScope location).Grounded := ⟨sound.types, by simp [defaultScope]⟩
  induction declarations with
  | nil => simp [verifyDefaults]
  | cons d rest ih =>
    have first : (ctx.verifyDefault location d).result = .ok () ↔
        ∀ value ∈ d.default?, ParameterValue [] false value := by
      unfold verifyDefault
      split
      next none => simp [none]
      next value default =>
        have known : ∀ ty ∈ value.typeRefs, ctx.types.Has ty := by
          intro ty mem
          refine has d List.mem_cons_self ty (List.mem_cons_of_mem d.type ?_)
          rw [default]
          exact mem
        rw [Report.warnOnError_result, Attribute.checkParameter_eq_ok_iff grounded known]
        simp [default, defaultScope]
    have later := ih fun d' mem => has d' (List.mem_cons_of_mem d mem)
    rw [verifyDefaults, Report.bind_eq_ok, List.forall_mem_cons]
    constructor
    · rintro ⟨_, passed, others⟩
      exact ⟨first.mp passed, later.mp others⟩
    · rintro ⟨closed, others⟩
      exact ⟨(), first.mpr closed, later.mpr others⟩

/-- The declarations that a live operation stores mention types of the store. -/
theorem Sound.has_of_declarations (sound : ctx.Sound) (live : ctx.operation op = .ok o)
    {declarations : List ParamDecl} (stored : AttributeDict.getArray? o.attributes
      AttributeDict.parameters = some (declarations.map ParamDecl.toAttribute)) :
    ∀ d ∈ declarations, ∀ ty ∈ d.toAttribute.typeRefs, ctx.types.Has ty := by
  intro d mem ty refers
  refine (sound.operations op o live).attributes _ _ (AttributeDict.get?_of_getArray? stored) ty ?_
  exact Attribute.mem_typeRefsAll.mpr ⟨_, List.mem_map_of_mem mem, refers⟩

theorem Sound.verifyHwModule_sensible (sound : ctx.Sound) (live : ctx.operation op = .ok o) :
    (ctx.verifyHwModule op).Sensible := by
  intro m failed
  rw [verifyHwModule, Report.lift_bind live] at failed
  split at failed
  next declarations stored =>
    obtain ⟨elements, array, only⟩ := Option.bind_eq_some_iff.mp stored
    obtain rfl := onlyDecls?_eq_some_iff.mp only
    exact sound.verifyDefaults_sensible (sound.has_of_declarations live array) m failed
  next => cases failed

/-- A hardware module is to declare its parameters.  Nothing is demanded of two declarations
together. -/
theorem Sound.verifyHwModule_eq_ok_iff (sound : ctx.Sound) (live : ctx.operation op = .ok o) :
    (ctx.verifyHwModule op).result = .ok () ↔ ∃ declarations : List ParamDecl,
      AttributeDict.getArray? o.attributes AttributeDict.parameters =
        some (declarations.map ParamDecl.toAttribute) ∧
      ∀ d ∈ declarations, ∀ value ∈ d.default?, ParameterValue [] false value := by
  have stored_iff : ∀ declarations,
      (AttributeDict.getArray? o.attributes AttributeDict.parameters).bind onlyDecls? =
        some declarations ↔
      AttributeDict.getArray? o.attributes AttributeDict.parameters =
        some (declarations.map ParamDecl.toAttribute) := by
    intro declarations
    simp only [Option.bind_eq_some_iff, onlyDecls?_eq_some_iff, exists_eq_right]
  rw [verifyHwModule, Report.lift_bind live]
  split
  next declarations stored =>
    have array := (stored_iff declarations).mp stored
    rw [sound.verifyDefaults_eq_ok_iff (sound.has_of_declarations live array)]
    constructor
    · exact fun closed => ⟨declarations, array, closed⟩
    · rintro ⟨declarations', array', closed⟩
      cases stored.symm.trans ((stored_iff declarations').mpr array')
      exact closed
  next missing =>
    refine ⟨nofun, ?_⟩
    rintro ⟨declarations, array, -⟩
    rw [(stored_iff declarations).mpr array] at missing
    cases missing

/-- An integer constant with one result has a type to be compared with. -/
theorem Sound.verifyConstant_ne_misuse (sound : ctx.Sound) (live : ctx.operation op = .ok o)
    (oneResult : o.resultTypes.length = 1) (m : Misuse) :
    ctx.verifyConstant op ≠ .error (.misuse m) := by
  obtain ⟨resultType, results⟩ := List.length_eq_one_iff.mp oneResult
  have interned := sound.operations op o live
  have resultKnown : ctx.types.Has resultType := interned.results _ (by simp [results])
  have sole : ctx.soleResultType op = .ok resultType := by
    simp [soleResultType, live, results]
  unfold verifyConstant literal?
  simp only [live, Except.bind_ok]
  split
  next literalType literal stored =>
    have literalKnown : ctx.types.Has literalType :=
      interned.attributes _ _ stored literalType List.mem_cons_self
    simp only [Except.pure_eq_ok, Except.bind_ok, sole]
    split
    next =>
      obtain ⟨t, typed⟩ := literalKnown
      rw [typed, Except.bind_ok]
      unfold Attribute.verifyLiteral
      split
      next => split <;> simp [Error.throw]
      next => simp [Error.throw]
    next =>
      obtain ⟨used, usedText⟩ := sound.types.print_ok literalKnown
      obtain ⟨wanted, wantedText⟩ := sound.types.print_ok resultKnown
      simp [usedText, wantedText, Error.throw]
  next => simp [Error.throw]

/-- It is known which hardware module is around a live operation, and what that one declares. -/
theorem Sound.exists_enclosing (sound : ctx.Sound) (acyclic : ctx.Acyclic)
    (registered : (ctx.registry.kind? OpKind.hwModule.id).isSome)
    (live : ctx.operation op = .ok o) :
    ∃ found, ctx.enclosing op .hwModule = .ok found ∧
      ∀ hwModule ∈ found, ∃ declarations, ctx.parameters hwModule = .ok declarations := by
  have wf := sound.wellFormed
  obtain ⟨start, parent⟩ := wf.exists_parent live
  obtain ⟨ops, found, -, -, innermost⟩ := wf.innermost_of_parent acyclic parent
  refine ⟨found, sound.enclosing_of_innermost acyclic registered parent innermost, ?_⟩
  intro hwModule around
  cases around
  obtain ⟨content, live', -⟩ := innermost.called
  exact exists_parameters live'

/-- A parameter value is rejected where there is none, or no hardware module around. -/
theorem verifyParamValue_of_none (live : ctx.operation op = .ok o)
    (missing : o.attributes.get? AttributeDict.paramValue = none) :
    (ctx.verifyParamValue op).result =
      .error (.rejected (.verification .paramValueMissing o.location)) := by
  rw [verifyParamValue, Report.lift_bind live, missing]
  rfl

theorem verifyParamValue_of_outside (live : ctx.operation op = .ok o) {value : Attribute}
    (stored : o.attributes.get? AttributeDict.paramValue = some value)
    (outside : ctx.enclosing op .hwModule = .ok none) :
    (ctx.verifyParamValue op).result =
      .error (.rejected (.verification .noEnclosingModule o.location)) := by
  rw [verifyParamValue, Report.lift_bind live, stored]
  simp only
  rw [Report.lift_bind outside]
  rfl

theorem Sound.verifyParamValue_sensible (sound : ctx.Sound) (acyclic : ctx.Acyclic)
    (registered : (ctx.registry.kind? OpKind.hwModule.id).isSome)
    (live : ctx.operation op = .ok o) : (ctx.verifyParamValue op).Sensible := by
  intro m failed
  cases stored : o.attributes.get? AttributeDict.paramValue with
  | none =>
    rw [verifyParamValue_of_none live stored] at failed
    cases failed
  | some value =>
    obtain ⟨found, enclosing, declares⟩ := sound.exists_enclosing acyclic registered live
    cases found with
    | none =>
      rw [verifyParamValue_of_outside live stored enclosing] at failed
      cases failed
    | some hwModule =>
      obtain ⟨declarations, parameters⟩ := declares hwModule rfl
      have grounded : (ctx.scope declarations o.location).Grounded :=
        ⟨sound.types, sound.has_of_parameters parameters⟩
      rw [verifyParamValue_eq live stored enclosing parameters] at failed
      exact Attribute.checkParameter_sensible grounded
        ((sound.operations op o live).attributes _ _ stored) m failed

theorem verifyCatalogued_ne_misuse (live : ctx.operation op = .ok o) (entry : CatalogEntry)
    (m : Misuse) : ctx.verifyCatalogued op entry ≠ .error (.misuse m) := by
  unfold verifyCatalogued
  rw [live, Except.bind_ok]
  split
  next => simp [Error.throw]
  next => split <;> simp [Error.throw]

/-- What an entry of the catalog demands.  How many blocks there are in a region does not matter. -/
theorem verifyCatalogued_eq_ok_iff (live : ctx.operation op = .ok o) (entry : CatalogEntry) :
    ctx.verifyCatalogued op entry = .ok () ↔
      o.regions.length = entry.regions ∧ (entry.terminator = true → o.links.next = none) := by
  unfold verifyCatalogued
  rw [live, Except.bind_ok]
  split
  next other => simp [Error.throw, other]
  next same =>
    rw [not_not] at same
    split
    next misplaced =>
      simp only [Bool.and_eq_true, Option.isSome_iff_ne_none] at misplaced
      simp [Error.throw, misplaced]
    next fine =>
      simp only [Bool.and_eq_true, Option.isSome_iff_ne_none, not_and, not_not] at fine
      simp only [Except.pure_eq_ok, true_iff]
      exact ⟨same, fine⟩

/-- What passes the interfaces of a kind has what the check of the kind asks for. -/
theorem Sound.verifyAs_sensible (sound : ctx.Sound) (acyclic : ctx.Acyclic)
    (registered : (ctx.registry.kind? OpKind.hwModule.id).isSome)
    (live : ctx.operation op = .ok o)
    (shaped : ∀ interface ∈ kind.interfaces, ctx.verifyInterface op interface = .ok ()) :
    (ctx.verifyAs kind op).Sensible := by
  cases kind with
  | module => exact Report.sensible_of_ok rfl
  | hwModule => exact sound.verifyHwModule_sensible live
  | constant =>
    -- The check would go wrong without a result, but there is an interface that asks for one.
    have one := (verifyInterface_oneResult_iff live).mp (shaped .oneResult (by decide))
    exact sound.verifyConstant_ne_misuse live (List.length_eq_one_iff.mpr one)
  | paramValue => exact sound.verifyParamValue_sensible acyclic registered live
  | arc index => exact verifyCatalogued_ne_misuse live _

/-! ## Operations -/

/-- An operation is of a known kind, has the shape that the interfaces of the kind demand, and
passes the check of the kind. -/
def Passes (ctx : Context) (op : OpRef) : Prop :=
  ∃ kind, ctx.kindOf op = .ok kind ∧
    (∀ interface ∈ kind.interfaces, ctx.verifyInterface op interface = .ok ()) ∧
    (ctx.verifyAs kind op).result = .ok ()

/-- An operation is of a known kind, and has not the shape that the interfaces of the kind demand,
or it has and does not pass the check of the kind. -/
def Rejects (ctx : Context) (op : OpRef) (error : Error) : Prop :=
  ∃ kind, ctx.kindOf op = .ok kind ∧
    (ctx.verifyInterfaces op kind.interfaces = .error (.rejected error) ∨
      (∀ interface ∈ kind.interfaces, ctx.verifyInterface op interface = .ok ()) ∧
        (ctx.verifyAs kind op).result = .error (.rejected error))

theorem passes_iff_of_kind (known : ctx.kindOf op = .ok kind) :
    ctx.Passes op ↔
      (∀ interface ∈ kind.interfaces, ctx.verifyInterface op interface = .ok ()) ∧
        (ctx.verifyAs kind op).result = .ok () := by
  constructor
  · rintro ⟨kind', known', shaped, passed⟩
    cases known.symm.trans known'
    exact ⟨shaped, passed⟩
  · rintro ⟨shaped, passed⟩
    exact ⟨kind, known, shaped, passed⟩

theorem verifyOperation_eq_ok_iff :
    (ctx.verifyOperation op).result = .ok () ↔ ctx.Passes op := by
  simp only [Passes, ← verifyInterfaces_eq_ok_iff]
  constructor
  · intro passed
    obtain ⟨kind, known, passed⟩ := Report.bind_eq_ok.mp passed
    obtain ⟨_, shaped, passed⟩ := Report.bind_eq_ok.mp passed
    exact ⟨kind, known, shaped, passed⟩
  · rintro ⟨kind, known, shaped, passed⟩
    exact (verifyOperation_of_kind known shaped).trans passed

/-- An operation of an unknown kind is not checked any further. -/
theorem verifyOperation_of_unknown (live : ctx.operation op = .ok o)
    (unknown : ctx.registry.kind? o.id = none) :
    (ctx.verifyOperation op).result = .error (.misuse (.notRegistered o.id)) := by
  have failed : ctx.kindOf op = .error (.misuse (.notRegistered o.id)) := by
    simp [kindOf, live, unknown, Misuse.throw]
  rw [verifyOperation, Report.bind_result]
  show (ctx.kindOf op).bind _ = _
  rw [failed]
  rfl

theorem not_passes_of_unknown (live : ctx.operation op = .ok o)
    (unknown : ctx.registry.kind? o.id = none) : ¬ ctx.Passes op := by
  intro passes
  have passed := verifyOperation_eq_ok_iff.mpr passes
  rw [verifyOperation_of_unknown live unknown] at passed
  cases passed

/-- An operation of a known kind that does not pass is rejected. -/
theorem Sound.verifyOperation_of_known (sound : ctx.Sound) (acyclic : ctx.Acyclic)
    (registered : (ctx.registry.kind? OpKind.hwModule.id).isSome)
    (live : ctx.operation op = .ok o) (found : ctx.registry.kind? o.id = some kind)
    (fails : ¬ ctx.Passes op) :
    ∃ error, ctx.Rejects op error ∧ (ctx.verifyOperation op).result = .error (.rejected error) := by
  have known := kindOf_of_known live found
  -- No fault of the interfaces, and after them none of the kind's own check, is a misuse.
  cases shape : ctx.verifyInterfaces op kind.interfaces with
  | error fault =>
    cases fault with
    | misuse m => exact absurd shape (sound.wellFormed.verifyInterfaces_ne_misuse live _ m)
    | rejected error =>
      refine ⟨error, ⟨kind, known, .inl shape⟩, ?_⟩
      rw [verifyOperation, Report.lift_bind known, Report.bind_result]
      show (ctx.verifyInterfaces op kind.interfaces).bind _ = _
      rw [shape]
      rfl
  | ok _ =>
    have shaped := verifyInterfaces_eq_ok_iff.mp shape
    rw [verifyOperation_of_kind known shape]
    cases own : (ctx.verifyAs kind op).result with
    | ok _ => exact absurd ⟨kind, known, shaped, own⟩ fails
    | error fault =>
      cases fault with
      | misuse m => exact absurd own (sound.verifyAs_sensible acyclic registered live shaped m)
      | rejected error => exact ⟨error, ⟨kind, known, .inr ⟨shaped, own⟩⟩, rfl⟩

/-! ## Trees -/

theorem verifyObjects_cons_of_passed {x : Object} {rest : List Object}
    (passed : (ctx.verifyObject x).result = .ok ()) :
    (ctx.verifyObjects (x :: rest)).result = (ctx.verifyObjects rest).result := by
  rw [verifyObjects, Report.bind_of_ok passed]

/-- Only the operations among several objects matter. -/
theorem verifyObjects_filterMap (xs : List Object) :
    (ctx.verifyObjects xs).result =
      (ctx.verifyObjects ((xs.filterMap Object.operation?).map .operation)).result := by
  induction xs with
  | nil => rfl
  | cons x rest ih =>
    cases x with
    | operation op =>
      simp only [List.filterMap_cons, Object.operation?, List.map_cons, verifyObjects,
        Report.bind_result, ih]
    | region r => exact (verifyObjects_cons_of_passed rfl).trans ih
    | block b => exact (verifyObjects_cons_of_passed rfl).trans ih

theorem verifyObjects_eq_ok_iff {ops : List OpRef} :
    (ctx.verifyObjects (ops.map .operation)).result = .ok () ↔ ∀ op ∈ ops, ctx.Passes op := by
  induction ops with
  | nil => simp [verifyObjects]
  | cons op rest ih =>
    rw [List.map_cons, verifyObjects, Report.bind_eq_ok, List.forall_mem_cons, ih,
      ← verifyOperation_eq_ok_iff]
    constructor
    · rintro ⟨_, first, others⟩
      exact ⟨first, others⟩
    · rintro ⟨first, others⟩
      exact ⟨(), first, others⟩

/-- The first operation that does not pass decides. -/
theorem verifyObjects_of_first {before after : List OpRef} (passed : ∀ p ∈ before, ctx.Passes p)
    (fails : ¬ ctx.Passes op) :
    (ctx.verifyObjects ((before ++ op :: after).map .operation)).result =
      (ctx.verifyOperation op).result := by
  induction before with
  | nil =>
    rw [List.nil_append, List.map_cons, verifyObjects, Report.bind_result]
    show (ctx.verifyOperation op).result.bind _ = _
    cases outcome : (ctx.verifyOperation op).result with
    | ok _ => exact absurd (verifyOperation_eq_ok_iff.mp outcome) fails
    | error fault => rfl
  | cons p before ih =>
    have first : (ctx.verifyObject (.operation p)).result = .ok () :=
      verifyOperation_eq_ok_iff.mpr (passed p List.mem_cons_self)
    rw [List.cons_append, List.map_cons, verifyObjects_cons_of_passed first]
    exact ih fun p' mem => passed p' (List.mem_cons_of_mem p mem)

/-- How the check of some operations comes out: they all pass, or the first that does not decides,
because its kind is not known or because it is rejected. -/
structure Verdict (ctx : Context) (ops : List OpRef) (verdict : Except Fault Unit) : Prop where
  ok_iff : verdict = .ok () ↔ ∀ op ∈ ops, ctx.Passes op
  unknown : ∀ before op after o, ops = before ++ op :: after → (∀ p ∈ before, ctx.Passes p) →
    ctx.operation op = .ok o → ctx.registry.kind? o.id = none →
    verdict = .error (.misuse (.notRegistered o.id))
  rejected : ∀ before op after o, ops = before ++ op :: after → (∀ p ∈ before, ctx.Passes p) →
    ctx.operation op = .ok o → (ctx.registry.kind? o.id).isSome → ¬ ctx.Passes op →
    ∃ error, ctx.Rejects op error ∧ verdict = .error (.rejected error)

theorem Sound.verdict (sound : ctx.Sound) (acyclic : ctx.Acyclic)
    (registered : (ctx.registry.kind? OpKind.hwModule.id).isSome) (ops : List OpRef) :
    ctx.Verdict ops (ctx.verifyObjects (ops.map .operation)).result where
  ok_iff := verifyObjects_eq_ok_iff
  unknown before op after o split passed live unknown := by
    rw [split, verifyObjects_of_first passed (not_passes_of_unknown live unknown)]
    exact verifyOperation_of_unknown live unknown
  rejected before op after o split passed live known fails := by
    obtain ⟨kind, found⟩ := Option.isSome_iff_exists.mp known
    rw [split, verifyObjects_of_first passed fails]
    exact sound.verifyOperation_of_known acyclic registered live found fails

/-- Checking an operation with what is nested in it is checking its operations in pre-order. -/
theorem verify_of_tree {t : Tree} (tree : ctx.tree (.operation op) = .ok t) :
    ∃ ops, ctx.Preorder [.operation op] ops ∧
      (ctx.verify (.operation op)).result =
        (ctx.verifyObjects (ops.map .operation)).result := by
  refine ⟨_, preorder_of_tree tree, ?_⟩
  rw [verify, Report.lift_bind tree, verifyObjects_filterMap]

/-- An operation passes with what is nested in it if it is live, there is an end to the nesting, and
every operation passes. -/
theorem WellFormed.verify_eq_ok_iff (wf : ctx.WellFormed) :
    (ctx.verify (.operation op)).result = .ok () ↔
      ctx.Live (.operation op) ∧
      (∀ x, ReflTransGen ctx.Holds (.operation op) x → ¬ TransGen ctx.Holds x x) ∧
      ∀ p, ReflTransGen ctx.Holds (.operation op) (.operation p) → ctx.Passes p := by
  -- Once there is a tree, only the checks of its operations are left.
  have passes_iff : ∀ {t}, ctx.tree (.operation op) = .ok t →
      ((ctx.verify (.operation op)).result = .ok () ↔
        ∀ p, ReflTransGen ctx.Holds (.operation op) (.operation p) → ctx.Passes p) := by
    intro t tree
    obtain ⟨ops, preorder, same⟩ := verify_of_tree tree
    rw [same, verifyObjects_eq_ok_iff]
    simp only [preorder.mem_iff wf, List.mem_singleton, exists_eq_left]
  constructor
  · intro passed
    obtain ⟨t, tree, -⟩ := Report.bind_eq_ok.mp passed
    obtain ⟨live, acyclic⟩ := wf.tree_ok_iff.mp ⟨t, tree⟩
    exact ⟨live, acyclic, (passes_iff tree).mp passed⟩
  · rintro ⟨live, acyclic, passes⟩
    obtain ⟨t, tree⟩ := wf.tree_ok live acyclic
    exact (passes_iff tree).mpr passes

/-- A live operation is checked by itself and with what is nested in it. -/
theorem WellFormed.verify_eq_ok_iff_of_live (wf : ctx.WellFormed)
    (live : ctx.operation op = .ok o) :
    (ctx.verify (.operation op)).result = .ok () ↔
      ctx.Passes op ∧
      (∀ x, ReflTransGen ctx.Holds (.operation op) x → ¬ TransGen ctx.Holds x x) ∧
      ∀ p, TransGen ctx.Holds (.operation op) (.operation p) → ctx.Passes p := by
  rw [wf.verify_eq_ok_iff]
  constructor
  · rintro ⟨-, acyclic, passes⟩
    exact ⟨passes op .refl, acyclic, fun p inside => passes p inside.to_reflTransGen⟩
  · rintro ⟨own, acyclic, nested⟩
    refine ⟨⟨o, live⟩, acyclic, fun p below => ?_⟩
    rcases Relation.reflTransGen_iff_eq_or_transGen.mp below with same | inside
    · cases same
      exact own
    · exact nested p inside

end Context

end HardwareIR
