import HardwareIR.Proofs.Context.Verdict

/-! # Operands under verification

Operations of some kinds are to have no operands.  Nothing else is demanded of operands: not that
what they name is there, nor that it has a type.  So two contexts that differ in operands only
(`Context.SameButOperands`) have the same verdicts, except on operations that are to have none.
-/

namespace HardwareIR

open Relation (ReflTransGen TransGen)

/-- An operation, apart from its operands. -/
def Operation.withoutOperands (o : Operation) : Operation :=
  { o with operands := [] }

namespace Context

variable {ctx ctx' : Context} {op : OpRef} {o : Operation}

/-- Nothing but operands is different. -/
structure SameButOperands (ctx ctx' : Context) : Prop where
  operation : ∀ op, (ctx'.operation op).map Operation.withoutOperands =
    (ctx.operation op).map Operation.withoutOperands
  capacity : ctx'.operations.capacity = ctx.operations.capacity
  blocks : ctx'.blocks = ctx.blocks
  regions : ctx'.regions = ctx.regions
  types : ctx'.types = ctx.types
  registry : ctx'.registry = ctx.registry

namespace SameButOperands

/-! ## Places -/

theorem operation_cases (same : SameButOperands ctx ctx') (op : OpRef) :
    (∃ o operands, ctx.operation op = .ok o ∧ ctx'.operation op = .ok { o with operands }) ∨
      ∃ fault, ctx.operation op = .error fault ∧ ctx'.operation op = .error fault := by
  have contents := same.operation op
  cases before : ctx.operation op with
  | ok o =>
    cases after : ctx'.operation op with
    | ok o' =>
      rw [before, after, Except.map_ok, Except.map_ok] at contents
      refine .inl ⟨o, o'.operands, rfl, ?_⟩
      obtain ⟨⟩ := o
      obtain ⟨⟩ := o'
      simp_all [Operation.withoutOperands]
    | error fault =>
      rw [before, after] at contents
      cases contents
  | error fault =>
    cases after : ctx'.operation op with
    | ok o' =>
      rw [before, after] at contents
      cases contents
    | error fault' =>
      rw [before, after] at contents
      cases contents
      exact .inr ⟨fault, rfl, rfl⟩

theorem exists_operation (same : SameButOperands ctx ctx') (live : ctx.operation op = .ok o) :
    ∃ operands, ctx'.operation op = .ok { o with operands } := by
  rcases same.operation_cases op with ⟨o', operands, before, after⟩ | ⟨fault, before, -⟩
  · cases live.symm.trans before
    exact ⟨operands, after⟩
  · cases live.symm.trans before

/-- What is read of an operation apart from its operands is the same. -/
theorem map_operation (same : SameButOperands ctx ctx') {α : Type} (f : Operation → α)
    (blind : ∀ o operands, f { o with operands } = f o) (op : OpRef) :
    (ctx'.operation op).map f = (ctx.operation op).map f := by
  rcases same.operation_cases op with ⟨o, operands, before, after⟩ | ⟨fault, before, after⟩
  · rw [before, after, Except.map_ok, Except.map_ok, blind]
  · rw [before, after]

theorem block_eq (same : SameButOperands ctx ctx') (b : BlockRef) : ctx'.block b = ctx.block b := by
  simp only [block, same.blocks]

theorem region_eq (same : SameButOperands ctx ctx') (r : RegionRef) :
    ctx'.region r = ctx.region r := by
  simp only [region, same.regions]

theorem sameShape (same : SameButOperands ctx ctx') : SameShape ctx ctx' where
  links l x := by
    cases l with
    | ops =>
      rw [links_ops, links_ops]
      exact same.map_operation _ (fun _ _ => rfl) x
    | blocks => rw [links_blocks, links_blocks, same.block_eq]
  ends l c := by
    cases l with
    | ops => rw [ends_ops, ends_ops, same.block_eq]
    | blocks => rw [ends_blocks, ends_blocks, same.region_eq]
  regions op := same.map_operation _ (fun _ _ => rfl) op
  owner r := by rw [ownerOf, ownerOf, same.region_eq]

theorem symm (same : SameButOperands ctx ctx') : SameButOperands ctx' ctx :=
  ⟨fun op => (same.operation op).symm, same.capacity.symm, same.blocks.symm, same.regions.symm,
    same.types.symm, same.registry.symm⟩

end SameButOperands

/-- Contexts of the same shape nest objects in the same way. -/
theorem SameShape.holds {x y : Object} (same : SameShape ctx ctx') (held : ctx.Holds x y) :
    ctx'.Holds x y := by
  cases held with
  | region regions mem => exact .region ((same.regions _).trans regions) mem
  | block listed mem => exact .block (listed.congr (same.ends _ _) fun x _ => same.links _ x) mem
  | operation listed mem =>
    exact .operation (listed.congr (same.ends _ _) fun x _ => same.links _ x) mem

namespace SameButOperands

theorem holds_iff (same : SameButOperands ctx ctx') : ctx'.Holds = ctx.Holds := by
  funext x y
  exact propext ⟨same.symm.sameShape.holds, same.sameShape.holds⟩

/-! ## Around an operation -/

theorem parent_eq (same : SameButOperands ctx ctx') (op : OpRef) :
    ctx'.parent op = ctx.parent op := by
  simp only [Context.parent_eq, blockOwner_eq, same.sameShape.links, same.sameShape.owner]

theorem outward_eq (same : SameButOperands ctx ctx') (bound : Nat) (start : Option OpRef) :
    ctx'.outward bound start = ctx.outward bound start := by
  induction bound generalizing start with
  | zero => cases start <;> rfl
  | succ bound ih =>
    cases start with
    | none => rfl
    | some op => simp only [outward, same.parent_eq, ih]

theorem kindOf_eq (same : SameButOperands ctx ctx') (op : OpRef) :
    ctx'.kindOf op = ctx.kindOf op :=
  kindOf_congr (same.map_operation _ fun _ _ => rfl) same.registry op

theorem firstCalled_eq (same : SameButOperands ctx ctx') (id : QualifiedName)
    (ops : List OpRef) : ctx'.firstCalled id ops = ctx.firstCalled id ops :=
  firstCalled_congr (same.map_operation _ fun _ _ => rfl) id ops

theorem enclosing_eq (same : SameButOperands ctx ctx') (op : OpRef) (kind : OpKind) :
    ctx'.enclosing op kind = ctx.enclosing op kind := by
  simp only [enclosing, ancestors, same.parent_eq, same.capacity, same.outward_eq,
    same.firstCalled_eq, same.kindOf_eq]

theorem parameters_eq (same : SameButOperands ctx ctx') (op : OpRef) :
    ctx'.parameters op = ctx.parameters op := by
  rcases same.operation_cases op with ⟨o, operands, before, after⟩ | ⟨fault, before, after⟩
  · simp only [parameters, before, after, Except.bind_ok]
  · simp only [parameters, before, after, Except.bind_error]

/-! ## Checks -/

theorem haveSingleBlocks_eq (same : SameButOperands ctx ctx') (wf : ctx.WellFormed)
    (rs : List RegionRef) : ctx'.haveSingleBlocks rs = ctx.haveSingleBlocks rs := by
  have shape := same.sameShape
  have members : ∀ r, ctx'.members .blocks r = ctx.members .blocks r := fun r =>
    wf.members_congr (shape.ends .blocks r) fun bs listed =>
      listed.congr (shape.ends .blocks r) fun b _ => shape.links .blocks b
  induction rs with
  | nil => rfl
  | cons r rest ih => simp only [haveSingleBlocks, hasSingleBlock, members, ih]

/-- No other interface looks at operands. -/
theorem verifyInterface_eq (same : SameButOperands ctx ctx') (wf : ctx.WellFormed) (op : OpRef)
    {interface : Interface} (other : interface ≠ .zeroOperand) :
    ctx'.verifyInterface op interface = ctx.verifyInterface op interface := by
  rcases same.operation_cases op with ⟨o, operands, before, after⟩ | ⟨fault, before, after⟩
  · cases interface with
    | zeroOperand => exact absurd rfl other
    | constantLike => rfl
    | singleBlockRegion =>
      simp only [verifyInterface, before, after, Except.bind_ok, same.haveSingleBlocks_eq wf]
      rfl
    | oneRegion | symbol | oneResult =>
      simp only [verifyInterface, before, after, Except.bind_ok]
      rfl
  · cases interface with
    | constantLike => rfl
    | _ => simp only [verifyInterface, before, after, Except.bind_error]

theorem verifyDefaults_eq (same : SameButOperands ctx ctx') (location : Location)
    (declarations : List ParamDecl) :
    ctx'.verifyDefaults location declarations = ctx.verifyDefaults location declarations := by
  induction declarations with
  | nil => rfl
  | cons d rest ih => simp only [verifyDefaults, verifyDefault, defaultScope, same.types, ih]

/-- The check of a kind by itself does not look at operands. -/
theorem verifyAs_eq (same : SameButOperands ctx ctx') (before : ctx.operation op = .ok o)
    (kind : OpKind) : ctx'.verifyAs kind op = ctx.verifyAs kind op := by
  obtain ⟨operands, after⟩ := same.exists_operation before
  cases kind with
  | module => rfl
  | hwModule =>
    show ctx'.verifyHwModule op = ctx.verifyHwModule op
    simp only [verifyHwModule, before, after, same.verifyDefaults_eq]
    rfl
  | constant =>
    show liftM (ctx'.verifyConstant op) = liftM (ctx.verifyConstant op)
    simp only [verifyConstant, literal?, soleResultType, before, after, Except.bind_ok,
      same.types]
  | paramValue =>
    show ctx'.verifyParamValue op = ctx.verifyParamValue op
    simp only [verifyParamValue, before, after, same.enclosing_eq, same.parameters_eq, scope,
      same.types]
    rfl
  | arc index =>
    show liftM (ctx'.verifyCatalogued op _) = liftM (ctx.verifyCatalogued op _)
    simp only [verifyCatalogued, before, after, Except.bind_ok]

end SameButOperands

/-! ## Verdicts -/

/-- An operation has no operands if it is of a kind that is to have none. -/
def SparesOperands (ctx : Context) (op : OpRef) : Prop :=
  ∀ kind, ctx.kindOf op = .ok kind → .zeroOperand ∈ kind.interfaces →
    ∀ o, ctx.operation op = .ok o → o.operands = []

theorem Passes.sparesOperands (passes : ctx.Passes op) : ctx.SparesOperands op := by
  obtain ⟨kind, known, shaped, -⟩ := passes
  intro kind' known' demanded o live
  cases known.symm.trans known'
  exact (verifyInterface_zeroOperand_iff live).mp (shaped _ demanded)

namespace SameButOperands

/-- An operation that passes does so with other operands, if it may have them. -/
theorem passes_iff (same : SameButOperands ctx ctx') (wf : ctx.WellFormed)
    (live : ctx.Live (.operation op)) (passes : ctx.Passes op) :
    ctx'.Passes op ↔ ctx'.SparesOperands op := by
  refine ⟨Passes.sparesOperands, fun spares => ?_⟩
  obtain ⟨o, live⟩ := live
  obtain ⟨kind, known, shaped, passed⟩ := passes
  have known' := (same.kindOf_eq op).trans known
  refine ⟨kind, known', fun interface mem => ?_, (same.verifyAs_eq live kind).symm ▸ passed⟩
  by_cases demanded : interface = .zeroOperand
  · subst demanded
    obtain ⟨operands, live'⟩ := same.exists_operation live
    exact (verifyInterface_zeroOperand_iff live').mpr (spares kind known' mem _ live')
  · rw [same.verifyInterface_eq wf op demanded]
    exact shaped interface mem

/-- A tree that passes does so with other operands, where there may be operands. -/
theorem verify_iff (same : SameButOperands ctx ctx') (wf : ctx.WellFormed) {root : OpRef}
    (passed : (ctx.verify (.operation root)).result = .ok ()) :
    (ctx'.verify (.operation root)).result = .ok () ↔
      ∀ p, ReflTransGen ctx.Holds (.operation root) (.operation p) → ctx'.SparesOperands p := by
  obtain ⟨live, acyclic, passes⟩ := wf.verify_eq_ok_iff.mp passed
  have each : ∀ p, ReflTransGen ctx.Holds (.operation root) (.operation p) →
      (ctx'.Passes p ↔ ctx'.SparesOperands p) := fun p below =>
    same.passes_iff wf (wf.live_of_below live below) (passes p below)
  rw [(wf.of_sameShape same.sameShape).verify_eq_ok_iff, same.holds_iff]
  constructor
  · rintro ⟨-, -, passes'⟩ p below
    exact (each p below).mp (passes' p below)
  · obtain ⟨o, live⟩ := live
    obtain ⟨operands, live'⟩ := same.exists_operation live
    exact fun spares => ⟨⟨_, live'⟩, acyclic, fun p below => (each p below).mpr (spares p below)⟩

end SameButOperands

end Context

end HardwareIR
