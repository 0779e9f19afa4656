import HardwareIR.Proofs.Context.Creation
import HardwareIR.Proofs.Context.Frame
import HardwareIR.Proofs.Materialization.Decision

/-! # What a materialization does

A plan that makes an operation is carried out in two steps: the operation is made, and then it is
inserted.  Where both succeed, `Context.Inserted` says what is different afterwards, and that
nothing else is.  The second step fails for nothing but a freed block, and then the operation of the
first one is left in no block (`Context.Strands`).
-/

namespace HardwareIR

/-- The operation that a plan makes, in no block. -/
def Plan.operation? (type : TypeRef) (location : Location) : Plan → Option Operation
  | .decline => none
  | .constant literalType literal =>
    some (Context.constantOperation type literalType literal location)
  | .paramValue value => some (Context.paramValueOperation type value location)

theorem Plan.regions_of_operation? {plan : Plan} {type : TypeRef} {location : Location}
    {o : Operation} (makes : plan.operation? type location = some o) : o.regions = [] := by
  cases plan with
  | decline => cases makes
  | constant literalType literal =>
    cases makes
    rfl
  | paramValue value =>
    cases makes
    rfl

namespace Context

variable {ctx ctx' between : Context} {point : InsertionPoint} {op : OpRef} {o : Operation}
  {b : BlockRef} {value : Attribute} {type : TypeRef} {location : Location} {plan : Plan}

/-! ## Carrying out a plan -/

theorem carryOut_of_none (nothing : plan.operation? type location = none) :
    ctx.carryOut point type location plan = (ctx, .ok none) := by
  cases plan with
  | decline => rfl
  | constant literalType literal => cases nothing
  | paramValue value => cases nothing

/-- What makes an operation makes it first, without regions, and then places it. -/
theorem exists_carryOut (ctx : Context) (point : InsertionPoint)
    (makes : plan.operation? type location = some o) :
    ∃ op between, OperationAdded ctx between op o ∧ o.regions = [] ∧
      ctx.carryOut point type location plan = between.place point op := by
  cases plan with
  | decline => cases makes
  | constant literalType literal =>
    cases makes
    exact ⟨_, _, ctx.newConstant_added type literalType literal location, rfl, rfl⟩
  | paramValue value =>
    cases makes
    exact ⟨_, _, ctx.newParamValue_added type value location, rfl, rfl⟩

/-- What gives an operation has made and inserted it. -/
theorem exists_insert_of_made
    (made : (ctx.carryOut point type location plan).2 = .ok (some op)) :
    ∃ o between ctx', plan.operation? type location = some o ∧
      OperationAdded ctx between op o ∧ o.regions = [] ∧ point.insert between op = .ok ctx' ∧
      (ctx.carryOut point type location plan).1 = ctx' := by
  cases makes : plan.operation? type location with
  | none =>
    rw [carryOut_of_none makes] at made
    cases made
  | some o =>
    obtain ⟨op', between, added, plain, placed⟩ := ctx.exists_carryOut point makes
    rw [placed] at made ⊢
    unfold place at made ⊢
    cases inserted : point.insert between op' with
    | error fault =>
      rw [inserted] at made
      cases made
    | ok ctx' =>
      rw [inserted] at made
      cases made
      exact ⟨o, between, ctx', rfl, added, plain, inserted, rfl⟩

theorem materializeArc_of_plan (decided : (ctx.plan point value type).result = .ok plan) :
    ctx.materializeArc point value type location =
      { context := (ctx.carryOut point type location plan).1
        point
        outcome :=
          ⟨(ctx.carryOut point type location plan).2, (ctx.plan point value type).log⟩ } := by
  simp only [materializeArc, decided]

theorem materializeArc_of_error {fault : Fault}
    (failed : (ctx.plan point value type).result = .error fault) :
    ctx.materializeArc point value type location =
      { context := ctx, point, outcome := ⟨.error fault, (ctx.plan point value type).log⟩ } := by
  simp only [materializeArc, failed]

theorem materialize_of_hooked {dialect : Identifier}
    (hooked : (ctx.registry.dialects.get? dialect).bind Dialect.materializer = some .arc) :
    ctx.materialize dialect point value type location =
      ctx.materializeArc point value type location := by
  simp only [materialize, hooked]

theorem materialize_of_not_hooked {dialect : Identifier}
    (other : (ctx.registry.dialects.get? dialect).bind Dialect.materializer ≠ some .arc) :
    ctx.materialize dialect point value type location =
      { context := ctx, point, outcome := pure none } := by
  unfold materialize
  split
  next arc => exact absurd arc other
  next => rfl

/-- Where an operation was made, the arc dialect made it. -/
theorem materialize_of_made {dialect : Identifier}
    (made : (ctx.materialize dialect point value type location).outcome.result = .ok (some op)) :
    ctx.materialize dialect point value type location =
      ctx.materializeArc point value type location := by
  by_cases hooked : (ctx.registry.dialects.get? dialect).bind Dialect.materializer = some .arc
  · exact materialize_of_hooked hooked
  · rw [materialize_of_not_hooked hooked] at made
    cases made

theorem materialize_point (ctx : Context) (dialect : Identifier) :
    (ctx.materialize dialect point value type location).point = point := by
  by_cases hooked : (ctx.registry.dialects.get? dialect).bind Dialect.materializer = some .arc
  · rw [materialize_of_hooked hooked]
    cases decided : (ctx.plan point value type).result with
    | ok plan => rw [materializeArc_of_plan decided]
    | error fault => rw [materializeArc_of_error decided]
  · rw [materialize_of_not_hooked hooked]

/-! ## Well-formedness -/

theorem WellFormed.insert (wf : ctx.WellFormed) (inserted : point.insert ctx op = .ok ctx') :
    ctx'.WellFormed := by
  obtain ⟨place, -, linked⟩ := InsertionPoint.insert_eq_ok.mp inserted
  exact wf.link linked

theorem WellFormed.place (wf : ctx.WellFormed) (point : InsertionPoint) (op : OpRef) :
    (ctx.place point op).1.WellFormed := by
  unfold Context.place
  cases inserted : point.insert ctx op with
  | ok ctx' => exact wf.insert inserted
  | error fault => exact wf

theorem WellFormed.carryOut (wf : ctx.WellFormed) (point : InsertionPoint) (type : TypeRef)
    (location : Location) (plan : Plan) :
    (ctx.carryOut point type location plan).1.WellFormed := by
  cases makes : plan.operation? type location with
  | none =>
    rw [carryOut_of_none makes]
    exact wf
  | some o =>
    obtain ⟨op, between, added, -, same⟩ := ctx.exists_carryOut point makes
    rw [same]
    exact (wf.of_grown added.grown).place point op

theorem WellFormed.materialize (wf : ctx.WellFormed) (dialect : Identifier)
    (point : InsertionPoint) (value : Attribute) (type : TypeRef) (location : Location) :
    (ctx.materialize dialect point value type location).context.WellFormed := by
  by_cases hooked : (ctx.registry.dialects.get? dialect).bind Dialect.materializer = some .arc
  · rw [materialize_of_hooked hooked]
    cases decided : (ctx.plan point value type).result with
    | ok plan =>
      rw [materializeArc_of_plan decided]
      exact wf.carryOut point type location plan
    | error fault =>
      rw [materializeArc_of_error decided]
      exact wf
  · rw [materialize_of_not_hooked hooked]
    exact wf

/-! ## A new operation in a list -/

/-- There is a new operation `o` at an insertion point, and nothing else is different. -/
structure Inserted (ctx ctx' : Context) (point : InsertionPoint) (op : OpRef) (o : Operation) :
    Prop where
  fresh : ctx.operation op = Misuse.freed.throw
  /-- The list of one block is the old one with the operation at the place of the point, and the
  lists of all other blocks are the old ones. -/
  list : ∃ b place ys zs, point.block? ctx = .ok (some b) ∧ point.place? = some place ∧
    place.Splits b ys zs ∧ ctx.members .ops b = .ok (ys ++ zs) ∧
    ctx'.members .ops b = .ok (ys ++ op :: zs) ∧
    ctx'.operation op = .ok { o with links := ⟨ys.getLast?, zs.head?, some b⟩ } ∧
    ∀ b', b' ≠ b → ctx'.members .ops b' = ctx.members .ops b'
  operations : ∀ op', op' ≠ op →
    (ctx'.operation op').map Operation.contents = (ctx.operation op').map Operation.contents
  blocks : ∀ b, (ctx'.block b).map Block.contents = (ctx.block b).map Block.contents
  blockLinks : ∀ b, (ctx'.block b).map Block.links = (ctx.block b).map Block.links
  blockLists : ∀ r, ctx'.members .blocks r = ctx.members .blocks r
  regions : ∀ r, ctx'.region r = ctx.region r
  types : ctx'.types = ctx.types
  registry : ctx'.registry = ctx.registry

theorem OperationAdded.ends (added : OperationAdded ctx between op o) (plain : o.regions = [])
    (l : Level) (c : Handle l.container) : between.ends l c = ctx.ends l c := by
  cases l with
  | ops => simp only [ends_ops, Context.block, added.blocks]
  | blocks =>
    have outside : c ∉ o.regions := by
      rw [plain]
      exact List.not_mem_nil
    rw [ends_blocks, ends_blocks, added.region, if_neg outside]

/-- Lists do not change by a new operation outside of them. -/
theorem OperationAdded.members (added : OperationAdded ctx between op o) (wf : ctx.WellFormed)
    (plain : o.regions = []) (l : Level) (c : Handle l.container) :
    between.members l c = ctx.members l c :=
  wf.members_congr (added.ends plain l c) fun _ listed => added.grown.listed listed

/-- A new operation gives no block to a point. -/
theorem OperationAdded.block?_iff (added : OperationAdded ctx between op o) :
    point.block? between = .ok (some b) ↔ point.block? ctx = .ok (some b) := by
  have marked : ∀ mark, (InsertionPoint.after mark).block? between = .ok (some b) ↔
      (InsertionPoint.after mark).block? ctx = .ok (some b) := by
    intro mark
    simp only [InsertionPoint.block?, added.operation mark]
    by_cases new : mark = op
    · rw [if_pos new, new, added.fresh]
      simp [added.free, Misuse.throw]
    · rw [if_neg new]
  cases point with
  | unset => rfl
  | blockStart b' => rfl
  | blockEnd b' => rfl
  | after mark => exact marked mark
  | before mark => exact marked mark

theorem region_splice_ops (ctx : Context) (op : OpRef) (b : BlockRef) (prev next : Option OpRef)
    (r : RegionRef) : (ctx.splice .ops op b prev next).region r = ctx.region r := by
  cases prev <;> cases next <;> rfl

/-- A new operation without regions that is then inserted is all that there is new. -/
theorem WellFormed.inserted_of_insert (wf : ctx.WellFormed)
    (added : OperationAdded ctx between op o) (plain : o.regions = [])
    (inserted : point.insert between op = .ok ctx') : Inserted ctx ctx' point op o := by
  have wf' := wf.of_grown added.grown
  obtain ⟨b, place, ys, zs, block, at_place, splits, listed, free, rfl⟩ :=
    wf'.insert_eq_splice inserted
  have contents := splice_sameContents between .ops op b ys.getLast? zs.head?
  constructor
  case fresh => exact added.fresh
  case list =>
    refine ⟨b, place, ys, zs, added.block?_iff.mp block, at_place, splits, ?_, ?_, ?_, ?_⟩
    · rw [← added.members wf plain]
      exact listed.members
    · exact (wf'.members_splice free listed b).trans (if_pos rfl)
    · obtain ⟨o', live, same⟩ := operation_of_links (links_splice_self free)
      obtain ⟨o₀, live₀, kept⟩ := contents.operation_eq_ok live
      rw [added.operation, if_pos rfl] at live₀
      cases live₀
      rw [live, Operation.eq_of_contents kept, same]
    · intro b' other
      rw [wf'.members_splice free listed b', if_neg other]
      exact added.members wf plain .ops b'
  case operations =>
    intro op' other
    rw [contents.operation, added.operation, if_neg other]
  case blocks =>
    intro b'
    rw [contents.block, Context.block, Context.block, added.blocks]
  case blockLinks =>
    intro b'
    have beside := splice_beside between .ops op b ys.getLast? zs.head?
    have same := beside.links .blocks (by decide) b'
    rw [links_blocks, links_blocks] at same
    rw [same, Context.block, Context.block, added.blocks]
  case blockLists =>
    intro r
    rw [wf'.members_splice_beside (by decide)]
    exact added.members wf plain .blocks r
  case regions =>
    intro r
    have outside : r ∉ o.regions := by
      rw [plain]
      exact List.not_mem_nil
    rw [region_splice_ops, added.region, if_neg outside]
  case types => exact contents.types.trans added.types
  case registry => exact contents.registry.trans added.registry

/-- What the arc dialect makes is made according to a plan, and is all that there is new. -/
theorem WellFormed.inserted_of_made (wf : ctx.WellFormed)
    (made : (ctx.materializeArc point value type location).outcome.result = .ok (some op)) :
    ∃ plan o, (ctx.plan point value type).result = .ok plan ∧
      plan.operation? type location = some o ∧
      Inserted ctx (ctx.materializeArc point value type location).context point op o := by
  cases decided : (ctx.plan point value type).result with
  | error fault =>
    rw [materializeArc_of_error decided] at made
    cases made
  | ok plan =>
    rw [materializeArc_of_plan decided] at made ⊢
    obtain ⟨o, between, ctx', makes, added, plain, inserted, same⟩ := exists_insert_of_made made
    refine ⟨plan, o, rfl, makes, ?_⟩
    rw [same]
    exact wf.inserted_of_insert added plain inserted

/-- What the arc dialect makes is an integer constant that was wanted, or what the innermost
hardware module around accepts as a parameter value. -/
theorem WellFormed.made_cases (wf : ctx.WellFormed)
    (made : (ctx.materializeArc point value type location).outcome.result = .ok (some op)) :
    let after := (ctx.materializeArc point value type location).context
    (∃ literalType literal, value = .integer literalType literal ∧ ctx.WantsConstant value type ∧
      Inserted ctx after point op (constantOperation type literalType literal location)) ∨
    (∃ b hwModule, point.block? ctx = .ok (some b) ∧ ctx.InnermostModule b (some hwModule) ∧
      ctx.Accepts hwModule value ∧
      Inserted ctx after point op (paramValueOperation type value location)) := by
  obtain ⟨plan, o, decided, makes, inserted⟩ := wf.inserted_of_made made
  obtain ⟨b, block, decidedIn⟩ := block_of_plan decided (by rintro rfl; cases makes)
  cases plan with
  | decline => cases makes
  | constant literalType literal =>
    cases makes
    obtain ⟨wanted, same⟩ := planIn_eq_constant decidedIn
    exact .inl ⟨literalType, literal, same, wanted, inserted⟩
  | paramValue value' =>
    cases makes
    obtain ⟨rfl, hwModule, inner, accepted⟩ := planIn_eq_paramValue decidedIn
    exact .inr ⟨b, hwModule, block, inner, accepted, inserted⟩

/-! ## A new operation in no list -/

theorem block_of_freed (freed : ¬ ctx.Live (.block b)) : ctx.block b = Misuse.freed.throw := by
  cases found : ctx.blocks.get? b with
  | none => simp only [Context.block, found]
  | some content => exact absurd ⟨content, block_eq_ok.mpr found⟩ freed

/-- A new operation can be inserted into every block that was live before. -/
theorem WellFormed.exists_insert_added (wf : ctx.WellFormed)
    (added : OperationAdded ctx between op o) (block : point.block? ctx = .ok (some b))
    (live : ctx.Live (.block b)) : ∃ ctx', point.insert between op = .ok ctx' := by
  have free : between.links .ops op = .ok {} := by
    rw [links_of_operation added.live, added.free]
  have live' : between.Live (.block b) := by
    obtain ⟨content, found⟩ := live
    refine ⟨content, ?_⟩
    rw [block_eq_ok] at found ⊢
    rwa [added.blocks]
  exact (wf.of_grown added.grown).exists_insert free (added.block?_iff.mpr block) live'

theorem insert_of_freed (freed : ¬ ctx.Live (.block b))
    (names : point = .blockStart b ∨ point = .blockEnd b) :
    point.insert ctx op = Misuse.freed.throw := by
  have stale : ctx.ends .ops b = Misuse.freed.throw := by
    rw [ends_ops, block_of_freed freed]
    rfl
  rcases names with rfl | rfl
  · simp only [InsertionPoint.insert, pushFront, stale, Misuse.throw, Except.bind_error]
  · simp only [InsertionPoint.insert, pushBack, stale, Misuse.throw, Except.bind_error]

/-- An integer constant is wanted at an end of a freed block.  That the block is freed is found out
only when the operation is there. -/
structure Strands (ctx : Context) (dialect : Identifier) (point : InsertionPoint)
    (value : Attribute) (type : TypeRef) : Prop where
  hooked : (ctx.registry.dialects.get? dialect).bind Dialect.materializer = some .arc
  freed : ∃ b, (point = .blockStart b ∨ point = .blockEnd b) ∧ ¬ ctx.Live (.block b)
  wanted : ctx.WantsConstant value type

/-- A stranded constant is left in no block. -/
theorem Sound.materialize_of_strands (sound : ctx.Sound)
    (has : ∀ ty ∈ value.typeRefs, ctx.types.Has ty) {dialect : Identifier}
    (strands : ctx.Strands dialect point value type) (location : Location) :
    (ctx.materialize dialect point value type location).outcome.result = Misuse.freed.throw ∧
      ∃ op literalType literal, value = .integer literalType literal ∧
        OperationAdded ctx (ctx.materialize dialect point value type location).context op
          (constantOperation type literalType literal location) := by
  obtain ⟨hooked, ⟨b, names, freed⟩, wanted⟩ := strands
  obtain ⟨literalType, literal, same⟩ := wanted.2
  have block : point.block? ctx = .ok (some b) := by
    rcases names with rfl | rfl <;> rfl
  have decided := sound.plan_of_wanted has block wanted same
  have makes : (Plan.constant literalType literal).operation? type location =
      some (constantOperation type literalType literal location) := rfl
  obtain ⟨op, between, added, -, placed⟩ := ctx.exists_carryOut point makes
  have freed' : ¬ between.Live (.block b) := by
    rintro ⟨content, found⟩
    rw [block_eq_ok, added.blocks] at found
    exact freed ⟨content, block_eq_ok.mpr found⟩
  have failed : between.place point op = (between, Misuse.freed.throw) := by
    simp only [Context.place, insert_of_freed freed' names, Misuse.throw]
  rw [materialize_of_hooked hooked, materializeArc_of_plan decided, placed, failed]
  exact ⟨rfl, op, literalType, literal, same, added⟩

/-- Where no constant is stranded, nothing happens unless an operation is made. -/
theorem WellFormed.materialize_of_not_strands (wf : ctx.WellFormed) {dialect : Identifier}
    (other : ¬ ctx.Strands dialect point value type)
    (failed : ∀ op, (ctx.materialize dialect point value type location).outcome.result ≠
      .ok (some op)) :
    (ctx.materialize dialect point value type location).context = ctx := by
  by_cases hooked : (ctx.registry.dialects.get? dialect).bind Dialect.materializer = some .arc
  · rw [materialize_of_hooked hooked] at failed ⊢
    cases decided : (ctx.plan point value type).result with
    | error fault => rw [materializeArc_of_error decided]
    | ok plan =>
      rw [materializeArc_of_plan decided] at failed ⊢
      cases makes : plan.operation? type location with
      | none => rw [carryOut_of_none makes]
      | some o =>
        -- There is an operation now, so it must have been impossible to insert it.
        exfalso
        obtain ⟨op, between, added, -, placed⟩ := ctx.exists_carryOut point makes
        obtain ⟨b, block, decided'⟩ := block_of_plan decided (by rintro rfl; cases makes)
        have freed : ¬ ctx.Live (.block b) := by
          intro live
          obtain ⟨ctx', inserted⟩ := wf.exists_insert_added added block live
          refine failed op ?_
          simp only [placed, Context.place, inserted]
        rcases wanted_or_live_of_planIn decided' with wanted | live
        · have names := (wf.live_of_block? block).resolve_left freed
          exact other ⟨hooked, ⟨b, names, freed⟩, wanted⟩
        · exact freed live
  · rw [materialize_of_not_hooked hooked]

end Context

end HardwareIR
