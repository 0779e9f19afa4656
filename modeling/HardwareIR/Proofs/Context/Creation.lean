import HardwareIR.Context.Creation
import HardwareIR.Proofs.Context.Edit

/-! # New objects in well-formed contexts

New handles were stale before, new objects stand outside of all lists, and new regions belong to
the operation that is made with them.  Such growth keeps a context well-formed
(`Context.WellFormed.of_grown`).

Making an operation with bodies always succeeds: the bodies are new, and the regions that they are
put into are live.
-/

namespace HardwareIR

namespace Context

variable {ctx ctx' : Context}

/-! ## Growth -/

/-- There are new objects: nodes in no list, containers with an empty list, and operations that own
the new regions.  All others are where they were. -/
structure Grown (ctx ctx' : Context) : Prop where
  links : ∀ (l : Level) (x : Handle l.node), ctx'.links l x = ctx.links l x ∨
    (∀ k, ctx.links l x ≠ .ok k) ∧ ctx'.links l x = .ok {}
  ends : ∀ (l : Level) (c : Handle l.container), ctx'.ends l c = ctx.ends l c ∨
    (∀ e, ctx.ends l c ≠ .ok e) ∧ ctx'.ends l c = .ok {}
  regions : ∀ op, ctx'.regionsOf op = ctx.regionsOf op ∨
    (∀ rs, ctx.regionsOf op ≠ .ok rs) ∧
      ∃ rs, ctx'.regionsOf op = .ok rs ∧ rs.Nodup ∧ ∀ r ∈ rs, ctx'.ownerOf r = .ok op
  owner : ∀ r, ctx'.ownerOf r = ctx.ownerOf r ∨
    (∀ op, ctx.ownerOf r ≠ .ok op) ∧
      ∃ op rs, ctx'.ownerOf r = .ok op ∧ ctx'.regionsOf op = .ok rs ∧ r ∈ rs

theorem Grown.listed (grown : Grown ctx ctx') {l : Level} {c : Handle l.container}
    {xs : List (Handle l.node)} (listed : ctx.Listed l c xs) : ctx'.Listed l c xs := by
  refine listed.congr ?_ fun x mem => ?_
  · rcases grown.ends l c with same | ⟨stale, -⟩
    · exact same
    · exact absurd listed.ends (stale _)
  · rcases grown.links l x with same | ⟨stale, -⟩
    · exact same
    · obtain ⟨k, live, -⟩ := listed.container_of_mem mem
      exact absurd live (stale k)

theorem WellFormed.of_grown (wf : ctx.WellFormed) (grown : Grown ctx ctx') : ctx'.WellFormed := by
  constructor
  · intro l c e live
    rcases grown.ends l c with same | ⟨-, empty⟩
    · rw [same] at live
      obtain ⟨xs, listed⟩ := wf.listed live
      exact ⟨xs, grown.listed listed⟩
    · -- A new container is empty.
      exact ⟨[], empty, fun ys x zs split => by simp at split, List.nodup_nil⟩
  · intro l x k c live container
    rcases grown.links l x with same | ⟨-, free⟩
    · rw [same] at live
      obtain ⟨xs, listed, mem⟩ := wf.linked live container
      exact ⟨xs, grown.listed listed, mem⟩
    · -- A new node has no container.
      rw [free] at live
      cases live
      cases container
  · intro l x k live container
    rcases grown.links l x with same | ⟨-, free⟩
    · rw [same] at live
      exact wf.unlinked live container
    · rw [free] at live
      exact (Except.ok.inj live).symm
  · intro op rs live
    rcases grown.regions op with same | ⟨-, rs', new, nodup, owned⟩
    · rw [same] at live
      obtain ⟨nodup, owned⟩ := wf.regions live
      refine ⟨nodup, fun r mem => ?_⟩
      rcases grown.owner r with same | ⟨stale, -⟩
      · exact same.trans (owned r mem)
      · exact absurd (owned r mem) (stale op)
    · obtain rfl := Except.ok.inj (live.symm.trans new)
      exact ⟨nodup, owned⟩
  · intro r op live
    rcases grown.owner r with same | ⟨-, op', rs, owner, listed, mem⟩
    · rw [same] at live
      obtain ⟨rs, listed, mem⟩ := wf.owner live
      refine ⟨rs, ?_, mem⟩
      rcases grown.regions op with same | ⟨stale, -⟩
      · exact same.trans listed
      · exact absurd listed (stale rs)
    · obtain rfl := Except.ok.inj (live.symm.trans owner)
      exact ⟨rs, listed, mem⟩

/-! ## Blocks -/

theorem newBlock_fresh (ctx : Context) (label : Option Identifier) (argumentTypes : List TypeRef) :
    ctx.block (ctx.newBlock label argumentTypes).1 = Misuse.freed.throw := by
  simp only [newBlock, block, Arena.get?_insert_fresh]

theorem block_newBlock (ctx : Context) (label : Option Identifier) (argumentTypes : List TypeRef)
    (b : BlockRef) :
    (ctx.newBlock label argumentTypes).2.block b =
      if b = (ctx.newBlock label argumentTypes).1 then
        .ok { label, argumentTypes, ends := {}, links := {} }
      else ctx.block b := by
  have found := ctx.blocks.get?_insert { label, argumentTypes, ends := {}, links := {} } b
  by_cases same : b = (ctx.newBlock label argumentTypes).1
  · rw [if_pos same]
    exact block_eq_ok.mpr (found.trans (if_pos same))
  · rw [if_neg same]
    have untouched : (ctx.newBlock label argumentTypes).2.blocks.get? b = ctx.blocks.get? b :=
      found.trans (if_neg same)
    simp only [block, untouched]

theorem newBlock_grown (ctx : Context) (label : Option Identifier) (argumentTypes : List TypeRef) :
    Grown ctx (ctx.newBlock label argumentTypes).2 where
  links l x := by
    cases l with
    | ops => exact .inl rfl
    | blocks =>
      rw [links_blocks, links_blocks, block_newBlock]
      by_cases same : x = (ctx.newBlock label argumentTypes).1
      · rw [if_pos same, same, newBlock_fresh]
        exact .inr ⟨fun _ live => (by cases live), rfl⟩
      · rw [if_neg same]
        exact .inl rfl
  ends l c := by
    cases l with
    | ops =>
      rw [ends_ops, ends_ops, block_newBlock]
      by_cases same : c = (ctx.newBlock label argumentTypes).1
      · rw [if_pos same, same, newBlock_fresh]
        exact .inr ⟨fun _ live => (by cases live), rfl⟩
      · rw [if_neg same]
        exact .inl rfl
    | blocks => exact .inl rfl
  regions _ := .inl rfl
  owner _ := .inl rfl

/-! ## Regions -/

/-- There are new regions for an operation, and nothing else is different. -/
structure RegionsAdded (ctx ctx' : Context) (owner : OpRef) (rs : List RegionRef) : Prop where
  nodup : rs.Nodup
  fresh : ∀ r ∈ rs, ctx.region r = Misuse.freed.throw
  region : ∀ r, ctx'.region r = if r ∈ rs then .ok { ends := {}, owner } else ctx.region r
  operations : ctx'.operations = ctx.operations
  blocks : ctx'.blocks = ctx.blocks
  types : ctx'.types = ctx.types
  registry : ctx'.registry = ctx.registry

theorem RegionsAdded.append {between : Context} {owner : OpRef} {rs rs' : List RegionRef}
    (first : RegionsAdded ctx between owner rs) (second : RegionsAdded between ctx' owner rs') :
    RegionsAdded ctx ctx' owner (rs ++ rs') := by
  have stale : ∀ r ∈ rs', r ∉ rs ∧ ctx.region r = Misuse.freed.throw := by
    intro r later
    have gone := second.fresh r later
    rw [first.region] at gone
    by_cases earlier : r ∈ rs
    · rw [if_pos earlier] at gone
      cases gone
    · rw [if_neg earlier] at gone
      exact ⟨earlier, gone⟩
  constructor
  case nodup =>
    refine List.nodup_append.mpr ⟨first.nodup, second.nodup, ?_⟩
    rintro r earlier _ later rfl
    exact (stale r later).1 earlier
  case fresh =>
    intro r mem
    rcases List.mem_append.mp mem with earlier | later
    · exact first.fresh r earlier
    · exact (stale r later).2
  case region =>
    intro r
    rw [second.region, first.region]
    by_cases later : r ∈ rs'
    · rw [if_pos later, if_pos (List.mem_append_right rs later)]
    · by_cases earlier : r ∈ rs
      · rw [if_neg later, if_pos earlier, if_pos (List.mem_append_left rs' earlier)]
      · have outside : r ∉ rs ++ rs' := fun mem => (List.mem_append.mp mem).elim earlier later
        rw [if_neg later, if_neg earlier, if_neg outside]
  case operations => exact second.operations.trans first.operations
  case blocks => exact second.blocks.trans first.blocks
  case types => exact second.types.trans first.types
  case registry => exact second.registry.trans first.registry

theorem region_added (ctx : Context) (owner : OpRef) :
    RegionsAdded ctx { ctx with regions := (ctx.regions.insert .region { ends := {}, owner }).2 }
      owner [(ctx.regions.insert .region { ends := {}, owner }).1] := by
  constructor
  case nodup => exact List.nodup_singleton _
  case fresh =>
    intro r mem
    obtain rfl := List.mem_singleton.mp mem
    simp only [Context.region, Arena.get?_insert_fresh]
  case region =>
    intro r
    have found := ctx.regions.get?_insert { ends := {}, owner } r
    by_cases new : r = (ctx.regions.insert .region { ends := {}, owner }).1
    · rw [if_pos new] at found
      rw [if_pos (List.mem_singleton.mpr new)]
      exact region_eq_ok.mpr found
    · rw [if_neg new] at found
      rw [if_neg fun mem => new (List.mem_singleton.mp mem)]
      simp only [Context.region, found]
  case operations => rfl
  case blocks => rfl
  case types => rfl
  case registry => rfl

theorem newRegions_added (ctx : Context) (owner : OpRef) (count : Nat) :
    RegionsAdded ctx (ctx.newRegions owner count).2 owner (ctx.newRegions owner count).1 := by
  induction count generalizing ctx with
  | zero =>
    refine ⟨List.nodup_nil, ?_, fun _ => rfl, rfl, rfl, rfl, rfl⟩
    exact fun _ mem => absurd mem List.not_mem_nil
  | succ count ih => exact (ctx.region_added owner).append (ih _)

theorem length_newRegions (ctx : Context) (owner : OpRef) (count : Nat) :
    (ctx.newRegions owner count).1.length = count := by
  induction count generalizing ctx with
  | zero => rfl
  | succ count ih => exact congrArg (· + 1) (ih _)

/-! ## Operations -/

/-- There is a new operation `o` in no block, with regions of its own that are new and empty, and
nothing else is different. -/
structure OperationAdded (ctx ctx' : Context) (op : OpRef) (o : Operation) : Prop where
  free : o.links = {}
  fresh : ctx.operation op = Misuse.freed.throw
  operation : ∀ op', ctx'.operation op' = if op' = op then .ok o else ctx.operation op'
  nodup : o.regions.Nodup
  freshRegions : ∀ r ∈ o.regions, ctx.region r = Misuse.freed.throw
  region : ∀ r, ctx'.region r =
    if r ∈ o.regions then .ok { ends := {}, owner := op } else ctx.region r
  blocks : ctx'.blocks = ctx.blocks
  types : ctx'.types = ctx.types
  registry : ctx'.registry = ctx.registry

theorem newOperation_added (ctx : Context) (id : QualifiedName) (resultTypes : List TypeRef)
    (operands : List Value) (regionCount : Nat) (attributes : AttributeDict)
    (location : Location) :
    ∃ regions, regions.length = regionCount ∧ OperationAdded ctx
      (ctx.newOperation id resultTypes operands regionCount attributes location).2
      (ctx.newOperation id resultTypes operands regionCount attributes location).1
      { id, resultTypes, operands, regions, attributes, location, links := {} } := by
  let o : Operation :=
    { id, resultTypes, operands, regions := [], attributes, location, links := {} }
  let op := (ctx.operations.insert .operation o).1
  let between : Context := { ctx with operations := (ctx.operations.insert .operation o).2 }
  obtain ⟨nodup, fresh, region, operations, blocks, types, registry⟩ :=
    newRegions_added between op regionCount
  refine ⟨(between.newRegions op regionCount).1, between.length_newRegions op regionCount, rfl, ?_,
    ?_, nodup, fresh, region, blocks, types, registry⟩
  · change ctx.operation op = _
    simp only [Context.operation, op, Arena.get?_insert_fresh]
  · intro op'
    change ((between.newRegions op regionCount).2.modifyOperation op _).operation op' =
      if op' = op then _ else _
    have first : ∀ op', (between.newRegions op regionCount).2.operations.get? op' =
        if op' = op then some o else ctx.operations.get? op' := by
      intro op'
      rw [operations]
      exact ctx.operations.get?_insert o op'
    rw [operation_modifyOperation]
    by_cases same : op' = op
    · have live := operation_eq_ok.mpr ((first op).trans (if_pos rfl))
      rw [if_pos same, if_pos same, live]
      rfl
    · have untouched := (first op').trans (if_neg same)
      rw [if_neg same, if_neg same]
      simp only [Context.operation, untouched]

theorem OperationAdded.grown {op : OpRef} {o : Operation} (added : OperationAdded ctx ctx' op o) :
    Grown ctx ctx' where
  links l x := by
    cases l with
    | ops =>
      rw [links_ops, links_ops, added.operation]
      by_cases same : x = op
      · rw [if_pos same, same, added.fresh, Except.map_ok, added.free]
        exact .inr ⟨fun _ live => (by cases live), rfl⟩
      · rw [if_neg same]
        exact .inl rfl
    | blocks =>
      refine .inl ?_
      simp only [links_blocks, block, added.blocks]
  ends l c := by
    cases l with
    | ops =>
      refine .inl ?_
      simp only [ends_ops, block, added.blocks]
    | blocks =>
      rw [ends_blocks, ends_blocks, added.region]
      by_cases new : c ∈ o.regions
      · rw [if_pos new, added.freshRegions c new]
        exact .inr ⟨fun _ live => (by cases live), rfl⟩
      · rw [if_neg new]
        exact .inl rfl
  regions op' := by
    simp only [regionsOf, added.operation]
    by_cases same : op' = op
    · rw [if_pos same, same, added.fresh]
      refine .inr ⟨fun _ live => (by cases live), o.regions, rfl, added.nodup, fun r mem => ?_⟩
      rw [ownerOf, added.region, if_pos mem]
      rfl
    · rw [if_neg same]
      exact .inl rfl
  owner r := by
    simp only [ownerOf, added.region]
    by_cases new : r ∈ o.regions
    · rw [if_pos new, added.freshRegions r new]
      refine .inr ⟨fun _ live => (by cases live), op, o.regions, rfl, ?_, new⟩
      rw [regionsOf, added.operation, if_pos rfl]
      rfl
    · rw [if_neg new]
      exact .inl rfl

theorem OperationAdded.live {op : OpRef} {o : Operation} (added : OperationAdded ctx ctx' op o) :
    ctx'.operation op = .ok o := by
  rw [added.operation, if_pos rfl]

theorem WellFormed.newBlock (wf : ctx.WellFormed) (label : Option Identifier)
    (argumentTypes : List TypeRef) : (ctx.newBlock label argumentTypes).2.WellFormed :=
  wf.of_grown (ctx.newBlock_grown label argumentTypes)

theorem WellFormed.newOperation (wf : ctx.WellFormed) (id : QualifiedName)
    (resultTypes : List TypeRef) (operands : List Value) (regionCount : Nat)
    (attributes : AttributeDict) (location : Location) :
    (ctx.newOperation id resultTypes operands regionCount attributes location).2.WellFormed := by
  obtain ⟨_, -, added⟩ :=
    ctx.newOperation_added id resultTypes operands regionCount attributes location
  exact wf.of_grown added.grown

/-- An operation without regions. -/
theorem newOperation_added_plain (ctx : Context) (id : QualifiedName) (resultTypes : List TypeRef)
    (operands : List Value) (attributes : AttributeDict) (location : Location) :
    OperationAdded ctx (ctx.newOperation id resultTypes operands 0 attributes location).2
      (ctx.newOperation id resultTypes operands 0 attributes location).1
      { id, resultTypes, operands, regions := [], attributes, location, links := {} } := by
  obtain ⟨regions, none, added⟩ :=
    ctx.newOperation_added id resultTypes operands 0 attributes location
  rwa [List.length_eq_zero_iff.mp none] at added

/-- The operation of an integer constant, in no block. -/
def constantOperation (type literalType : TypeRef) (literal : Literal) (location : Location) :
    Operation where
  id := OpKind.constant.id
  resultTypes := [type]
  operands := []
  regions := []
  attributes := SortedMap.insert ∅ AttributeDict.constantValue (.integer literalType literal)
  location
  links := {}

/-- The operation of a parameter valued constant, in no block. -/
def paramValueOperation (type : TypeRef) (value : Attribute) (location : Location) :
    Operation where
  id := OpKind.paramValue.id
  resultTypes := [type]
  operands := []
  regions := []
  attributes := SortedMap.insert ∅ AttributeDict.paramValue value
  location
  links := {}

theorem constantOperation_value (type literalType : TypeRef) (literal : Literal)
    (location : Location) :
    (constantOperation type literalType literal location).attributes.get?
      AttributeDict.constantValue = some (.integer literalType literal) := by
  rw [constantOperation, SortedMap.get?_insert, if_pos rfl]

theorem paramValueOperation_value (type : TypeRef) (value : Attribute) (location : Location) :
    (paramValueOperation type value location).attributes.get? AttributeDict.paramValue =
      some value := by
  rw [paramValueOperation, SortedMap.get?_insert, if_pos rfl]

/-- There is nothing but the value. -/
theorem paramValueOperation_attributes (type : TypeRef) (value : Attribute) (location : Location)
    {key : String} {stored : Attribute}
    (found : (paramValueOperation type value location).attributes.get? key = some stored) :
    key = AttributeDict.paramValue ∧ stored = value := by
  rw [paramValueOperation, SortedMap.get?_insert] at found
  by_cases same : key = AttributeDict.paramValue
  · rw [if_pos same] at found
    exact ⟨same, (Option.some.inj found).symm⟩
  · rw [if_neg same] at found
    cases found

theorem newConstant_added (ctx : Context) (type literalType : TypeRef) (literal : Literal)
    (location : Location) :
    OperationAdded ctx (ctx.newConstant type literalType literal location).2
      (ctx.newConstant type literalType literal location).1
      (constantOperation type literalType literal location) := by
  unfold newConstant constantOperation
  exact ctx.newOperation_added_plain _ _ _ _ _

theorem newParamValue_added (ctx : Context) (type : TypeRef) (value : Attribute)
    (location : Location) :
    OperationAdded ctx (ctx.newParamValue type value location).2
      (ctx.newParamValue type value location).1 (paramValueOperation type value location) := by
  unfold newParamValue paramValueOperation
  exact ctx.newOperation_added_plain _ _ _ _ _

/-! ## Bodies -/

/-- The operations, the types and what is known about dialects are the same. -/
structure SameOperations (ctx ctx' : Context) : Prop where
  operations : ctx'.operations = ctx.operations
  types : ctx'.types = ctx.types
  registry : ctx'.registry = ctx.registry

theorem SameOperations.trans {ctx'' : Context} (first : SameOperations ctx ctx')
    (second : SameOperations ctx' ctx'') : SameOperations ctx ctx'' where
  operations := second.operations.trans first.operations
  types := second.types.trans first.types
  registry := second.registry.trans first.registry

theorem splice_blocks_sameOperations (ctx : Context) (b : BlockRef) (r : RegionRef)
    (prev next : Option BlockRef) : SameOperations ctx (ctx.splice .blocks b r prev next) := by
  cases prev <;> cases next <;> exact ⟨rfl, rfl, rfl⟩

/-- A live region can be given a body. -/
theorem WellFormed.addBody (wf : ctx.WellFormed) {r : RegionRef} {e : Ends .blocks}
    (live : ctx.ends .blocks r = .ok e) :
    ∃ ctx', (ctx.newBlock none []).2.pushBack .blocks (ctx.newBlock none []).1 r = .ok ctx' ∧
      ctx'.WellFormed ∧ SameOperations ctx ctx' ∧
      ∀ r' e', ctx.ends .blocks r' = .ok e' → ∃ e'', ctx'.ends .blocks r' = .ok e'' := by
  obtain ⟨xs, before⟩ := wf.listed live
  have grown := ctx.newBlock_grown none []
  have wf' := wf.newBlock none []
  have free : (ctx.newBlock none []).2.links .blocks (ctx.newBlock none []).1 = .ok {} := by
    rw [links_blocks, block_newBlock, if_pos rfl]
    rfl
  have listed : (ctx.newBlock none []).2.Listed .blocks r (xs ++ []) := by
    rw [List.append_nil]
    exact grown.listed before
  have linked : (ctx.newBlock none []).2.link .blocks (ctx.newBlock none []).1 (.back r) = .ok _ :=
    (link_eq_ok wf').mpr ⟨free, r, xs, [], ⟨rfl, rfl⟩, listed, rfl⟩
  refine ⟨_, linked, wf'.link linked, ?_, ?_⟩
  · have same : SameOperations ctx (ctx.newBlock none []).2 := ⟨rfl, rfl, rfl⟩
    exact same.trans (splice_blocks_sameOperations _ _ _ _ _)
  · intro r' e' live'
    obtain ⟨xs', before'⟩ := wf.listed live'
    exact ⟨_, (WellFormed.listed_splice free listed (grown.listed before')).ends⟩

theorem WellFormed.addBodies {rs : List RegionRef} (wf : ctx.WellFormed)
    (live : ∀ r ∈ rs, ∃ e, ctx.ends .blocks r = .ok e) :
    ∃ ctx', ctx.addBodies rs = .ok ctx' ∧ ctx'.WellFormed ∧ SameOperations ctx ctx' := by
  induction rs generalizing ctx with
  | nil => exact ⟨ctx, rfl, wf, rfl, rfl, rfl⟩
  | cons r rs ih =>
    obtain ⟨e, first⟩ := live r List.mem_cons_self
    obtain ⟨between, pushed, wf', same, ends⟩ := wf.addBody first
    have rest : ∀ r' ∈ rs, ∃ e, between.ends .blocks r' = .ok e := by
      intro r' mem
      obtain ⟨e', live'⟩ := live r' (List.mem_cons_of_mem r mem)
      exact ends r' e' live'
    obtain ⟨ctx', added, wf'', same'⟩ := ih wf' rest
    refine ⟨ctx', ?_, wf'', same.trans same'⟩
    simp only [Context.addBodies, pushed, Except.bind_ok, added]

/-- Making an operation with bodies succeeds, and gives the operation that `newOperation` gives. -/
theorem WellFormed.newWithBodies (wf : ctx.WellFormed) (id : QualifiedName)
    (resultTypes : List TypeRef) (operands : List Value) (regionCount : Nat)
    (attributes : AttributeDict) :
    ∃ ctx', ctx.newWithBodies id resultTypes operands regionCount attributes =
        .ok ((ctx.newOperation id resultTypes operands regionCount attributes).1, ctx') ∧
      ctx'.WellFormed ∧
      SameOperations (ctx.newOperation id resultTypes operands regionCount attributes).2 ctx' := by
  obtain ⟨rs, -, added⟩ :=
    ctx.newOperation_added id resultTypes operands regionCount attributes .unknown
  have regions : ∀ r ∈ rs, ∃ e,
      (ctx.newOperation id resultTypes operands regionCount attributes).2.ends .blocks r =
        .ok e := by
    intro r mem
    rw [ends_blocks, added.region, if_pos mem]
    exact ⟨_, rfl⟩
  obtain ⟨ctx', done, wf', same⟩ := (wf.of_grown added.grown).addBodies regions
  refine ⟨ctx', ?_, wf', same⟩
  simp only [Context.newWithBodies, added.live, Except.bind_ok, done, Except.pure_eq_ok]

end Context

end HardwareIR
