import HardwareIR.Context.Tree
import HardwareIR.Proofs.Arena
import HardwareIR.Proofs.Except

/-! # The shape of a context

The shape of a context is what its objects say about their places: the links of operations and
blocks, the ends of lists, the regions that operations list, and the owners that regions name.
This module says what each primitive update does to these four, at either level of lists.

Two contexts of the same shape agree on everything that is said about lists and nesting
(`Context.SameShape`).
-/

namespace HardwareIR

namespace Context

variable (ctx : Context)

/-! ## Objects -/

variable {ctx} in
theorem operation_eq_ok {op : OpRef} {o : Operation} :
    ctx.operation op = .ok o ↔ ctx.operations.get? op = some o := by
  unfold operation
  cases ctx.operations.get? op <;> simp [Misuse.throw]

variable {ctx} in
theorem block_eq_ok {b : BlockRef} {content : Block} :
    ctx.block b = .ok content ↔ ctx.blocks.get? b = some content := by
  unfold block
  cases ctx.blocks.get? b <;> simp [Misuse.throw]

variable {ctx} in
theorem region_eq_ok {r : RegionRef} {content : Region} :
    ctx.region r = .ok content ↔ ctx.regions.get? r = some content := by
  unfold region
  cases ctx.regions.get? r <;> simp [Misuse.throw]

theorem operation_modifyOperation (op op' : OpRef) (f : Operation → Operation) :
    (ctx.modifyOperation op f).operation op' =
      if op' = op then (ctx.operation op).map f else ctx.operation op' := by
  simp only [operation, modifyOperation, Arena.get?_modify]
  by_cases same : op' = op
  · simp only [same, ↓reduceIte]
    cases ctx.operations.get? op <;> rfl
  · simp only [same, ↓reduceIte]

theorem block_modifyBlock (b b' : BlockRef) (f : Block → Block) :
    (ctx.modifyBlock b f).block b' = if b' = b then (ctx.block b).map f else ctx.block b' := by
  simp only [block, modifyBlock, Arena.get?_modify]
  by_cases same : b' = b
  · simp only [same, ↓reduceIte]
    cases ctx.blocks.get? b <;> rfl
  · simp only [same, ↓reduceIte]

theorem region_modifyRegion (r r' : RegionRef) (f : Region → Region) :
    (ctx.modifyRegion r f).region r' = if r' = r then (ctx.region r).map f else ctx.region r' := by
  simp only [region, modifyRegion, Arena.get?_modify]
  by_cases same : r' = r
  · simp only [same, ↓reduceIte]
    cases ctx.regions.get? r <;> rfl
  · simp only [same, ↓reduceIte]

/-! ## Places -/

/-- The regions that an operation lists. -/
def regionsOf (op : OpRef) : Except Fault (List RegionRef) :=
  (ctx.operation op).map Operation.regions

/-- The operation that a region was made for. -/
def ownerOf (r : RegionRef) : Except Fault OpRef :=
  (ctx.region r).map Region.owner

theorem links_ops (op : OpRef) : ctx.links .ops op = (ctx.operation op).map Operation.links := by
  simp only [links]
  cases ctx.operation op <;> rfl

theorem links_blocks (b : BlockRef) : ctx.links .blocks b = (ctx.block b).map Block.links := by
  simp only [links]
  cases ctx.block b <;> rfl

theorem ends_ops (b : BlockRef) : ctx.ends .ops b = (ctx.block b).map Block.ends := by
  simp only [ends]
  cases ctx.block b <;> rfl

theorem ends_blocks (r : RegionRef) : ctx.ends .blocks r = (ctx.region r).map Region.ends := by
  simp only [ends]
  cases ctx.region r <;> rfl

variable {ctx} in
theorem links_of_operation {op : OpRef} {o : Operation} (live : ctx.operation op = .ok o) :
    ctx.links .ops op = .ok o.links := by
  rw [links_ops, live, Except.map_ok]

variable {ctx} in
theorem operation_of_links {op : OpRef} {k : Links .ops} (links : ctx.links .ops op = .ok k) :
    ∃ o, ctx.operation op = .ok o ∧ o.links = k := by
  rwa [links_ops, Except.map_eq_ok] at links

variable {ctx} in
theorem links_of_block {b : BlockRef} {content : Block} (live : ctx.block b = .ok content) :
    ctx.links .blocks b = .ok content.links := by
  rw [links_blocks, live, Except.map_ok]

variable {ctx} in
theorem block_of_links {b : BlockRef} {k : Links .blocks} (links : ctx.links .blocks b = .ok k) :
    ∃ content, ctx.block b = .ok content ∧ content.links = k := by
  rwa [links_blocks, Except.map_eq_ok] at links

variable {ctx} in
theorem ends_of_block {b : BlockRef} {content : Block} (live : ctx.block b = .ok content) :
    ctx.ends .ops b = .ok content.ends := by
  rw [ends_ops, live, Except.map_ok]

variable {ctx} in
theorem block_of_ends {b : BlockRef} {e : Ends .ops} (ends : ctx.ends .ops b = .ok e) :
    ∃ content, ctx.block b = .ok content ∧ content.ends = e := by
  rwa [ends_ops, Except.map_eq_ok] at ends

variable {ctx} in
theorem ends_of_region {r : RegionRef} {content : Region} (live : ctx.region r = .ok content) :
    ctx.ends .blocks r = .ok content.ends := by
  rw [ends_blocks, live, Except.map_ok]

variable {ctx} in
theorem region_of_ends {r : RegionRef} {e : Ends .blocks} (ends : ctx.ends .blocks r = .ok e) :
    ∃ content, ctx.region r = .ok content ∧ content.ends = e := by
  rwa [ends_blocks, Except.map_eq_ok] at ends

variable {ctx} in
theorem regionsOf_of_operation {op : OpRef} {o : Operation} (live : ctx.operation op = .ok o) :
    ctx.regionsOf op = .ok o.regions := by
  rw [regionsOf, live, Except.map_ok]

variable {ctx} in
theorem ownerOf_of_region {r : RegionRef} {content : Region} (live : ctx.region r = .ok content) :
    ctx.ownerOf r = .ok content.owner := by
  rw [ownerOf, live, Except.map_ok]

/-! ## Updates of links and ends -/

theorem links_modifyLinks (l : Level) (x y : Handle l.node) (f : Links l → Links l) :
    (ctx.modifyLinks l x f).links l y = if y = x then (ctx.links l x).map f else ctx.links l y := by
  cases l with
  | ops =>
    simp only [modifyLinks, links_ops, operation_modifyOperation]
    split <;> simp only [Except.map_map]
  | blocks =>
    simp only [modifyLinks, links_blocks, block_modifyBlock]
    split <;> simp only [Except.map_map]

theorem links_modifyLinks_of_ne {l l' : Level} (other : l' ≠ l) (x : Handle l.node)
    (y : Handle l'.node) (f : Links l → Links l) :
    (ctx.modifyLinks l x f).links l' y = ctx.links l' y := by
  cases l <;> cases l' <;> first | exact absurd rfl other | rfl

theorem ends_modifyLinks (l l' : Level) (x : Handle l.node) (c : Handle l'.container)
    (f : Links l → Links l) : (ctx.modifyLinks l x f).ends l' c = ctx.ends l' c := by
  cases l with
  | ops => cases l' <;> rfl
  | blocks =>
    cases l' with
    | ops =>
      simp only [modifyLinks, ends_ops, block_modifyBlock]
      split
      next same => simp only [Except.map_map, same]
      next => rfl
    | blocks => rfl

theorem ends_modifyEnds (l : Level) (c c' : Handle l.container) (f : Ends l → Ends l) :
    (ctx.modifyEnds l c f).ends l c' = if c' = c then (ctx.ends l c).map f else ctx.ends l c' := by
  cases l with
  | ops =>
    simp only [modifyEnds, ends_ops, block_modifyBlock]
    split <;> simp only [Except.map_map]
  | blocks =>
    simp only [modifyEnds, ends_blocks, region_modifyRegion]
    split <;> simp only [Except.map_map]

theorem ends_modifyEnds_of_ne {l l' : Level} (other : l' ≠ l) (c : Handle l.container)
    (c' : Handle l'.container) (f : Ends l → Ends l) :
    (ctx.modifyEnds l c f).ends l' c' = ctx.ends l' c' := by
  cases l <;> cases l' <;> first | exact absurd rfl other | rfl

theorem links_modifyEnds (l l' : Level) (c : Handle l.container) (y : Handle l'.node)
    (f : Ends l → Ends l) : (ctx.modifyEnds l c f).links l' y = ctx.links l' y := by
  cases l with
  | ops =>
    cases l' with
    | ops => rfl
    | blocks =>
      simp only [modifyEnds, links_blocks, block_modifyBlock]
      split
      next same => simp only [Except.map_map, same]
      next => rfl
  | blocks => cases l' <;> rfl

theorem regionsOf_modifyLinks (l : Level) (x : Handle l.node) (f : Links l → Links l)
    (op : OpRef) : (ctx.modifyLinks l x f).regionsOf op = ctx.regionsOf op := by
  cases l with
  | ops =>
    simp only [modifyLinks, regionsOf, operation_modifyOperation]
    split
    next same => simp only [Except.map_map, same]
    next => rfl
  | blocks => rfl

theorem regionsOf_modifyEnds (l : Level) (c : Handle l.container) (f : Ends l → Ends l)
    (op : OpRef) : (ctx.modifyEnds l c f).regionsOf op = ctx.regionsOf op := by
  cases l <;> rfl

theorem ownerOf_modifyLinks (l : Level) (x : Handle l.node) (f : Links l → Links l)
    (r : RegionRef) : (ctx.modifyLinks l x f).ownerOf r = ctx.ownerOf r := by
  cases l <;> rfl

theorem ownerOf_modifyEnds (l : Level) (c : Handle l.container) (f : Ends l → Ends l)
    (r : RegionRef) : (ctx.modifyEnds l c f).ownerOf r = ctx.ownerOf r := by
  cases l with
  | ops => rfl
  | blocks =>
    simp only [modifyEnds, ownerOf, region_modifyRegion]
    split
    next same => simp only [Except.map_map, same]
    next => rfl

/-! ## Contexts of the same shape -/

/-- The objects of two contexts are at the same places. -/
structure SameShape (ctx ctx' : Context) : Prop where
  links : ∀ (l : Level) (x : Handle l.node), ctx'.links l x = ctx.links l x
  ends : ∀ (l : Level) (c : Handle l.container), ctx'.ends l c = ctx.ends l c
  regions : ∀ op, ctx'.regionsOf op = ctx.regionsOf op
  owner : ∀ r, ctx'.ownerOf r = ctx.ownerOf r

theorem modifyOperation_sameShape (op : OpRef) {f : Operation → Operation}
    (links : ∀ o, (f o).links = o.links) (regions : ∀ o, (f o).regions = o.regions) :
    SameShape ctx (ctx.modifyOperation op f) where
  links l x := by
    cases l with
    | ops =>
      rw [links_ops, links_ops, operation_modifyOperation]
      by_cases same : x = op
      · rw [if_pos same, same, Except.map_map]
        simp only [links]
      · rw [if_neg same]
    | blocks => rfl
  ends l c := by cases l <;> rfl
  regions op' := by
    rw [regionsOf, regionsOf, operation_modifyOperation]
    by_cases same : op' = op
    · rw [if_pos same, same, Except.map_map]
      simp only [regions]
    · rw [if_neg same]
  owner _ := rfl

end Context

end HardwareIR
