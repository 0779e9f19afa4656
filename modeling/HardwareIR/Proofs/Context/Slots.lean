import HardwareIR.Proofs.Context.Removal

/-! # Contexts with the same slots

List edits write to objects that are there, so that they leave all slots as they are
(`Context.SameSlots`).  Contexts with the same slots are equal if they have the same objects, and
for that it is enough if these have the same contents, links and ends
(`Context.SameSlots.eq_of_places`).
-/

namespace HardwareIR

namespace Context

variable {ctx ctx' : Context}

/-- Each arena of two contexts has the same slots. -/
structure SameSlots (ctx ctx' : Context) : Prop where
  operations : ctx.operations.SameSlots ctx'.operations
  blocks : ctx.blocks.SameSlots ctx'.blocks
  regions : ctx.regions.SameSlots ctx'.regions

theorem SameSlots.refl (ctx : Context) : SameSlots ctx ctx :=
  ⟨.refl _, .refl _, .refl _⟩

theorem SameSlots.trans {ctx'' : Context} (first : SameSlots ctx ctx')
    (second : SameSlots ctx' ctx'') : SameSlots ctx ctx'' where
  operations := first.operations.trans second.operations
  blocks := first.blocks.trans second.blocks
  regions := first.regions.trans second.regions

/-! ## Updates -/

theorem modifyOperation_sameSlots (ctx : Context) (op : OpRef) (f : Operation → Operation) :
    SameSlots ctx (ctx.modifyOperation op f) :=
  ⟨Arena.sameSlots_modify _ op f, .refl _, .refl _⟩

theorem modifyBlock_sameSlots (ctx : Context) (b : BlockRef) (f : Block → Block) :
    SameSlots ctx (ctx.modifyBlock b f) :=
  ⟨.refl _, Arena.sameSlots_modify _ b f, .refl _⟩

theorem modifyRegion_sameSlots (ctx : Context) (r : RegionRef) (f : Region → Region) :
    SameSlots ctx (ctx.modifyRegion r f) :=
  ⟨.refl _, .refl _, Arena.sameSlots_modify _ r f⟩

theorem modifyLinks_sameSlots (ctx : Context) (l : Level) (x : Handle l.node)
    (f : Links l → Links l) : SameSlots ctx (ctx.modifyLinks l x f) := by
  cases l with
  | ops => exact ctx.modifyOperation_sameSlots x _
  | blocks => exact ctx.modifyBlock_sameSlots x _

theorem modifyEnds_sameSlots (ctx : Context) (l : Level) (c : Handle l.container)
    (f : Ends l → Ends l) : SameSlots ctx (ctx.modifyEnds l c f) := by
  cases l with
  | ops => exact ctx.modifyBlock_sameSlots c _
  | blocks => exact ctx.modifyRegion_sameSlots c _

theorem setNext_sameSlots (ctx : Context) (l : Level) (c : Handle l.container)
    (prev next : Option (Handle l.node)) : SameSlots ctx (ctx.setNext l c prev next) := by
  cases prev with
  | none => exact ctx.modifyEnds_sameSlots l c _
  | some p => exact ctx.modifyLinks_sameSlots l p _

theorem setPrev_sameSlots (ctx : Context) (l : Level) (c : Handle l.container)
    (prev next : Option (Handle l.node)) : SameSlots ctx (ctx.setPrev l c prev next) := by
  cases next with
  | none => exact ctx.modifyEnds_sameSlots l c _
  | some n => exact ctx.modifyLinks_sameSlots l n _

theorem splice_sameSlots (ctx : Context) (l : Level) (x : Handle l.node) (c : Handle l.container)
    (prev next : Option (Handle l.node)) : SameSlots ctx (ctx.splice l x c prev next) :=
  ((ctx.setNext_sameSlots l c _ _).trans (setPrev_sameSlots _ l c _ _)).trans
    (modifyLinks_sameSlots _ l x _)

theorem bypass_sameSlots (ctx : Context) (l : Level) (x : Handle l.node) (c : Handle l.container)
    (prev next : Option (Handle l.node)) : SameSlots ctx (ctx.bypass l x c prev next) :=
  ((ctx.modifyLinks_sameSlots l x _).trans (setPrev_sameSlots _ l c _ _)).trans
    (setNext_sameSlots _ l c _ _)

/-! ## Equal contexts -/

theorem operation_eq_iff {op : OpRef} :
    ctx'.operation op = ctx.operation op ↔ ctx'.operations.get? op = ctx.operations.get? op := by
  unfold operation
  cases ctx'.operations.get? op <;> cases ctx.operations.get? op <;> simp [Misuse.throw]

theorem block_eq_iff {b : BlockRef} :
    ctx'.block b = ctx.block b ↔ ctx'.blocks.get? b = ctx.blocks.get? b := by
  unfold block
  cases ctx'.blocks.get? b <;> cases ctx.blocks.get? b <;> simp [Misuse.throw]

theorem region_eq_iff {r : RegionRef} :
    ctx'.region r = ctx.region r ↔ ctx'.regions.get? r = ctx.regions.get? r := by
  unfold region
  cases ctx'.regions.get? r <;> cases ctx.regions.get? r <;> simp [Misuse.throw]

/-- Contexts are equal if they have the same slots, and the same in each. -/
theorem SameSlots.eq (slots : SameSlots ctx ctx')
    (operation : ∀ op, ctx'.operation op = ctx.operation op)
    (block : ∀ b, ctx'.block b = ctx.block b) (region : ∀ r, ctx'.region r = ctx.region r)
    (types : ctx'.types = ctx.types) (registry : ctx'.registry = ctx.registry) : ctx' = ctx := by
  have operations := slots.operations.eq fun op => operation_eq_iff.mp (operation op)
  have blocks := slots.blocks.eq fun b => block_eq_iff.mp (block b)
  have regions := slots.regions.eq fun r => region_eq_iff.mp (region r)
  cases ctx
  cases ctx'
  simp_all

/-- Objects of the same contents at the same places are the same. -/
theorem SameSlots.eq_of_places (slots : SameSlots ctx ctx') (contents : SameContents ctx ctx')
    (links : ∀ (l : Level) (x : Handle l.node), ctx'.links l x = ctx.links l x)
    (ends : ∀ (l : Level) (c : Handle l.container), ctx'.ends l c = ctx.ends l c) :
    ctx' = ctx := by
  refine slots.eq (fun op => ?_) (fun b => ?_) (fun r => ?_) contents.types contents.registry
  · refine Except.eq_of_map (contents.operation op) fun o' o live' live same => ?_
    have place := links .ops op
    rw [links_of_operation live', links_of_operation live, Except.ok.injEq] at place
    rw [Operation.eq_of_contents same, place]
  · refine Except.eq_of_map (contents.block b) fun content' content live' live same => ?_
    have place := links .blocks b
    have list := ends .ops b
    rw [links_of_block live', links_of_block live, Except.ok.injEq] at place
    rw [ends_of_block live', ends_of_block live, Except.ok.injEq] at list
    rw [Block.eq_of_contents same, place, list]
  · refine Except.eq_of_map (contents.owner r) fun content' content live' live same => ?_
    have list := ends .blocks r
    rw [ends_of_region live', ends_of_region live, Except.ok.injEq] at list
    cases content
    cases content'
    simp_all

end Context

end HardwareIR
