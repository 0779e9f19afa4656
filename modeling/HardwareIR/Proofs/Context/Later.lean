import HardwareIR.Context.Creation
import HardwareIR.Proofs.Context.Edit
import HardwareIR.Proofs.Context.Nesting

/-! # Contexts go on

Whatever is done to a context, the slots of its arenas are still there afterwards, in the same
generations or in later ones (`Context.Later`).  So an object that was freed has a handle that is
stale for good, even if its slot is taken again (`Context.Retired`).
-/

namespace HardwareIR

namespace Context

variable {ctx between ctx' : Context} {l : Level} {x : Handle l.node} {c : Handle l.container}

/-- Of every slot there is the same generation or a later one. -/
structure Later (ctx ctx' : Context) : Prop where
  operations : ctx.operations.Later ctx'.operations
  blocks : ctx.blocks.Later ctx'.blocks
  regions : ctx.regions.Later ctx'.regions

theorem Later.refl (ctx : Context) : Later ctx ctx :=
  ⟨.refl _, .refl _, .refl _⟩

theorem Later.trans (first : Later ctx between) (second : Later between ctx') : Later ctx ctx' where
  operations := first.operations.trans second.operations
  blocks := first.blocks.trans second.blocks
  regions := first.regions.trans second.regions

/-! ## Changes of objects -/

theorem modifyOperation_later (ctx : Context) (op : OpRef) (f : Operation → Operation) :
    Later ctx (ctx.modifyOperation op f) :=
  ⟨Arena.later_modify _ op f, .refl _, .refl _⟩

theorem modifyBlock_later (ctx : Context) (b : BlockRef) (f : Block → Block) :
    Later ctx (ctx.modifyBlock b f) :=
  ⟨.refl _, Arena.later_modify _ b f, .refl _⟩

theorem modifyRegion_later (ctx : Context) (r : RegionRef) (f : Region → Region) :
    Later ctx (ctx.modifyRegion r f) :=
  ⟨.refl _, .refl _, Arena.later_modify _ r f⟩

theorem modifyLinks_later (ctx : Context) (l : Level) (x : Handle l.node)
    (f : Links l → Links l) : Later ctx (ctx.modifyLinks l x f) := by
  cases l with
  | ops => exact ctx.modifyOperation_later x _
  | blocks => exact ctx.modifyBlock_later x _

theorem modifyEnds_later (ctx : Context) (l : Level) (c : Handle l.container)
    (f : Ends l → Ends l) : Later ctx (ctx.modifyEnds l c f) := by
  cases l with
  | ops => exact ctx.modifyBlock_later c _
  | blocks => exact ctx.modifyRegion_later c _

/-! ## List edits -/

theorem setNext_later (ctx : Context) (l : Level) (c : Handle l.container)
    (prev next : Option (Handle l.node)) : Later ctx (ctx.setNext l c prev next) := by
  cases prev with
  | none => exact ctx.modifyEnds_later l c _
  | some p => exact ctx.modifyLinks_later l p _

theorem setPrev_later (ctx : Context) (l : Level) (c : Handle l.container)
    (prev next : Option (Handle l.node)) : Later ctx (ctx.setPrev l c prev next) := by
  cases next with
  | none => exact ctx.modifyEnds_later l c _
  | some n => exact ctx.modifyLinks_later l n _

theorem splice_later (ctx : Context) (l : Level) (x : Handle l.node) (c : Handle l.container)
    (prev next : Option (Handle l.node)) : Later ctx (ctx.splice l x c prev next) :=
  ((ctx.setNext_later l c _ _).trans (setPrev_later _ l c _ _)).trans (modifyLinks_later _ l x _)

theorem bypass_later (ctx : Context) (l : Level) (x : Handle l.node) (c : Handle l.container)
    (prev next : Option (Handle l.node)) : Later ctx (ctx.bypass l x c prev next) :=
  ((ctx.modifyLinks_later l x _).trans (setPrev_later _ l c _ _)).trans (setNext_later _ l c _ _)

theorem linkBetween_later {prev next : Option (Handle l.node)}
    (linked : ctx.linkBetween l x c prev next = .ok ctx') : Later ctx ctx' := by
  obtain ⟨k, -, linked⟩ := Except.bind_eq_ok.mp linked
  split at linked
  next => cases linked
  next =>
    cases linked
    exact ctx.splice_later l x c prev next

theorem link_later {place : Place l} (linked : ctx.link l x place = .ok ctx') : Later ctx ctx' := by
  cases place with
  | front c =>
    obtain ⟨e, -, linked⟩ := Except.bind_eq_ok.mp linked
    exact linkBetween_later linked
  | back c =>
    obtain ⟨e, -, linked⟩ := Except.bind_eq_ok.mp linked
    exact linkBetween_later linked
  | before mark =>
    obtain ⟨⟨c, k⟩, -, linked⟩ := Except.bind_eq_ok.mp linked
    exact linkBetween_later linked
  | after mark =>
    obtain ⟨⟨c, k⟩, -, linked⟩ := Except.bind_eq_ok.mp linked
    exact linkBetween_later linked

theorem unlink_later (unlinked : ctx.unlink l x = .ok ctx') : Later ctx ctx' := by
  obtain ⟨k, -, unlinked⟩ := Except.bind_eq_ok.mp unlinked
  split at unlinked
  next => cases unlinked
  next c _ =>
    cases unlinked
    exact ctx.bypass_later l x c _ _

/-! ## New objects -/

theorem newBlock_later (ctx : Context) (label : Option Identifier)
    (argumentTypes : List TypeRef) : Later ctx (ctx.newBlock label argumentTypes).2 :=
  ⟨.refl _, Arena.later_insert _ _, .refl _⟩

theorem newRegions_later (ctx : Context) (owner : OpRef) (count : Nat) :
    Later ctx (ctx.newRegions owner count).2 := by
  induction count generalizing ctx with
  | zero => exact .refl ctx
  | succ count ih =>
    have first : Later ctx
        { ctx with regions := (ctx.regions.insert .region { ends := {}, owner }).2 } :=
      ⟨.refl _, .refl _, Arena.later_insert _ _⟩
    exact first.trans (ih _)

theorem newOperation_later (ctx : Context) (id : QualifiedName) (resultTypes : List TypeRef)
    (operands : List Value) (regionCount : Nat) (attributes : AttributeDict)
    (location : Location) :
    Later ctx
      (ctx.newOperation id resultTypes operands regionCount attributes location).2 := by
  have first : Later ctx { ctx with operations := (ctx.operations.insert .operation
      { id, resultTypes, operands, regions := [], attributes, location, links := {} }).2 } :=
    ⟨Arena.later_insert _ _, .refl _, .refl _⟩
  exact (first.trans (newRegions_later _ _ regionCount)).trans (modifyOperation_later _ _ _)

theorem newConstant_later (ctx : Context) (type literalType : TypeRef) (literal : Literal)
    (location : Location) : Later ctx (ctx.newConstant type literalType literal location).2 := by
  unfold newConstant
  exact ctx.newOperation_later _ _ _ _ _ location

theorem newParamValue_later (ctx : Context) (type : TypeRef) (value : Attribute)
    (location : Location) : Later ctx (ctx.newParamValue type value location).2 := by
  unfold newParamValue
  exact ctx.newOperation_later _ _ _ _ _ location

theorem addBodies_later {rs : List RegionRef} (added : ctx.addBodies rs = .ok ctx') :
    Later ctx ctx' := by
  induction rs generalizing ctx with
  | nil =>
    cases added
    exact .refl _
  | cons r rs ih =>
    -- A body is a new block at the back of its region.
    obtain ⟨between, pushed, added⟩ := Except.bind_eq_ok.mp added
    have linked : (ctx.newBlock none []).2.link .blocks (ctx.newBlock none []).1 (.back r) =
        .ok between := pushed
    exact ((ctx.newBlock_later none []).trans (link_later linked)).trans (ih added)

theorem newWithBodies_later {id : QualifiedName} {resultTypes : List TypeRef}
    {operands : List Value} {regionCount : Nat} {attributes : AttributeDict} {op : OpRef}
    (made : ctx.newWithBodies id resultTypes operands regionCount attributes = .ok (op, ctx')) :
    Later ctx ctx' := by
  obtain ⟨o, -, made⟩ := Except.bind_eq_ok.mp made
  obtain ⟨between, added, same⟩ := Except.bind_eq_ok.mp made
  cases same
  exact (ctx.newOperation_later _ _ _ _ _ _).trans (addBodies_later added)

/-! ## Freed objects -/

theorem release_later (ctx : Context) (x : Object) : Later ctx (ctx.release x) := by
  cases x with
  | operation op => exact ⟨Arena.later_erase _ op, .refl _, .refl _⟩
  | region r => exact ⟨.refl _, .refl _, Arena.later_erase _ r⟩
  | block b => exact ⟨.refl _, Arena.later_erase _ b, .refl _⟩

theorem foldl_release_later (ctx : Context) (xs : List Object) :
    Later ctx (xs.foldl release ctx) := by
  induction xs generalizing ctx with
  | nil => exact .refl ctx
  | cons x xs ih => exact (ctx.release_later x).trans (ih _)

theorem erase_later {op : OpRef} (erased : ctx.erase op = .ok ctx') : Later ctx ctx' := by
  obtain ⟨linked, -, erased⟩ := Except.bind_eq_ok.mp erased
  cases linked with
  | true =>
    obtain ⟨between, unlinked, erased⟩ := Except.bind_eq_ok.mp erased
    obtain ⟨t, -, same⟩ := Except.bind_eq_ok.mp erased
    cases same
    exact (unlink_later unlinked).trans (foldl_release_later _ _)
  | false =>
    obtain ⟨between, kept, erased⟩ := Except.bind_eq_ok.mp erased
    cases kept
    obtain ⟨t, -, same⟩ := Except.bind_eq_ok.mp erased
    cases same
    exact foldl_release_later ctx _

/-- The slot of an object has gone on to a later generation. -/
def Retired (ctx : Context) : Object → Prop
  | .operation op => ctx.operations.Retired op
  | .region r => ctx.regions.Retired r
  | .block b => ctx.blocks.Retired b

/-- A retired object stays retired. -/
theorem Retired.later {x : Object} (retired : ctx.Retired x) (later : Later ctx ctx') :
    ctx'.Retired x := by
  cases x with
  | operation op => exact Arena.Retired.later retired later.operations
  | region r => exact Arena.Retired.later retired later.regions
  | block b => exact Arena.Retired.later retired later.blocks

theorem Retired.not_live {x : Object} (retired : ctx.Retired x) : ¬ ctx.Live x := by
  rintro live
  cases x with
  | operation op =>
    obtain ⟨o, found⟩ := live
    rw [operation_eq_ok, Arena.Retired.get? retired] at found
    cases found
  | region r =>
    obtain ⟨content, found⟩ := live
    rw [region_eq_ok, Arena.Retired.get? retired] at found
    cases found
  | block b =>
    obtain ⟨content, found⟩ := live
    rw [block_eq_ok, Arena.Retired.get? retired] at found
    cases found

theorem retired_release {x : Object} (live : ctx.Live x) : (ctx.release x).Retired x := by
  cases x with
  | operation op =>
    obtain ⟨o, found⟩ := live
    exact Arena.retired_erase (operation_eq_ok.mp found)
  | region r =>
    obtain ⟨content, found⟩ := live
    exact Arena.retired_erase (region_eq_ok.mp found)
  | block b =>
    obtain ⟨content, found⟩ := live
    exact Arena.retired_erase (block_eq_ok.mp found)

end Context

end HardwareIR
