import HardwareIR.Proofs.Context.Creation
import HardwareIR.Proofs.Context.Erased

/-! # What objects are made with

An object keeps what it was made with, as long as it is there (`Context.makings`).  A change of a
context makes new objects and frees others, and does nothing to what is left (`Context.Changes`).

What is made at once with an object is exactly what is nested in it then: a block is made empty, and
an operation with its regions and their bodies (`Context.newBlock_changes`,
`Context.WellFormed.newOperation_changes`, `Context.WellFormed.newWithBodies_changes`).
-/

namespace HardwareIR

open Relation (ReflTransGen)

/-- What an object is made with and keeps. -/
inductive Makings where
  | operation (id : QualifiedName) (resultTypes : List TypeRef) (operands : List Value)
      (regions : List RegionRef)
  | region (owner : OpRef)
  | block (label : Option Identifier) (argumentTypes : List TypeRef)

def Operation.makings (o : Operation) : Makings :=
  .operation o.id o.resultTypes o.operands o.regions

def Region.makings (r : Region) : Makings :=
  .region r.owner

def Block.makings (b : Block) : Makings :=
  .block b.label b.argumentTypes

namespace Context

variable {ctx between ctx' : Context} {op : OpRef} {o : Operation} {x y : Object} {xs : List Object}
  {new gone : Object → Prop}

/-- What an object was made with, if it is live. -/
def makings (ctx : Context) : Object → Option Makings
  | .operation op => (ctx.operation op).toOption.map Operation.makings
  | .region r => (ctx.region r).toOption.map Region.makings
  | .block b => (ctx.block b).toOption.map Block.makings

theorem live_iff_makings : ctx.Live x ↔ (ctx.makings x).isSome := by
  cases x with
  | operation op => cases found : ctx.operation op <;> simp [Live, makings, Except.toOption, found]
  | region r => cases found : ctx.region r <;> simp [Live, makings, Except.toOption, found]
  | block b => cases found : ctx.block b <;> simp [Live, makings, Except.toOption, found]

theorem makings_of_operation (live : ctx.operation op = .ok o) :
    ctx.makings (.operation op) = some o.makings := by
  simp [makings, live, Except.toOption]

theorem makings_of_not_live (stale : ¬ ctx.Live x) : ctx.makings x = none := by
  simpa [live_iff_makings] using stale

theorem SameContents.makings (same : SameContents ctx ctx') (x : Object) :
    ctx'.makings x = ctx.makings x := by
  cases x with
  | operation op =>
    have contents := same.operation op
    simp only [Context.makings]
    cases found : ctx.operation op <;> cases found' : ctx'.operation op <;>
      simp_all [Except.toOption, Operation.contents, Operation.makings]
  | region r =>
    have owner := same.owner r
    simp only [ownerOf] at owner
    simp only [Context.makings]
    cases found : ctx.region r <;> cases found' : ctx'.region r <;>
      simp_all [Except.toOption, Region.makings]
  | block b =>
    have contents := same.block b
    simp only [Context.makings]
    cases found : ctx.block b <;> cases found' : ctx'.block b <;>
      simp_all [Except.toOption, Block.contents, Block.makings]

theorem Freed.makings (gone : Freed ctx ctx' xs) (left : x ∉ xs) :
    ctx'.makings x = ctx.makings x := by
  cases x with
  | operation op => simp only [Context.makings, gone.operation, if_neg left]
  | region r => simp only [Context.makings, gone.region, if_neg left]
  | block b => simp only [Context.makings, gone.block, if_neg left]

theorem modifyOperation_makings (ctx : Context) (op : OpRef) {f : Operation → Operation}
    (keeps : ∀ o, (f o).makings = o.makings) (x : Object) :
    (ctx.modifyOperation op f).makings x = ctx.makings x := by
  cases x with
  | operation p =>
    simp only [Context.makings, operation_modifyOperation]
    by_cases here : p = op
    · subst here
      cases found : ctx.operation p <;> simp [Except.toOption, keeps]
    · simp [here]
  | region r => rfl
  | block b => rfl

/-! ## Changes -/

/-- What a change does to objects: some are new, some are gone for good, and the others are what
they were made as. -/
structure Changes (ctx ctx' : Context) (new gone : Object → Prop) : Prop where
  kept : ∀ x, ¬ new x → ¬ gone x → ctx'.makings x = ctx.makings x
  new : ∀ x, new x → ¬ ctx.Live x ∧ ctx'.Live x
  gone : ∀ x, gone x → ctx.Live x ∧ ctx'.Retired x

theorem Changes.live_iff (changes : Changes ctx ctx' new gone) (x : Object) :
    ctx'.Live x ↔ new x ∨ ctx.Live x ∧ ¬ gone x := by
  by_cases isNew : new x
  · exact iff_of_true (changes.new x isNew).2 (.inl isNew)
  · by_cases isGone : gone x
    · simp [isNew, isGone, (changes.gone x isGone).2.not_live]
    · simp [isNew, isGone, live_iff_makings, changes.kept x isNew isGone]

theorem changes_of_same (same : ∀ x, ctx'.makings x = ctx.makings x) (noNew : ∀ x, ¬ new x)
    (noneGone : ∀ x, ¬ gone x) : Changes ctx ctx' new gone :=
  ⟨fun x _ _ => same x, fun x isNew => absurd isNew (noNew x),
    fun x isGone => absurd isGone (noneGone x)⟩

theorem Changes.congr (changes : Changes ctx ctx' new gone) {new' gone' : Object → Prop}
    (sameNew : ∀ x, new' x ↔ new x) (sameGone : ∀ x, gone' x ↔ gone x) :
    Changes ctx ctx' new' gone' where
  kept x old left := changes.kept x (mt (sameNew x).mpr old) (mt (sameGone x).mpr left)
  new x isNew := changes.new x ((sameNew x).mp isNew)
  gone x isGone := changes.gone x ((sameGone x).mp isGone)

/-- New objects may be put somewhere. -/
theorem Changes.followed (changes : Changes ctx between new gone) (noneGone : ∀ x, ¬ gone x)
    (same : ∀ x, ctx'.makings x = between.makings x) : Changes ctx ctx' new gone where
  kept x old left := (same x).trans (changes.kept x old left)
  new x isNew := by
    obtain ⟨fresh, live⟩ := changes.new x isNew
    rw [live_iff_makings, ← same, ← live_iff_makings] at live
    exact ⟨fresh, live⟩
  gone x isGone := absurd isGone (noneGone x)

/-- Erasing a live operation frees what is nested in it. -/
theorem WellFormed.erase_changes (wf : ctx.WellFormed) (live : ctx.operation op = .ok o) :
    ∃ ctx', ctx.erase op = .ok ctx' ∧
      Changes ctx ctx' (fun _ => False) (ReflTransGen ctx.Holds (.operation op)) := by
  obtain ⟨between, ctx', xs, erased, unplaced, -, gone, freed⟩ := wf.exists_freed live
  refine ⟨ctx', erased, fun x _ left => ?_, fun x isNew => isNew.elim, fun x nested => ?_⟩
  · have outside : x ∉ xs := fun mem => left ((freed x).1.mp mem)
    exact (gone.makings outside).trans (unplaced.contents.makings x)
  · have root : ctx.Live (.operation op) := ⟨o, live⟩
    exact ⟨wf.live_of_below root nested, (freed x).2 nested⟩

/-! ## Objects of both levels -/

theorem live_ofNode {l : Level} {n : Handle l.node} :
    ctx.Live (.ofNode l n) ↔ ∃ k, ctx.links l n = .ok k := by
  cases l <;> simp [Object.ofNode, Live, links_ops, links_blocks, Except.map_eq_ok]

theorem live_ofContainer {l : Level} {c : Handle l.container} :
    ctx.Live (.ofContainer l c) ↔ ∃ e, ctx.ends l c = .ok e := by
  cases l <;> simp [Object.ofContainer, Live, ends_ops, ends_blocks, Except.map_eq_ok]

theorem live_region {r : RegionRef} : ctx.Live (.region r) ↔ ∃ p, ctx.ownerOf r = .ok p := by
  simp [Live, ownerOf, Except.map_eq_ok]

/-! ## Growth -/

/-- Old objects are what they were and where they were. -/
structure Extends (ctx ctx' : Context) : Prop where
  makings : ∀ x, ctx.Live x → ctx'.makings x = ctx.makings x
  containers : ∀ (l : Level) (n : Handle l.node) (k : Links l), ctx.links l n = .ok k →
    ∃ k', ctx'.links l n = .ok k' ∧ k'.container = k.container

theorem Extends.refl (ctx : Context) : Extends ctx ctx :=
  ⟨fun _ _ => rfl, fun _ _ k live => ⟨k, live, rfl⟩⟩

theorem Extends.live (larger : Extends ctx ctx') (live : ctx.Live x) : ctx'.Live x := by
  have same := larger.makings x live
  rw [live_iff_makings] at live ⊢
  rwa [same]

theorem Extends.trans (first : Extends ctx between) (second : Extends between ctx') :
    Extends ctx ctx' where
  makings x live := (second.makings x (first.live live)).trans (first.makings x live)
  containers l n k live := by
    obtain ⟨k', live', same⟩ := first.containers l n k live
    obtain ⟨k'', live'', same'⟩ := second.containers l n k' live'
    exact ⟨k'', live'', same'.trans same⟩

theorem Extends.ownerOf (larger : Extends ctx ctx') {r : RegionRef} {p : OpRef}
    (owner : ctx.ownerOf r = .ok p) : ctx'.ownerOf r = .ok p := by
  have same := larger.makings (.region r) (live_region.mpr ⟨p, owner⟩)
  simp only [Context.ownerOf, Context.makings] at owner same ⊢
  cases found : ctx.region r <;> cases found' : ctx'.region r <;>
    simp_all [Except.toOption, Region.makings]

/-- No old object is in a new one. -/
theorem Extends.live_of_holds (larger : Extends ctx ctx') (wf : ctx.WellFormed)
    (wf' : ctx'.WellFormed) (held : ctx'.Holds x y) (live : ctx.Live y) : ctx.Live x := by
  have container : ∀ {l : Level} {c : Handle l.container} {ns : List (Handle l.node)}
      {n : Handle l.node}, ctx'.Listed l c ns → n ∈ ns → ctx.Live (.ofNode l n) →
      ctx.Live (.ofContainer l c) := by
    intro l c ns n listed mem live
    obtain ⟨k, links⟩ := live_ofNode.mp live
    obtain ⟨k', links', same⟩ := larger.containers l n k links
    have container := listed.eq_of_mem mem links'
    obtain ⟨xs, before, -⟩ := wf.linked links (same.symm.trans container)
    exact live_ofContainer.mpr ⟨_, before.ends⟩
  cases held with
  | region regions mem =>
    obtain ⟨p, before⟩ := live_region.mp live
    obtain rfl := Except.ok.inj
      ((larger.ownerOf before).symm.trans ((wf'.regions regions).2 _ mem))
    obtain ⟨rs, regions, -⟩ := wf.owner before
    obtain ⟨o, found, -⟩ := Except.map_eq_ok.mp regions
    exact ⟨o, found⟩
  | block listed mem => exact container (l := .blocks) listed mem live
  | operation listed mem => exact container (l := .ops) listed mem live

/-- Where all that is new is nested in one object, what is nested in it is new. -/
theorem Extends.changes (larger : Extends ctx ctx') (wf : ctx.WellFormed) (wf' : ctx'.WellFormed)
    {root : Object} (fresh : ¬ ctx.Live root) (live : ctx'.Live root)
    (nested : ∀ y, ctx'.Live y → ctx.Live y ∨ ReflTransGen ctx'.Holds root y) :
    Changes ctx ctx' (ReflTransGen ctx'.Holds root) (fun _ => False) where
  kept y outside _ := by
    by_cases old : ctx.Live y
    · exact larger.makings y old
    · have stale : ¬ ctx'.Live y := fun live' => (nested y live').elim old outside
      rw [makings_of_not_live old, makings_of_not_live stale]
  new y below := by
    refine ⟨?_, wf'.live_of_below live below⟩
    induction below with
    | refl => exact fresh
    | tail _ held ih => exact fun old => ih (larger.live_of_holds wf wf' held old)
  gone _ none := none.elim

/-! ## New blocks and operations -/

theorem not_live_newBlock (ctx : Context) (label : Option Identifier)
    (argumentTypes : List TypeRef) :
    ¬ ctx.Live (.block (ctx.newBlock label argumentTypes).1) := by
  rintro ⟨content, live⟩
  rw [newBlock_fresh] at live
  cases live

theorem OperationAdded.not_live (added : OperationAdded ctx ctx' op o) :
    ¬ ctx.Live (.operation op) := by
  rintro ⟨o', live⟩
  rw [added.fresh] at live
  cases live

theorem newBlock_extends (ctx : Context) (label : Option Identifier)
    (argumentTypes : List TypeRef) : Extends ctx (ctx.newBlock label argumentTypes).2 := by
  have fresh : ∀ b, ctx.Live (.block b) → b ≠ (ctx.newBlock label argumentTypes).1 := by
    rintro b live rfl
    exact ctx.not_live_newBlock label argumentTypes live
  constructor
  · intro x live
    cases x with
    | block b => simp only [Context.makings, block_newBlock, if_neg (fresh b live)]
    | operation op => rfl
    | region r => rfl
  · intro l n k live
    cases l with
    | ops => exact ⟨k, live, rfl⟩
    | blocks =>
      refine ⟨k, ?_, rfl⟩
      rw [links_blocks, block_newBlock, if_neg (fresh n (live_ofNode.mpr ⟨k, live⟩)),
        ← links_blocks, live]

theorem live_newBlock (ctx : Context) (label : Option Identifier) (argumentTypes : List TypeRef)
    (x : Object) : (ctx.newBlock label argumentTypes).2.Live x ↔
      ctx.Live x ∨ x = .block (ctx.newBlock label argumentTypes).1 := by
  cases x with
  | block b =>
    by_cases new : b = (ctx.newBlock label argumentTypes).1
    · simp [Live, block_newBlock, new]
    · simp [Live, block_newBlock, new]
  | operation op => simp [Live, newBlock, operation]
  | region r => simp [Live, newBlock, region]

/-- A new block is all that is new, with what is in it. -/
theorem WellFormed.newBlock_changes (wf : ctx.WellFormed) (label : Option Identifier)
    (argumentTypes : List TypeRef) :
    Changes ctx (ctx.newBlock label argumentTypes).2
      (ReflTransGen (ctx.newBlock label argumentTypes).2.Holds
        (.block (ctx.newBlock label argumentTypes).1)) (fun _ => False) := by
  refine (ctx.newBlock_extends label argumentTypes).changes wf (wf.newBlock label argumentTypes)
    (ctx.not_live_newBlock label argumentTypes) ?_ fun x live => ?_
  · exact (ctx.live_newBlock label argumentTypes _).mpr (.inr rfl)
  · rcases (ctx.live_newBlock label argumentTypes x).mp live with old | rfl
    · exact .inl old
    · exact .inr .refl

theorem OperationAdded.larger (added : OperationAdded ctx ctx' op o) : Extends ctx ctx' := by
  have other : ∀ p, ctx.Live (.operation p) → p ≠ op := by
    rintro p live rfl
    exact added.not_live live
  constructor
  · intro x live
    cases x with
    | operation p => simp only [Context.makings, added.operation, if_neg (other p live)]
    | region r =>
      have old : r ∉ o.regions := by
        intro new
        obtain ⟨content, live⟩ := live
        rw [added.freshRegions r new] at live
        cases live
      simp only [Context.makings, added.region, if_neg old]
    | block b => simp only [Context.makings, block, added.blocks]
  · intro l n k live
    refine ⟨k, ?_, rfl⟩
    rcases added.grown.links l n with same | ⟨stale, -⟩
    · rw [same, live]
    · exact absurd live (stale k)

/-! ## Bodies -/

/-- Some regions have new blocks, and nothing else is new. -/
structure Bodied (ctx ctx' : Context) (rs : List RegionRef) : Prop where
  wellFormed : ctx'.WellFormed
  larger : Extends ctx ctx'
  operations : ctx'.operations = ctx.operations
  regions : ∀ r, ctx'.Live (.region r) → ctx.Live (.region r)
  blocks : ∀ b, ctx'.Live (.block b) → ctx.Live (.block b) ∨
    ∃ r ∈ rs, ∃ k, ctx'.links .blocks b = .ok k ∧ k.container = some r

theorem WellFormed.bodied_self (wf : ctx.WellFormed) (rs : List RegionRef) : Bodied ctx ctx rs :=
  ⟨wf, .refl ctx, rfl, fun _ live => live, fun _ live => .inl live⟩

theorem Bodied.append {rs rs' : List RegionRef} (first : Bodied ctx between rs)
    (second : Bodied between ctx' rs') : Bodied ctx ctx' (rs ++ rs') where
  wellFormed := second.wellFormed
  larger := first.larger.trans second.larger
  operations := second.operations.trans first.operations
  regions r live := first.regions r (second.regions r live)
  blocks b live := by
    rcases second.blocks b live with before | ⟨r, mem, placed⟩
    · rcases first.blocks b before with old | ⟨r, mem, k, links, container⟩
      · exact .inl old
      · -- A body stays where it was put.
        obtain ⟨k', links', same⟩ := second.larger.containers .blocks b k links
        exact .inr ⟨r, List.mem_append_left rs' mem, k', links', same.trans container⟩
    · exact .inr ⟨r, List.mem_append_right rs mem, placed⟩

/-- A new node may be put into a list. -/
theorem Extends.splice (larger : Extends ctx between) {l : Level} {n : Handle l.node}
    (fresh : ¬ ctx.Live (.ofNode l n)) (c : Handle l.container)
    (prev next : Option (Handle l.node)) :
    Extends ctx (between.splice l n c prev next) where
  makings x live :=
    ((between.splice_sameContents l n c prev next).makings x).trans (larger.makings x live)
  containers l' n' k live := by
    obtain ⟨k', live', same⟩ := larger.containers l' n' k live
    by_cases level : l' = l
    · subst level
      have other : n' ≠ n := by
        rintro rfl
        exact fresh (live_ofNode.mpr ⟨k, live⟩)
      exact ⟨_, links_splice live' other, same⟩
    · exact ⟨k', ((splice_beside between l n c prev next).links l' level n').trans live', same⟩

/-- A new block at the back of a region is its body. -/
theorem WellFormed.bodied_of_pushBack (wf : ctx.WellFormed) {r : RegionRef}
    (pushed : (ctx.newBlock none []).2.pushBack .blocks (ctx.newBlock none []).1 r = .ok ctx') :
    Bodied ctx ctx' [r] := by
  have wf' := wf.newBlock none []
  have linked : (ctx.newBlock none []).2.link .blocks (ctx.newBlock none []).1 (.back r) =
      .ok ctx' := pushed
  obtain ⟨free, c, ys, zs, ⟨rfl, -⟩, listed, rfl⟩ := (link_eq_ok wf').mp linked
  have contents := (ctx.newBlock none []).2.splice_sameContents .blocks (ctx.newBlock none []).1 r
    ys.getLast? zs.head?
  have fresh := ctx.not_live_newBlock none []
  constructor
  case wellFormed => exact wf'.link linked
  case larger => exact (ctx.newBlock_extends none []).splice (l := .blocks) fresh r _ _
  case operations => exact (splice_blocks_sameOperations _ _ _ _ _).operations
  case regions =>
    intro r' live
    exact (((ctx.live_newBlock none [] _).mp ((contents.live _).mp live)).resolve_right nofun)
  case blocks =>
    intro b live
    refine ((ctx.live_newBlock none [] _).mp ((contents.live _).mp live)).imp_right ?_
    rintro ⟨⟩
    exact ⟨r, List.mem_singleton_self r, _, links_splice_self free, rfl⟩

theorem WellFormed.bodied_of_addBodies (wf : ctx.WellFormed) {rs : List RegionRef}
    (added : ctx.addBodies rs = .ok ctx') : Bodied ctx ctx' rs := by
  induction rs generalizing ctx with
  | nil =>
    cases added
    exact wf.bodied_self []
  | cons r rs ih =>
    obtain ⟨between, pushed, added⟩ := Except.bind_eq_ok.mp added
    have first := wf.bodied_of_pushBack pushed
    exact first.append (ih first.wellFormed added)

/-- A new operation, with its regions and their bodies, is all that is new. -/
theorem OperationAdded.changes (added : OperationAdded ctx between op o) (wf : ctx.WellFormed)
    (bodied : Bodied between ctx' o.regions) :
    Changes ctx ctx' (ReflTransGen ctx'.Holds (.operation op)) (fun _ => False) := by
  have wf' := bodied.wellFormed
  have live : ctx'.operation op = .ok o := by
    rw [operation_eq_ok, bodied.operations, ← operation_eq_ok]
    exact added.live
  have region : ∀ r ∈ o.regions, ctx'.Holds (.operation op) (.region r) := fun r mem =>
    .region (regionsOf_of_operation live) mem
  refine (added.larger.trans bodied.larger).changes wf wf' added.not_live ⟨o, live⟩
    fun x live' => ?_
  cases x with
  | operation p =>
    obtain ⟨o', found⟩ := live'
    rw [operation_eq_ok, bodied.operations, ← operation_eq_ok, added.operation] at found
    by_cases new : p = op
    · exact .inr (new ▸ .refl)
    · rw [if_neg new] at found
      exact .inl ⟨o', found⟩
  | region r =>
    obtain ⟨content, found⟩ := bodied.regions r live'
    rw [added.region] at found
    by_cases new : r ∈ o.regions
    · exact .inr (.single (region r new))
    · rw [if_neg new] at found
      exact .inl ⟨content, found⟩
  | block b =>
    rcases bodied.blocks b live' with ⟨content, old⟩ | ⟨r, mem, k, links, container⟩
    · rw [block_eq_ok, added.blocks, ← block_eq_ok] at old
      exact .inl ⟨content, old⟩
    · obtain ⟨bs, listed, inside⟩ := wf'.linked links container
      exact .inr (.tail (.single (region r mem)) (.block listed inside))

theorem WellFormed.newOperation_changes (wf : ctx.WellFormed) (id : QualifiedName)
    (resultTypes : List TypeRef) (operands : List Value) (regionCount : Nat)
    (attributes : AttributeDict) (location : Location) :
    let new := ctx.newOperation id resultTypes operands regionCount attributes location
    Changes ctx new.2 (ReflTransGen new.2.Holds (.operation new.1)) (fun _ => False) := by
  obtain ⟨regions, -, added⟩ :=
    ctx.newOperation_added id resultTypes operands regionCount attributes location
  exact added.changes wf ((wf.of_grown added.grown).bodied_self _)

theorem WellFormed.newWithBodies_changes (wf : ctx.WellFormed) {id : QualifiedName}
    {resultTypes : List TypeRef} {operands : List Value} {regionCount : Nat}
    {attributes : AttributeDict}
    (made : ctx.newWithBodies id resultTypes operands regionCount attributes = .ok (op, ctx')) :
    Changes ctx ctx' (ReflTransGen ctx'.Holds (.operation op)) (fun _ => False) := by
  obtain ⟨regions, -, added⟩ :=
    ctx.newOperation_added id resultTypes operands regionCount attributes .unknown
  obtain ⟨o, live, made⟩ := Except.bind_eq_ok.mp made
  cases added.live.symm.trans live
  obtain ⟨between, bodies, same⟩ := Except.bind_eq_ok.mp made
  cases same
  exact added.changes wf ((wf.of_grown added.grown).bodied_of_addBodies bodies)

/-! ## Operations without regions -/

theorem below_iff_of_plain (regions : ctx.regionsOf op = .ok []) :
    ReflTransGen ctx.Holds (.operation op) x ↔ x = .operation op := by
  constructor
  · intro below
    rcases ReflTransGen.cases_head below with same | ⟨y, held, -⟩
    · exact same.symm
    · cases held with
      | region regions' mem =>
        cases regions.symm.trans regions'
        cases mem
  · rintro rfl
    exact .refl

/-- An operation without regions is all that is new, wherever it is put. -/
theorem OperationAdded.changes_of_plain (added : OperationAdded ctx between op o)
    (plain : o.regions = []) (wf : ctx.WellFormed) (same : SameContents between ctx') :
    Changes ctx ctx' (· = .operation op) (fun _ => False) := by
  have regions : between.regionsOf op = .ok [] := plain ▸ regionsOf_of_operation added.live
  have first := added.changes wf ((wf.of_grown added.grown).bodied_self _)
  refine (first.congr (fun x => ?_) fun x => Iff.rfl).followed (fun _ none => none) same.makings
  exact (below_iff_of_plain regions).symm

end Context

end HardwareIR
