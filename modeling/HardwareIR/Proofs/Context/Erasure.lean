import HardwareIR.Proofs.Context.Nesting
import HardwareIR.Proofs.Context.Removal

/-! # Erasure

Erasing an operation frees the operation and all that it holds at any depth, and nothing else
(`Context.WellFormed.erase_ok`).  It works for every live operation: once the operation is out of
its block nothing holds it, so that nothing below it can be inside itself.
-/

namespace HardwareIR

open Relation (ReflTransGen)

namespace Context

variable {ctx ctx' : Context} {x y : Object} {xs : List Object}

/-! ## Freed objects -/

/-- Some objects are gone, and all others are as before. -/
structure Freed (ctx ctx' : Context) (xs : List Object) : Prop where
  operation : ∀ op, ctx'.operation op =
    if .operation op ∈ xs then Misuse.freed.throw else ctx.operation op
  block : ∀ b, ctx'.block b = if .block b ∈ xs then Misuse.freed.throw else ctx.block b
  region : ∀ r, ctx'.region r = if .region r ∈ xs then Misuse.freed.throw else ctx.region r
  types : ctx'.types = ctx.types
  registry : ctx'.registry = ctx.registry

theorem operation_release (ctx : Context) (x : Object) (op : OpRef) :
    (ctx.release x).operation op =
      if x = .operation op then Misuse.freed.throw else ctx.operation op := by
  cases x with
  | operation op' =>
    simp only [release, operation, Arena.get?_erase, Object.operation.injEq]
    by_cases same : op = op'
    · simp only [same, ↓reduceIte]
    · simp only [same, Ne.symm same, ↓reduceIte]
  | region r => rfl
  | block b => rfl

theorem block_release (ctx : Context) (x : Object) (b : BlockRef) :
    (ctx.release x).block b = if x = .block b then Misuse.freed.throw else ctx.block b := by
  cases x with
  | operation op => rfl
  | region r => rfl
  | block b' =>
    simp only [release, block, Arena.get?_erase, Object.block.injEq]
    by_cases same : b = b'
    · simp only [same, ↓reduceIte]
    · simp only [same, Ne.symm same, ↓reduceIte]

theorem region_release (ctx : Context) (x : Object) (r : RegionRef) :
    (ctx.release x).region r = if x = .region r then Misuse.freed.throw else ctx.region r := by
  cases x with
  | operation op => rfl
  | region r' =>
    simp only [release, region, Arena.get?_erase, Object.region.injEq]
    by_cases same : r = r'
    · simp only [same, ↓reduceIte]
    · simp only [same, Ne.symm same, ↓reduceIte]
  | block b => rfl

/-- Two rounds of freeing are one. -/
theorem if_freed_cons {α : Type} {y : Object} (live : Except Fault α) :
    (if y ∈ xs then Misuse.freed.throw else if x = y then Misuse.freed.throw else live) =
      if y ∈ x :: xs then Misuse.freed.throw else live := by
  by_cases first : x = y
  · simp [first]
  · simp [first, Ne.symm first]

theorem foldl_release_freed (ctx : Context) (xs : List Object) :
    Freed ctx (xs.foldl release ctx) xs := by
  induction xs generalizing ctx with
  | nil => exact ⟨fun _ => rfl, fun _ => rfl, fun _ => rfl, rfl, rfl⟩
  | cons x xs ih =>
    obtain ⟨operation, block, region, types, registry⟩ := ih (ctx.release x)
    rw [List.foldl_cons]
    constructor
    · intro op
      rw [operation, operation_release, if_freed_cons]
    · intro b
      rw [block, block_release, if_freed_cons]
    · intro r
      rw [region, region_release, if_freed_cons]
    · rw [types]
      cases x <;> rfl
    · rw [registry]
      cases x <;> rfl

/-! ## What is left -/

theorem Freed.links (gone : Freed ctx ctx' xs) (l : Level) (x : Handle l.node) :
    ctx'.links l x = if .ofNode l x ∈ xs then Misuse.freed.throw else ctx.links l x := by
  cases l with
  | ops =>
    rw [links_ops, links_ops, gone.operation, Object.ofNode]
    split <;> rfl
  | blocks =>
    rw [links_blocks, links_blocks, gone.block, Object.ofNode]
    split <;> rfl

theorem Freed.ends (gone : Freed ctx ctx' xs) (l : Level) (c : Handle l.container) :
    ctx'.ends l c = if .ofContainer l c ∈ xs then Misuse.freed.throw else ctx.ends l c := by
  cases l with
  | ops =>
    rw [ends_ops, ends_ops, gone.block, Object.ofContainer]
    split <;> rfl
  | blocks =>
    rw [ends_blocks, ends_blocks, gone.region, Object.ofContainer]
    split <;> rfl

theorem Freed.regionsOf (gone : Freed ctx ctx' xs) (op : OpRef) :
    ctx'.regionsOf op = if .operation op ∈ xs then Misuse.freed.throw else ctx.regionsOf op := by
  rw [Context.regionsOf, Context.regionsOf, gone.operation]
  split <;> rfl

theorem Freed.ownerOf (gone : Freed ctx ctx' xs) (r : RegionRef) :
    ctx'.ownerOf r = if .region r ∈ xs then Misuse.freed.throw else ctx.ownerOf r := by
  rw [Context.ownerOf, Context.ownerOf, gone.region]
  split <;> rfl

/-- What is live after objects were freed is none of them. -/
theorem if_freed_eq_ok {α : Type} {live : Except Fault α} {a : α} :
    (if y ∈ xs then Misuse.freed.throw else live) = .ok a ↔ y ∉ xs ∧ live = .ok a := by
  by_cases freed : y ∈ xs
  · simp [freed, Misuse.throw]
  · simp [freed]

theorem Freed.listed (gone : Freed ctx ctx' xs)
    (closed : ∀ x y, ctx.Holds x y → (x ∈ xs ↔ y ∈ xs)) {l : Level} {c : Handle l.container}
    {nodes : List (Handle l.node)} (listed : ctx.Listed l c nodes)
    (left : .ofContainer l c ∉ xs) : ctx'.Listed l c nodes := by
  refine listed.congr ?_ fun node mem => ?_
  · rw [gone.ends, if_neg left]
  · rw [gone.links, if_neg fun freed => left ((closed _ _ (listed.holds mem)).mpr freed)]

/-- Where all that is held by freed objects is freed, and nothing else that is held by anything,
what is left is well-formed. -/
theorem WellFormed.of_freed (wf : ctx.WellFormed) (gone : Freed ctx ctx' xs)
    (closed : ∀ x y, ctx.Holds x y → (x ∈ xs ↔ y ∈ xs)) : ctx'.WellFormed := by
  -- With an object that is left, the one that holds it and those that it holds are left too.
  constructor
  · intro l c e live
    rw [gone.ends, if_freed_eq_ok] at live
    obtain ⟨nodes, listed⟩ := wf.listed live.2
    exact ⟨nodes, gone.listed closed listed live.1⟩
  · intro l node k c live container
    rw [gone.links, if_freed_eq_ok] at live
    obtain ⟨nodes, listed, mem⟩ := wf.linked live.2 container
    have left : .ofContainer l c ∉ xs := fun freed =>
      live.1 ((closed _ _ (listed.holds mem)).mp freed)
    exact ⟨nodes, gone.listed closed listed left, mem⟩
  · intro l node k live
    rw [gone.links, if_freed_eq_ok] at live
    exact wf.unlinked live.2
  · intro op rs live
    rw [gone.regionsOf, if_freed_eq_ok] at live
    obtain ⟨nodup, owned⟩ := wf.regions live.2
    refine ⟨nodup, fun r mem => ?_⟩
    have left : .region r ∉ xs := fun freed =>
      live.1 ((closed _ _ (.region live.2 mem)).mpr freed)
    rw [gone.ownerOf, if_neg left]
    exact owned r mem
  · intro r op live
    rw [gone.ownerOf, if_freed_eq_ok] at live
    obtain ⟨rs, listed, mem⟩ := wf.owner live.2
    have left : .operation op ∉ xs := fun freed =>
      live.1 ((closed _ _ (.region listed mem)).mp freed)
    refine ⟨rs, ?_, mem⟩
    rw [gone.regionsOf, if_neg left]
    exact listed

/-! ## Operations in no block -/

variable {op : OpRef} {o : Operation}

/-- Nothing holds an operation that is in no block. -/
theorem not_held_of_free (free : ctx.links .ops op = .ok {}) : ¬ ctx.Holds x (.operation op) := by
  intro held
  cases held with
  | operation listed mem => exact absurd (listed.eq_of_mem mem free) (by simp)

theorem WellFormed.exists_tree_of_free (wf : ctx.WellFormed) (free : ctx.links .ops op = .ok {}) :
    ∃ t, ctx.tree (.operation op) = .ok t := by
  obtain ⟨o, live, -⟩ := operation_of_links free
  refine wf.tree_ok ⟨o, live⟩ fun y below => ?_
  exact wf.acyclic_of_not_held (fun _ => not_held_of_free free) below

/-- Of an object and what holds it, both are nested in an operation that is in no block, or
neither: an object has one holder only, and the operation has none. -/
theorem WellFormed.below_iff_of_free (wf : ctx.WellFormed) (free : ctx.links .ops op = .ok {})
    (held : ctx.Holds x y) :
    ReflTransGen ctx.Holds (.operation op) x ↔ ReflTransGen ctx.Holds (.operation op) y := by
  constructor
  · exact fun above => above.tail held
  · intro below
    rcases ReflTransGen.cases_tail below with rfl | ⟨x', above, held'⟩
    · exact absurd held (not_held_of_free free)
    · exact wf.holder_unique held' held ▸ above

/-- Freeing the tree of an operation that is in no block keeps a context well-formed. -/
theorem WellFormed.free_tree (wf : ctx.WellFormed) (free : ctx.links .ops op = .ok {}) {t : Tree}
    (tree : ctx.tree (.operation op) = .ok t) :
    (t.postorder.foldl release ctx).WellFormed := by
  refine wf.of_freed (foldl_release_freed ctx t.postorder) fun x y held => ?_
  rw [wf.mem_postorder_iff tree, wf.mem_postorder_iff tree]
  exact wf.below_iff_of_free free held

/-! ## Erasing an operation -/

/-- Erasing takes an operation out of its list, and then frees objects. -/
theorem erase_frame (erased : ctx.erase op = .ok ctx') :
    ∃ between xs, SameContents ctx between ∧ Freed between ctx' xs := by
  obtain ⟨linked, -, erased⟩ := Except.bind_eq_ok.mp erased
  cases linked with
  | true =>
    obtain ⟨between, unlinked, erased⟩ := Except.bind_eq_ok.mp erased
    obtain ⟨t, -, same⟩ := Except.bind_eq_ok.mp erased
    cases same
    exact ⟨between, _, unlink_sameContents unlinked, foldl_release_freed between _⟩
  | false =>
    obtain ⟨between, kept, erased⟩ := Except.bind_eq_ok.mp erased
    cases kept
    obtain ⟨t, -, same⟩ := Except.bind_eq_ok.mp erased
    cases same
    exact ⟨ctx, _, .refl ctx, foldl_release_freed ctx _⟩

/-- Every live operation can be erased: it is taken out of its block, and then what is nested in it
is freed. -/
theorem WellFormed.erase_eq_ok (wf : ctx.WellFormed) (live : ctx.operation op = .ok o) :
    ∃ between t, Unplaced ctx between op o ∧ between.WellFormed ∧
      between.tree (.operation op) = .ok t ∧
      ctx.erase op = .ok (t.postorder.foldl release between) := by
  have links := links_of_operation live
  cases container : o.links.container with
  | none =>
    have clear : o.links = {} := wf.unlinked links container
    obtain ⟨t, tree⟩ := wf.exists_tree_of_free (clear ▸ links)
    refine ⟨ctx, t, unplaced_self live clear, wf, tree, ?_⟩
    simp [Context.erase, isLinked, links, container, tree]
  | some b =>
    -- Out of its block the operation is a free one.
    obtain ⟨ops, listed, mem⟩ := wf.linked links container
    obtain ⟨ys, zs, rfl⟩ := List.append_of_mem mem
    have unlinked := (unlink_eq_ok wf).mpr ⟨b, ys, zs, listed, rfl⟩
    have wf' := wf.unlink unlinked
    obtain ⟨t, tree⟩ := wf'.exists_tree_of_free listed.links_bypass_self
    refine ⟨_, t, wf.unplaced_of_bypass listed live, wf', tree, ?_⟩
    simp [Context.erase, isLinked, links, container, unlinked, tree]

/-- Erasing fails for a stale handle only, so that it keeps a context well-formed where it
succeeds. -/
theorem WellFormed.erase (wf : ctx.WellFormed) (erased : ctx.erase op = .ok ctx') :
    ctx'.WellFormed := by
  cases live : ctx.operation op with
  | ok o =>
    obtain ⟨between, t, unplaced, wf', tree, erased'⟩ := wf.erase_eq_ok live
    rw [erased] at erased'
    cases erased'
    exact wf'.free_tree unplaced.free tree
  | error fault =>
    simp [Context.erase, isLinked, Context.links, live] at erased

end Context

end HardwareIR
