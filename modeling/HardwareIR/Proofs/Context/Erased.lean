import HardwareIR.Proofs.Context.Ancestor
import HardwareIR.Proofs.Context.Erasure
import HardwareIR.Proofs.Context.Later

/-! # What an erasure leaves

Where no operation is inside itself, an erasure frees the operation and everything that was nested
in it, and closes the gap in the block that the operation was in.  Everything else stays as it is
(`Context.Erased`), and the handles of what was freed are stale for good
(`Context.retired_of_freed`).
-/

namespace HardwareIR

open Relation (ReflTransGen TransGen)

namespace Context

variable {ctx between ctx' : Context} {op : OpRef} {o : Operation} {x y : Object} {xs : List Object}

/-! ## Freed objects -/

theorem Freed.live (gone : Freed ctx ctx' xs) (x : Object) : ctx'.Live x ↔ x ∉ xs ∧ ctx.Live x := by
  cases x with
  | operation op =>
    simp only [Live, gone.operation, if_freed_eq_ok, exists_and_left]
  | region r =>
    simp only [Live, gone.region, if_freed_eq_ok, exists_and_left]
  | block b =>
    simp only [Live, gone.block, if_freed_eq_ok, exists_and_left]

/-- Objects are freed one after the other, and what is gone then does not come back. -/
theorem retired_of_freed (live : ctx.Live x) (mem : x ∈ xs) :
    (xs.foldl release ctx).Retired x := by
  induction xs generalizing ctx with
  | nil => cases mem
  | cons y ys ih =>
    rw [List.foldl_cons]
    by_cases here : x = y
    · subst here
      exact (retired_release live).later (foldl_release_later _ ys)
    · -- It is still live after the first one was freed.
      have first : Freed ctx (ctx.release y) [y] := foldl_release_freed ctx [y]
      refine ih ((first.live x).mpr ⟨by simpa using here, live⟩) ?_
      exact (List.mem_cons.mp mem).resolve_left here

/-! ## Out of its block -/

theorem SameContents.regionsOf (same : SameContents ctx ctx') (op : OpRef) :
    ctx'.regionsOf op = ctx.regionsOf op := by
  have contents := congrArg (Except.map Operation.regions) (same.operation op)
  simp only [Except.map_map] at contents
  exact contents

theorem SameContents.live (same : SameContents ctx ctx') (x : Object) :
    ctx'.Live x ↔ ctx.Live x := by
  cases x with
  | operation op =>
    have contents := same.operation op
    simp only [Live]
    cases h : ctx.operation op <;> cases h' : ctx'.operation op <;> simp_all
  | region r =>
    have owner := same.owner r
    simp only [ownerOf] at owner
    simp only [Live]
    cases h : ctx.region r <;> cases h' : ctx'.region r <;> simp_all
  | block b =>
    have contents := same.block b
    simp only [Live]
    cases h : ctx.block b <;> cases h' : ctx'.block b <;> simp_all

/-- Nothing but its place was taken from the operation. -/
theorem Unplaced.holds_iff (unplaced : Unplaced ctx between op o) (wf : ctx.WellFormed)
    (wf' : between.WellFormed) :
    between.Holds x y ↔ ctx.Holds x y ∧ y ≠ .operation op := by
  constructor
  · intro held
    refine ⟨?_, fun same => not_held_of_free unplaced.free (same ▸ held)⟩
    cases held with
    | region regions mem => exact .region (unplaced.contents.regionsOf _ ▸ regions) mem
    | @block r bs b listed mem =>
      exact .block (wf.listed_of_members (unplaced.blockLists r ▸ listed.members)) mem
    | @operation b ops p listed mem =>
      -- The list that the operation was in has lost nothing else.
      by_cases container : o.links.container = some b
      · obtain ⟨ys, zs, before, after⟩ := unplaced.list b container
        cases after.symm.trans listed.members
        exact .operation (wf.listed_of_members before)
          (List.mem_append.mpr ((List.mem_append.mp mem).imp_right (List.mem_cons_of_mem op)))
      · exact .operation (wf.listed_of_members (unplaced.lists b container ▸ listed.members)) mem
  · rintro ⟨held, other⟩
    cases held with
    | region regions mem => exact .region ((unplaced.contents.regionsOf _).trans regions) mem
    | @block r bs b listed mem =>
      exact .block (wf'.listed_of_members ((unplaced.blockLists r).trans listed.members)) mem
    | @operation b ops p listed mem =>
      by_cases container : o.links.container = some b
      · obtain ⟨ys, zs, before, after⟩ := unplaced.list b container
        cases before.symm.trans listed.members
        have left : p ∈ ys ++ zs := by
          have away : p ≠ op := fun same => other (same ▸ rfl)
          simpa [away] using mem
        exact .operation (wf'.listed_of_members after) left
      · exact .operation
          (wf'.listed_of_members ((unplaced.lists b container).trans listed.members)) mem

/-- An operation holds what it held in its block. -/
theorem Unplaced.below_iff (unplaced : Unplaced ctx between op o) (wf : ctx.WellFormed)
    (wf' : between.WellFormed) :
    ReflTransGen between.Holds (.operation op) x ↔ ReflTransGen ctx.Holds (.operation op) x := by
  constructor
  · exact fun below => below.lift id fun _ _ held => ((unplaced.holds_iff wf wf').mp held).1
  · intro below
    induction below with
    | refl => exact .refl
    | @tail _ y above held ih =>
      -- A way down that comes by the operation again can be cut short.
      by_cases again : y = .operation op
      · rw [again]
      · exact ih.tail ((unplaced.holds_iff wf wf').mpr ⟨held, again⟩)

/-! ## Erasing -/

/-- An operation that was `o` is gone with everything that was nested in it, and the rest is as it
was. -/
structure Erased (ctx ctx' : Context) (op : OpRef) (o : Operation) : Prop where
  live_iff : ∀ x, ctx'.Live x ↔ ctx.Live x ∧ ¬ ReflTransGen ctx.Holds (.operation op) x
  /-- The block that the operation was in has the others left, in the same order. -/
  list : ∀ b, o.links.container = some b → ∃ ys zs,
    ctx.members .ops b = .ok (ys ++ op :: zs) ∧ ctx'.members .ops b = .ok (ys ++ zs)
  lists : ∀ b, ctx'.Live (.block b) → o.links.container ≠ some b →
    ctx'.members .ops b = ctx.members .ops b
  blockLists : ∀ r, ctx'.Live (.region r) → ctx'.members .blocks r = ctx.members .blocks r
  /-- Only the neighbours of the operation have different links, namely to each other. -/
  operations : ∀ p content, ctx.operation p = .ok content → ctx'.Live (.operation p) →
    ctx'.operation p = .ok { content with links := content.links.bypassed p o.links }
  /-- Only the block that the operation was in may have different ends. -/
  blocks : ∀ b content, ctx.block b = .ok content → ctx'.Live (.block b) →
    ctx'.block b = .ok { content with ends := content.ends.bypassed b o.links }
  regions : ∀ r, ctx'.Live (.region r) → ctx'.region r = ctx.region r
  types : ctx'.types = ctx.types
  registry : ctx'.registry = ctx.registry

theorem Freed.members (gone : Freed ctx ctx' xs) (wf : ctx.WellFormed)
    (closed : ∀ x y, ctx.Holds x y → (x ∈ xs ↔ y ∈ xs)) (l : Level) {c : Handle l.container}
    (left : .ofContainer l c ∉ xs) : ctx'.members l c = ctx.members l c := by
  refine wf.members_congr ?_ fun nodes listed => gone.listed closed listed left
  rw [gone.ends, if_neg left]

/-- Every live operation can be erased.  It is taken out of its block, and then what is nested in it
is freed, for good. -/
theorem WellFormed.exists_freed (wf : ctx.WellFormed) (live : ctx.operation op = .ok o) :
    ∃ between ctx' xs, ctx.erase op = .ok ctx' ∧ Unplaced ctx between op o ∧
      between.WellFormed ∧ Freed between ctx' xs ∧
      ∀ x, (x ∈ xs ↔ ReflTransGen ctx.Holds (.operation op) x) ∧
        (ReflTransGen ctx.Holds (.operation op) x → ctx'.Retired x) := by
  obtain ⟨between, t, unplaced, wf', tree, erased⟩ := wf.erase_eq_ok live
  refine ⟨between, _, t.postorder, erased, unplaced, wf', foldl_release_freed between _,
    fun x => ?_⟩
  have below : x ∈ t.postorder ↔ ReflTransGen ctx.Holds (.operation op) x :=
    (wf'.mem_postorder_iff tree).trans (unplaced.below_iff wf wf')
  refine ⟨below, fun nested => ?_⟩
  have root : ctx.Live (.operation op) := ⟨o, live⟩
  have live' : ctx.Live x := wf.live_of_below root nested
  exact retired_of_freed ((unplaced.contents.live x).mpr live') (below.mpr nested)

/-- Every live operation that is not inside itself can be erased, with what is nested in it. -/
theorem WellFormed.exists_erased (wf : ctx.WellFormed) (acyclic : ctx.Acyclic)
    (live : ctx.operation op = .ok o) :
    ∃ ctx', ctx.erase op = .ok ctx' ∧ Erased ctx ctx' op o ∧
      ∀ x, ReflTransGen ctx.Holds (.operation op) x → ctx'.Retired x := by
  obtain ⟨between, ctx', xs, erased, unplaced, wf', gone, freed⟩ := wf.exists_freed live
  have below : ∀ x, x ∈ xs ↔ ReflTransGen ctx.Holds (.operation op) x := fun x => (freed x).1
  have closed : ∀ x y, between.Holds x y → (x ∈ xs ↔ y ∈ xs) := by
    intro x y held
    rw [below, below, ← unplaced.below_iff wf wf', ← unplaced.below_iff wf wf']
    exact wf'.below_iff_of_free unplaced.free held
  have left : ∀ {x}, ctx'.Live x → x ∉ xs := fun live' => ((gone.live _).mp live').1
  refine ⟨ctx', erased, ?_, fun x => (freed x).2⟩
  constructor
  case live_iff =>
    intro x
    rw [gone.live, below, unplaced.contents.live, and_comm]
  case list =>
    intro b container
    obtain ⟨ys, zs, before, after⟩ := unplaced.list b container
    -- The block holds the operation, so it is not nested in it.
    have outside : .block b ∉ xs := by
      rw [below]
      intro inside
      exact acyclic op (.tail' inside (.operation (wf.listed_of_members before) (by simp)))
    exact ⟨ys, zs, before, (gone.members wf' closed .ops outside).trans after⟩
  case lists =>
    intro b live' container
    exact (gone.members wf' closed .ops (left live')).trans (unplaced.lists b container)
  case blockLists =>
    intro r live'
    exact (gone.members wf' closed .blocks (left live')).trans (unplaced.blockLists r)
  case operations =>
    intro p content found live'
    have other : p ≠ op := by
      rintro rfl
      exact left live' ((below _).mpr .refl)
    rw [gone.operation, if_neg (left live')]
    exact unplaced.operations p content other found
  case blocks =>
    intro b content found live'
    rw [gone.block, if_neg (left live')]
    exact unplaced.blocks b content found
  case regions =>
    intro r live'
    rw [gone.region, if_neg (left live')]
    exact unplaced.regions r
  case types => exact gone.types.trans unplaced.contents.types
  case registry => exact gone.registry.trans unplaced.contents.registry

end Context

end HardwareIR
