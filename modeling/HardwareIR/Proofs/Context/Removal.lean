import HardwareIR.Proofs.Context.Frame

/-! # What a removal leaves

Taking an operation out of its block makes neighbours of the operations that were next to it, or
ends of the list where there was none on one side (`Links.bypassed`, `Ends.bypassed`).  Nothing else
is different afterwards (`Context.Unplaced`).
-/

namespace HardwareIR

/-- The links of `p` after a node has left its list, where `gone` are the links that it had. -/
def Links.bypassed {l : Level} (k : Links l) (p : Handle l.node) (gone : Links l) : Links l :=
  { k with
    prev := if gone.next = some p then gone.prev else k.prev
    next := if gone.prev = some p then gone.next else k.next }

/-- The ends of the list of `c` after a node has left its list, where `gone` are the links that it
had. -/
def Ends.bypassed {l : Level} (e : Ends l) (c : Handle l.container) (gone : Links l) : Ends l :=
  if gone.container = some c then
    ⟨if gone.prev = none then gone.next else e.head,
      if gone.next = none then gone.prev else e.tail⟩
  else e

/-- A node that was in no list has left no gap. -/
@[simp] theorem Links.bypassed_empty {l : Level} (k : Links l) (p : Handle l.node) :
    k.bypassed p {} = k := by
  simp [bypassed]

@[simp] theorem Ends.bypassed_empty {l : Level} (e : Ends l) (c : Handle l.container) :
    e.bypassed c {} = e := by
  simp [bypassed]

theorem Block.eq_of_contents {b b' : Block} (same : b'.contents = b.contents) :
    b' = { b with ends := b'.ends, links := b'.links } := by
  cases b
  cases b'
  simp_all [Block.contents]

namespace Context

variable {ctx between : Context} {l : Level} {x : Handle l.node} {c : Handle l.container}
  {ys zs : List (Handle l.node)}

/-! ## Lists -/

/-- Bypassing a node leaves all other lists of the level alone. -/
theorem WellFormed.members_bypass (wf : ctx.WellFormed) (listed : ctx.Listed l c (ys ++ x :: zs))
    (c' : Handle l.container) :
    (ctx.bypass l x c ys.getLast? zs.head?).members l c' =
      if c' = c then .ok (ys ++ zs) else ctx.members l c' := by
  by_cases here : c' = c
  · rw [if_pos here, here]
    exact listed.bypass.members
  · rw [if_neg here]
    refine wf.members_congr (ends_bypass_of_ne here) fun xs before => ?_
    have kept := WellFormed.listed_bypass listed before
    rwa [if_neg here] at kept

theorem WellFormed.members_bypass_beside (wf : ctx.WellFormed) {l' : Level} (other : l' ≠ l)
    {prev next : Option (Handle l.node)} (c' : Handle l'.container) :
    (ctx.bypass l x c prev next).members l' c' = ctx.members l' c' := by
  have beside := bypass_beside ctx l x c prev next
  refine wf.members_congr (beside.ends l' other c') fun xs before => ?_
  exact before.congr (beside.ends l' other c') fun y _ => beside.links l' other y

/-! ## Operations -/

variable {op : OpRef} {o : Operation} {b : BlockRef} {before after : List OpRef}

/-- An operation that was `o` is in no block now, the gap that it left is closed, and nothing else
is different. -/
structure Unplaced (ctx between : Context) (op : OpRef) (o : Operation) : Prop where
  contents : SameContents ctx between
  free : between.links .ops op = .ok {}
  operations : ∀ p content, p ≠ op → ctx.operation p = .ok content →
    between.operation p = .ok { content with links := content.links.bypassed p o.links }
  blocks : ∀ b content, ctx.block b = .ok content →
    between.block b = .ok { content with ends := content.ends.bypassed b o.links }
  regions : ∀ r, between.region r = ctx.region r
  list : ∀ b, o.links.container = some b → ∃ ys zs,
    ctx.members .ops b = .ok (ys ++ op :: zs) ∧ between.members .ops b = .ok (ys ++ zs)
  lists : ∀ b, o.links.container ≠ some b → between.members .ops b = ctx.members .ops b
  blockLists : ∀ r, between.members .blocks r = ctx.members .blocks r

/-- Bypassing an operation takes it out of its block. -/
theorem WellFormed.unplaced_of_bypass (wf : ctx.WellFormed)
    (listed : ctx.Listed .ops b (before ++ op :: after)) (live : ctx.operation op = .ok o) :
    Unplaced ctx (ctx.bypass .ops op b before.getLast? after.head?) op o := by
  have links : o.links = ⟨before.getLast?, after.head?, some b⟩ :=
    Except.ok.inj ((links_of_operation live).symm.trans (listed.links before op after rfl))
  have contents := ctx.bypass_sameContents .ops op b before.getLast? after.head?
  constructor
  case contents => exact contents
  case free => exact listed.links_bypass_self
  case operations =>
    intro p content other found
    have bypassed : (ctx.bypass .ops op b before.getLast? after.head?).links .ops p = .ok _ :=
      links_bypass (links_of_operation found) other
    obtain ⟨content', found', same⟩ := operation_of_links bypassed
    obtain ⟨content₀, found₀, kept⟩ := contents.operation_eq_ok found'
    cases found.symm.trans found₀
    rw [found', Operation.eq_of_contents kept, same, links]
    rfl
  case blocks =>
    intro b' content found
    have kept := contents.block b'
    rw [found, Except.map_ok, Except.map_eq_ok] at kept
    obtain ⟨content', found', same⟩ := kept
    have beside := (ctx.bypass_beside .ops op b before.getLast? after.head?).links .blocks
      (by decide) b'
    rw [links_of_block found, links_of_block found', Except.ok.injEq] at beside
    have ends : content'.ends = content.ends.bypassed b' o.links := by
      have bypassed := ends_of_block found'
      unfold Ends.bypassed
      by_cases here : b' = b
      · subst here
        rw [ends_bypass (ends_of_block found), Except.ok.injEq] at bypassed
        rw [← bypassed, links, if_pos rfl]
      · rw [ends_bypass_of_ne here, ends_of_block found, Except.ok.injEq] at bypassed
        rw [← bypassed, links, if_neg fun same => here (Option.some.inj same).symm]
    rw [found', Block.eq_of_contents same, ends, beside]
  case regions =>
    intro r
    cases before.getLast? <;> cases after.head? <;> rfl
  case list =>
    intro b' container
    rw [links] at container
    cases container
    exact ⟨before, after, listed.members, (wf.members_bypass listed b).trans (if_pos rfl)⟩
  case lists =>
    intro b' container
    have other : b' ≠ b := by
      rintro rfl
      exact container (by rw [links])
    rw [wf.members_bypass listed, if_neg other]
  case blockLists => exact fun r => wf.members_bypass_beside (by decide) r

/-- An operation that is in no block is left where it is. -/
theorem unplaced_self (live : ctx.operation op = .ok o) (free : o.links = {}) :
    Unplaced ctx ctx op o where
  contents := .refl ctx
  free := free ▸ links_of_operation live
  operations p content _ found := by rw [free, Links.bypassed_empty, found]
  blocks b content found := by rw [free, Ends.bypassed_empty, found]
  regions _ := rfl
  list b container := by
    rw [free] at container
    cases container
  lists _ _ := rfl
  blockLists _ := rfl

end Context

end HardwareIR
