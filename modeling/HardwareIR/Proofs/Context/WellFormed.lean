import HardwareIR.Proofs.Context.Walk

/-! # Well-formed contexts

In a well-formed context the links and the ends of every list fit together at both levels, and
regions and the operations that list them name each other.  The two ways in which links are
written, `Context.splice` and `Context.bypass`, keep a context well-formed where they are used.
-/

namespace HardwareIR

namespace Context

variable {ctx ctx' : Context} {l : Level} {x : Handle l.node} {c : Handle l.container}
  {xs ys zs : List (Handle l.node)}

/-- Every list is well chained, and regions belong to the operations that list them. -/
structure WellFormed (ctx : Context) : Prop where
  /-- A live container has a list. -/
  listed : ∀ {l : Level} {c : Handle l.container} {e : Ends l}, ctx.ends l c = .ok e →
    ∃ xs, ctx.Listed l c xs
  /-- A node with a container is in the list of that container. -/
  linked : ∀ {l : Level} {x : Handle l.node} {k : Links l} {c : Handle l.container},
    ctx.links l x = .ok k → k.container = some c → ∃ xs, ctx.Listed l c xs ∧ x ∈ xs
  /-- A node without a container has no neighbours. -/
  unlinked : ∀ {l : Level} {x : Handle l.node} {k : Links l},
    ctx.links l x = .ok k → k.container = none → k = {}
  /-- The regions of an operation are live, are listed once, and name it as their owner. -/
  regions : ∀ {op : OpRef} {rs : List RegionRef}, ctx.regionsOf op = .ok rs →
    rs.Nodup ∧ ∀ r ∈ rs, ctx.ownerOf r = .ok op
  /-- The owner of a region is live and lists it. -/
  owner : ∀ {r : RegionRef} {op : OpRef}, ctx.ownerOf r = .ok op →
    ∃ rs, ctx.regionsOf op = .ok rs ∧ r ∈ rs

namespace WellFormed

/-- Well-formedness is a matter of shape. -/
theorem of_sameShape (wf : ctx.WellFormed) (same : SameShape ctx ctx') : ctx'.WellFormed := by
  have listed : ∀ {l : Level} {c : Handle l.container} {xs : List (Handle l.node)},
      ctx.Listed l c xs → ctx'.Listed l c xs :=
    fun {l c _} h => h.congr (same.ends l c) fun x _ => same.links l x
  constructor
  · intro l c e live
    rw [same.ends] at live
    obtain ⟨xs, h⟩ := wf.listed live
    exact ⟨xs, listed h⟩
  · intro l x k c live container
    rw [same.links] at live
    obtain ⟨xs, h, mem⟩ := wf.linked live container
    exact ⟨xs, listed h, mem⟩
  · intro l x k live
    rw [same.links] at live
    exact wf.unlinked live
  · intro op rs live
    rw [same.regions] at live
    obtain ⟨nodup, owner⟩ := wf.regions live
    exact ⟨nodup, fun r mem => (same.owner r).trans (owner r mem)⟩
  · intro r op live
    rw [same.owner] at live
    obtain ⟨rs, listed, mem⟩ := wf.owner live
    exact ⟨rs, (same.regions op).trans listed, mem⟩

/-- Where an edit at one level keeps the lists of that level chained, the context stays
well-formed. -/
theorem of_beside (wf : ctx.WellFormed) (beside : SameBeside l ctx ctx')
    (listed : ∀ {c : Handle l.container} {e : Ends l}, ctx'.ends l c = .ok e →
      ∃ xs, ctx'.Listed l c xs)
    (linked : ∀ {x : Handle l.node} {k : Links l} {c : Handle l.container},
      ctx'.links l x = .ok k → k.container = some c → ∃ xs, ctx'.Listed l c xs ∧ x ∈ xs)
    (unlinked : ∀ {x : Handle l.node} {k : Links l},
      ctx'.links l x = .ok k → k.container = none → k = {}) : ctx'.WellFormed := by
  have others : ∀ {l' : Level}, l' ≠ l → ∀ {c : Handle l'.container} {xs : List (Handle l'.node)},
      ctx.Listed l' c xs → ctx'.Listed l' c xs :=
    fun {l'} other {c _} h => h.congr (beside.ends l' other c) fun x _ => beside.links l' other x
  constructor
  · intro l' c e live
    by_cases same : l' = l
    · subst same
      exact listed live
    · rw [beside.ends l' same] at live
      obtain ⟨xs, h⟩ := wf.listed live
      exact ⟨xs, others same h⟩
  · intro l' x k c live container
    by_cases same : l' = l
    · subst same
      exact linked live container
    · rw [beside.links l' same] at live
      obtain ⟨xs, h, mem⟩ := wf.linked live container
      exact ⟨xs, others same h, mem⟩
  · intro l' x k live
    by_cases same : l' = l
    · subst same
      exact unlinked live
    · rw [beside.links l' same] at live
      exact wf.unlinked live
  · intro op rs live
    rw [beside.regions] at live
    obtain ⟨nodup, owner⟩ := wf.regions live
    exact ⟨nodup, fun r mem => (beside.owner r).trans (owner r mem)⟩
  · intro r op live
    rw [beside.owner] at live
    obtain ⟨rs, listed, mem⟩ := wf.owner live
    exact ⟨rs, (beside.regions op).trans listed, mem⟩

/-! ## Neighbours -/

/-- Neighbours name each other. -/
theorem next_iff_prev (wf : ctx.WellFormed) {y : Handle l.node} {k k' : Links l}
    (live : ctx.links l x = .ok k) (live' : ctx.links l y = .ok k') :
    k.next = some y ↔ k'.prev = some x := by
  constructor
  · intro next
    cases container : k.container with
    | none =>
      rw [wf.unlinked live container] at next
      cases next
    | some c =>
      obtain ⟨xs, listed, mem⟩ := wf.linked live container
      obtain ⟨ys, zs, rfl⟩ := List.append_of_mem mem
      cases live.symm.trans (listed.links ys x zs rfl)
      obtain ⟨zs', rfl⟩ := List.head?_eq_some_iff.mp next
      cases live'.symm.trans (listed.links (ys ++ [x]) y zs' (by simp))
      exact List.getLast?_concat
  · intro prev
    cases container : k'.container with
    | none =>
      rw [wf.unlinked live' container] at prev
      cases prev
    | some c =>
      obtain ⟨xs, listed, mem⟩ := wf.linked live' container
      obtain ⟨ys, zs, rfl⟩ := List.append_of_mem mem
      cases live'.symm.trans (listed.links ys y zs rfl)
      obtain ⟨ys', rfl⟩ := List.getLast?_eq_some_iff.mp prev
      cases live.symm.trans (listed.links ys' x (y :: zs) (by simp))
      rfl

/-! ## Insertion -/

/-- Every list after an insertion: that of the container has the node, the others are as before. -/
theorem listed_splice (free : ctx.links l x = .ok {}) (listed : ctx.Listed l c (ys ++ zs))
    {c' : Handle l.container} {xs : List (Handle l.node)} (before : ctx.Listed l c' xs) :
    (ctx.splice l x c ys.getLast? zs.head?).Listed l c'
      (if c' = c then ys ++ x :: zs else xs) := by
  have fresh : ∀ {c : Handle l.container} {xs : List (Handle l.node)}, ctx.Listed l c xs → x ∉ xs :=
    fun h mem => absurd (h.eq_of_mem mem free) (by simp)
  by_cases same : c' = c
  · subst same
    rw [if_pos rfl]
    exact listed.splice free (fresh listed)
  · rw [if_neg same]
    -- A node of both lists would have two containers.
    have apart : ∀ y ∈ ys ++ zs, y ∉ xs := by
      intro y mem mem'
      obtain ⟨k, live, container⟩ := listed.container_of_mem mem
      exact same (Option.some.inj ((before.eq_of_mem mem' live).symm.trans container))
    refine before.splice_other same (fresh before) ?_ ?_
    · exact fun p last => apart p (List.mem_append_left zs (List.mem_of_getLast? last))
    · exact fun n first => apart n (List.mem_append_right ys (List.mem_of_head? first))

theorem splice (wf : ctx.WellFormed) (free : ctx.links l x = .ok {})
    (listed : ctx.Listed l c (ys ++ zs)) :
    (ctx.splice l x c ys.getLast? zs.head?).WellFormed := by
  refine wf.of_beside (splice_beside ctx l x c _ _) ?_ ?_ ?_
  · intro c' e live
    by_cases same : c' = c
    · subst same
      exact ⟨_, listed_splice free listed listed⟩
    · rw [ends_splice_of_ne same] at live
      obtain ⟨xs, h⟩ := wf.listed live
      exact ⟨_, listed_splice free listed h⟩
  · intro y k' c' live container
    -- `x` is in the list now; any other node was in a list before and still is.
    by_cases same : y = x
    · subst same
      rw [links_splice_self free] at live
      cases live
      cases container
      exact ⟨_, listed_splice free listed listed, by simp⟩
    · obtain ⟨k, before, rfl⟩ := links_of_splice same live
      obtain ⟨xs, h, mem⟩ := wf.linked before container
      refine ⟨_, listed_splice free listed h, ?_⟩
      by_cases here : c' = c
      · subst here
        rw [h.unique listed, List.mem_append] at mem
        simp [mem.elim Or.inl fun m => Or.inr (Or.inr m)]
      · rwa [if_neg here]
  · intro y k' live container
    by_cases same : y = x
    · subst same
      rw [links_splice_self free] at live
      cases live
      cases container
    · -- A node without a container is no neighbour of `x`, so it was not written to.
      obtain ⟨k, before, rfl⟩ := links_of_splice same live
      obtain rfl := wf.unlinked before container
      have outside : y ∉ ys ++ zs := fun mem => absurd (listed.eq_of_mem mem before) (by simp)
      rw [List.mem_append, not_or] at outside
      have first : zs.head? ≠ some y := fun h => outside.2 (List.mem_of_head? h)
      have last : ys.getLast? ≠ some y := fun h => outside.1 (List.mem_of_getLast? h)
      simp [first, last]

/-! ## Removal -/

/-- Every list after a removal: that of the container lacks the node, the others are as before. -/
theorem listed_bypass (listed : ctx.Listed l c (ys ++ x :: zs)) {c' : Handle l.container}
    {xs : List (Handle l.node)} (before : ctx.Listed l c' xs) :
    (ctx.bypass l x c ys.getLast? zs.head?).Listed l c' (if c' = c then ys ++ zs else xs) := by
  by_cases same : c' = c
  · subst same
    rw [if_pos rfl]
    exact listed.bypass
  · rw [if_neg same]
    have apart : ∀ y ∈ ys ++ x :: zs, y ∉ xs := by
      intro y mem mem'
      obtain ⟨k, live, container⟩ := listed.container_of_mem mem
      exact same (Option.some.inj ((before.eq_of_mem mem' live).symm.trans container))
    refine before.bypass_other same (apart x (by simp)) ?_ ?_
    · exact fun p last => apart p (List.mem_append_left _ (List.mem_of_getLast? last))
    · exact fun n first =>
        apart n (List.mem_append_right ys (List.mem_cons_of_mem x (List.mem_of_head? first)))

theorem bypass (wf : ctx.WellFormed) (listed : ctx.Listed l c (ys ++ x :: zs)) :
    (ctx.bypass l x c ys.getLast? zs.head?).WellFormed := by
  refine wf.of_beside (bypass_beside ctx l x c _ _) ?_ ?_ ?_
  · intro c' e live
    by_cases same : c' = c
    · subst same
      exact ⟨_, listed_bypass listed listed⟩
    · rw [ends_bypass_of_ne same] at live
      obtain ⟨xs, h⟩ := wf.listed live
      exact ⟨_, listed_bypass listed h⟩
  · intro y k' c' live container
    by_cases same : y = x
    · subst same
      rw [listed.links_bypass_self] at live
      cases live
      cases container
    · obtain ⟨k, before, rfl⟩ := links_of_bypass same live
      obtain ⟨xs, h, mem⟩ := wf.linked before container
      refine ⟨_, listed_bypass listed h, ?_⟩
      by_cases here : c' = c
      · subst here
        rw [h.unique listed] at mem
        simpa [same] using mem
      · rwa [if_neg here]
  · intro y k' live container
    by_cases same : y = x
    · subst same
      rw [listed.links_bypass_self] at live
      exact (Except.ok.inj live).symm
    · obtain ⟨k, before, rfl⟩ := links_of_bypass same live
      obtain rfl := wf.unlinked before container
      have outside : y ∉ ys ++ x :: zs := fun mem => absurd (listed.eq_of_mem mem before) (by simp)
      have first : zs.head? ≠ some y := fun h => outside (by simp [List.mem_of_head? h])
      have last : ys.getLast? ≠ some y := fun h => outside (by simp [List.mem_of_getLast? h])
      simp [first, last]

end WellFormed

end Context

end HardwareIR
