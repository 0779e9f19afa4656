import HardwareIR.Proofs.Context.Chain
import Mathlib.Data.List.Induction

/-! # Chained lists as plain lists

`Context.Listed` says that the list of a container is a given plain list of nodes: the ends of the
container and the links of the nodes are those that the plain list dictates.  `Context.splice` and
`Context.bypass` act on the plain list as an insertion and a removal, and leave the lists of all
other containers alone.
-/

namespace HardwareIR

/-! ## Splits of plain lists -/

section Splits

variable {α : Type} {ys zs ys' zs' : List α} {x y : α}

/-- Where `y` stands in a list that has `x` in the middle. -/
theorem split_around (h : ys ++ x :: zs = ys' ++ y :: zs') :
    (∃ ws, ys = ys' ++ y :: ws ∧ zs' = ws ++ x :: zs) ∨ (y = x ∧ ys' = ys ∧ zs' = zs) ∨
      ∃ ws, zs = ws ++ y :: zs' ∧ ys' = ys ++ x :: ws := by
  rcases List.append_eq_append_iff.mp h with ⟨as, before, after⟩ | ⟨as, before, after⟩
  · cases as with
    | nil =>
      obtain ⟨rfl, rfl⟩ := List.cons.inj after
      exact .inr (.inl ⟨rfl, by simpa using before, rfl⟩)
    | cons a as =>
      obtain ⟨rfl, rfl⟩ := List.cons.inj after
      exact .inr (.inr ⟨as, rfl, before⟩)
  · cases as with
    | nil =>
      obtain ⟨rfl, rfl⟩ := List.cons.inj after
      exact .inr (.inl ⟨rfl, by simpa using before.symm, rfl⟩)
    | cons a as =>
      obtain ⟨rfl, rfl⟩ := List.cons.inj after
      exact .inl ⟨as, before, rfl⟩

/-- Where `y` stands in a list that is put together from two. -/
theorem split_between (h : ys ++ zs = ys' ++ y :: zs') :
    (∃ ws, ys = ys' ++ y :: ws ∧ zs' = ws ++ zs) ∨
      ∃ ws, zs = ws ++ y :: zs' ∧ ys' = ys ++ ws := by
  rcases List.append_eq_append_iff.mp h with ⟨as, before, after⟩ | ⟨as, before, after⟩
  · exact .inr ⟨as, after, before⟩
  · cases as with
    | nil => exact .inr ⟨[], by simpa using after.symm, by simpa using before.symm⟩
    | cons a as =>
      obtain ⟨rfl, rfl⟩ := List.cons.inj after
      exact .inl ⟨as, before, rfl⟩

end Splits

namespace Context

variable {ctx ctx' : Context} {l : Level} {x : Handle l.node} {c c' : Handle l.container}
  {xs ys zs : List (Handle l.node)} {prev next : Option (Handle l.node)}

/-! ## The list of a container -/

/-- The nodes in the list of a container, from the front. -/
structure Listed (ctx : Context) (l : Level) (c : Handle l.container)
    (xs : List (Handle l.node)) : Prop where
  ends : ctx.ends l c = .ok ⟨xs.head?, xs.getLast?⟩
  /-- Wherever the list is split, the links of the node there name the nodes next to it. -/
  links : ∀ ys x zs, xs = ys ++ x :: zs → ctx.links l x = .ok ⟨ys.getLast?, zs.head?, some c⟩
  nodup : xs.Nodup

theorem Listed.container_of_mem (listed : ctx.Listed l c xs) (mem : x ∈ xs) :
    ∃ k, ctx.links l x = .ok k ∧ k.container = some c := by
  obtain ⟨ys, zs, rfl⟩ := List.append_of_mem mem
  exact ⟨_, listed.links ys x zs rfl, rfl⟩

/-- A node in the list of a container knows that container. -/
theorem Listed.eq_of_mem {k : Links l} (listed : ctx.Listed l c xs) (mem : x ∈ xs)
    (links : ctx.links l x = .ok k) : k.container = some c := by
  obtain ⟨k', links', container⟩ := listed.container_of_mem mem
  rw [links] at links'
  exact Except.ok.inj links' ▸ container

theorem Listed.congr (listed : ctx.Listed l c xs) (ends : ctx'.ends l c = ctx.ends l c)
    (links : ∀ x ∈ xs, ctx'.links l x = ctx.links l x) : ctx'.Listed l c xs where
  ends := ends.trans listed.ends
  links ys x zs split := by
    rw [links x (by simp [split])]
    exact listed.links ys x zs split
  nodup := listed.nodup

/-! ## Insertion -/

theorem Listed.splice {k : Links l} (listed : ctx.Listed l c (ys ++ zs))
    (live : ctx.links l x = .ok k) (fresh : x ∉ ys ++ zs) :
    (ctx.splice l x c ys.getLast? zs.head?).Listed l c (ys ++ x :: zs) where
  ends := by
    rw [ends_splice listed.ends]
    cases ys <;> cases zs using List.reverseRecOn <;> simp [List.getLast?_cons]
  links ys' y zs' split := by
    have apart := List.nodup_append.mp listed.nodup
    rcases split_around split with ⟨ws, rfl, rfl⟩ | ⟨rfl, rfl, rfl⟩ | ⟨ws, rfl, rfl⟩
    · -- `y` stands before `x`, right before it iff nothing is in between, and not after it.
      have other : y ≠ x := by
        rintro rfl
        simp at fresh
      have after : zs.head? ≠ some y := fun first =>
        apart.2.2 y (by simp) y (List.mem_of_head? first) rfl
      rw [links_splice (listed.links ys' y (ws ++ zs) (by simp)) other]
      cases ws using List.reverseRecOn with
      | nil => simp [after]
      | append_singleton ws w =>
        have between : w ≠ y := by grind
        have last : (ys' ++ y :: (ws ++ [w])).getLast? = some w := by
          rw [← List.cons_append, ← List.append_assoc, List.getLast?_concat]
        have head : (ws ++ [w] ++ zs).head? = (ws ++ [w] ++ x :: zs).head? := by
          cases ws <;> rfl
        simp only [last, head, after, Option.some.injEq, between, ↓reduceIte]
    · exact links_splice_self live
    · have other : y ≠ x := by
        rintro rfl
        simp at fresh
      have before : ys.getLast? ≠ some y := fun last =>
        apart.2.2 y (List.mem_of_getLast? last) y (by simp) rfl
      rw [links_splice (listed.links (ys ++ ws) y zs' (by simp)) other]
      cases ws with
      | nil => simp [before]
      | cons w ws =>
        have between : w ≠ y := by grind
        simp [before, between, List.getLast?_cons]
  nodup := List.nodup_middle.mpr (List.nodup_cons.mpr ⟨fresh, listed.nodup⟩)

/-- An insertion leaves a list alone that has neither the node nor its neighbours. -/
theorem Listed.splice_other (listed : ctx.Listed l c' xs) (other : c' ≠ c) (fresh : x ∉ xs)
    (before : ∀ p ∈ prev, p ∉ xs) (after : ∀ n ∈ next, n ∉ xs) :
    (ctx.splice l x c prev next).Listed l c' xs := by
  -- Only `x` and its neighbours are written to.
  refine listed.congr (ends_splice_of_ne other) fun y mem => ?_
  obtain ⟨k, live, -⟩ := listed.container_of_mem mem
  have apart : y ≠ x := fun same => fresh (same ▸ mem)
  have not_before : prev ≠ some y := fun same => before y same mem
  have not_after : next ≠ some y := fun same => after y same mem
  rw [links_splice live apart, live, if_neg not_before, if_neg not_after]

/-! ## Removal -/

theorem Listed.bypass (listed : ctx.Listed l c (ys ++ x :: zs)) :
    (ctx.bypass l x c ys.getLast? zs.head?).Listed l c (ys ++ zs) where
  ends := by
    rw [ends_bypass listed.ends]
    cases ys <;> cases zs <;> simp [List.getLast?_cons]
  links ys' y zs' split := by
    have apart := List.nodup_append.mp listed.nodup
    rcases split_between split with ⟨ws, rfl, rfl⟩ | ⟨ws, rfl, rfl⟩
    · -- `y` stands before `x`, right before it iff nothing is in between, and not after it.
      have other : y ≠ x := apart.2.2 y (by simp) x (by simp)
      have after : zs.head? ≠ some y := fun first =>
        apart.2.2 y (by simp) y (List.mem_cons_of_mem x (List.mem_of_head? first)) rfl
      rw [links_bypass (listed.links ys' y (ws ++ x :: zs) (by simp)) other]
      cases ws using List.reverseRecOn with
      | nil => simp [after]
      | append_singleton ws w =>
        have between : w ≠ y := by grind
        have last : (ys' ++ y :: (ws ++ [w])).getLast? = some w := by
          rw [← List.cons_append, ← List.append_assoc, List.getLast?_concat]
        have head : (ws ++ [w] ++ x :: zs).head? = (ws ++ [w] ++ zs).head? := by
          cases ws <;> rfl
        simp only [last, head, after, Option.some.injEq, between, ↓reduceIte]
    · have other : y ≠ x := by grind
      have before : ys.getLast? ≠ some y := fun last =>
        apart.2.2 y (List.mem_of_getLast? last) y (by simp) rfl
      rw [links_bypass (listed.links (ys ++ x :: ws) y zs' (by simp)) other]
      cases ws with
      | nil => simp [before]
      | cons w ws =>
        have between : w ≠ y := by grind
        simp [before, between, List.getLast?_cons]
  nodup := (List.nodup_cons.mp (List.nodup_middle.mp listed.nodup)).2

/-- A removed node is in no list. -/
theorem Listed.links_bypass_self (listed : ctx.Listed l c (ys ++ x :: zs)) :
    (ctx.bypass l x c ys.getLast? zs.head?).links l x = .ok {} := by
  have fresh : x ∉ ys ++ zs := (List.nodup_cons.mp (List.nodup_middle.mp listed.nodup)).1
  rw [List.mem_append, not_or] at fresh
  exact Context.links_bypass_self (listed.links ys x zs rfl)
    (fun last => fresh.1 (List.mem_of_getLast? last))
    (fun first => fresh.2 (List.mem_of_head? first))

/-- A removal leaves a list alone that has neither the node nor its neighbours. -/
theorem Listed.bypass_other (listed : ctx.Listed l c' xs) (other : c' ≠ c) (fresh : x ∉ xs)
    (before : ∀ p ∈ prev, p ∉ xs) (after : ∀ n ∈ next, n ∉ xs) :
    (ctx.bypass l x c prev next).Listed l c' xs := by
  refine listed.congr (ends_bypass_of_ne other) fun y mem => ?_
  obtain ⟨k, live, -⟩ := listed.container_of_mem mem
  have apart : y ≠ x := fun same => fresh (same ▸ mem)
  have not_before : prev ≠ some y := fun same => before y same mem
  have not_after : next ≠ some y := fun same => after y same mem
  rw [links_bypass live apart, live, if_neg not_before, if_neg not_after]

end Context

end HardwareIR
