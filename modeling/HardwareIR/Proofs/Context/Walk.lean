import HardwareIR.Proofs.Context.Listed

/-! # Walks over chained lists

`Context.Trail` are the nodes that one meets by following links in one direction.  In the list of a
container the two trails from its ends are the list and its reverse.

A cursor over a part of the list (`Cursor.over`) gives the two ends of that part, and
`Context.members` is the list: a walk is over before it has taken as many steps as there are slots.
-/

namespace HardwareIR

/-- The walk over the nodes of a list that are still to come. -/
def Cursor.over {l : Level} (xs : List (Handle l.node)) : Cursor l :=
  ⟨xs.head?, xs.getLast?⟩

namespace Context

variable {ctx : Context} {l : Level} {x : Handle l.node} {c : Handle l.container}
  {xs ys zs : List (Handle l.node)} {follow : Links l → Option (Handle l.node)}
  {start : Option (Handle l.node)}

/-! ## Trails -/

/-- The nodes from `start` on, where `follow` is the way from a node to the next. -/
inductive Trail (ctx : Context) (l : Level) (follow : Links l → Option (Handle l.node)) :
    Option (Handle l.node) → List (Handle l.node) → Prop where
  | nil : Trail ctx l follow none []
  | cons {x : Handle l.node} {k : Links l} {xs : List (Handle l.node)} :
      ctx.links l x = .ok k → Trail ctx l follow (follow k) xs →
        Trail ctx l follow (some x) (x :: xs)

theorem Trail.unique (first : ctx.Trail l follow start xs) (second : ctx.Trail l follow start ys) :
    xs = ys := by
  induction first generalizing ys with
  | nil =>
    cases second with
    | nil => rfl
  | cons links _ ih =>
    cases second with
    | cons links' rest =>
      rw [links] at links'
      cases links'
      rw [ih rest]

theorem Listed.trail_next_suffix (ys : List (Handle l.node)) (listed : ctx.Listed l c (ys ++ zs)) :
    ctx.Trail l Links.next zs.head? zs := by
  induction zs generalizing ys with
  | nil => exact .nil
  | cons z zs ih =>
    refine .cons (listed.links ys z zs rfl) ?_
    exact ih (ys ++ [z]) (by simpa using listed)

theorem Listed.trail_prev_part (zs : List (Handle l.node)) (listed : ctx.Listed l c (ys ++ zs)) :
    ctx.Trail l Links.prev ys.getLast? ys.reverse := by
  induction ys using List.reverseRecOn generalizing zs with
  | nil => exact .nil
  | append_singleton ys y ih =>
    rw [List.getLast?_concat, List.reverse_concat]
    rw [List.append_assoc] at listed
    exact .cons (listed.links ys y zs rfl) (ih (y :: zs) listed)

/-- Forward, one meets the list. -/
theorem Listed.trail_next (listed : ctx.Listed l c xs) : ctx.Trail l Links.next xs.head? xs :=
  listed.trail_next_suffix []

/-- Backward, one meets the list in reverse. -/
theorem Listed.trail_prev (listed : ctx.Listed l c xs) :
    ctx.Trail l Links.prev xs.getLast? xs.reverse :=
  Listed.trail_prev_part [] (by simpa using listed)

theorem Listed.unique (first : ctx.Listed l c xs) (second : ctx.Listed l c ys) : xs = ys := by
  have ends := first.ends.symm.trans second.ends
  simp only [Except.ok.injEq, Ends.mk.injEq] at ends
  exact first.trail_next.unique (ends.1 ▸ second.trail_next)

/-! ## The walk of a cursor -/

theorem Listed.length_le (listed : ctx.Listed l c xs) : xs.length ≤ ctx.nodeCapacity l := by
  cases l with
  | ops =>
    refine Arena.length_le_capacity listed.nodup fun x mem => ?_
    obtain ⟨k, live, -⟩ := listed.container_of_mem mem
    obtain ⟨o, found, -⟩ := operation_of_links live
    rw [operation_eq_ok.mp found]
    rfl
  | blocks =>
    refine Arena.length_le_capacity listed.nodup fun x mem => ?_
    obtain ⟨k, live, -⟩ := listed.container_of_mem mem
    obtain ⟨b, found, -⟩ := block_of_links live
    rw [block_eq_ok.mp found]
    rfl

/-- From the front comes the first of the nodes that are left. -/
theorem Listed.next (listed : ctx.Listed l c xs) (part : ys <:+: xs) :
    (Cursor.over ys).next ctx = .ok (ys.head?, .over ys.tail) := by
  obtain ⟨before, behind, rfl⟩ := part
  cases ys with
  | nil => rfl
  | cons y ys =>
    cases ys with
    | nil =>
      -- The two ends meet at `y`, after which nothing is left.
      simp [Cursor.next, Cursor.over]
    | cons w ys =>
      have nodup := (List.nodup_append.mp (List.nodup_append.mp listed.nodup).1).2.1
      have apart : (w :: ys).getLast? ≠ some y := fun last =>
        (List.nodup_cons.mp nodup).1 (List.mem_of_getLast? last)
      have links := listed.links before y (w :: ys ++ behind) (by simp)
      simp [Cursor.next, Cursor.over, apart, links, List.getLast?_cons_cons]

/-- From the back comes the last of the nodes that are left. -/
theorem Listed.nextBack (listed : ctx.Listed l c xs) (part : ys <:+: xs) :
    (Cursor.over ys).nextBack ctx = .ok (ys.getLast?, .over ys.dropLast) := by
  obtain ⟨before, behind, rfl⟩ := part
  cases ys using List.reverseRecOn with
  | nil => rfl
  | append_singleton ys y =>
    cases ys with
    | nil => simp [Cursor.nextBack, Cursor.over]
    | cons w ys =>
      have nodup := (List.nodup_append.mp (List.nodup_append.mp listed.nodup).1).2.1
      have apart : w ≠ y := fun same =>
        List.disjoint_of_nodup_append nodup List.mem_cons_self (same ▸ List.mem_singleton_self y)
      have links := listed.links (before ++ w :: ys) y behind (by simp)
      rw [List.getLast?_append_of_ne_nil before (List.cons_ne_nil w ys)] at links
      simp only [Cursor.nextBack, Cursor.over, List.getLast?_concat, List.dropLast_concat,
        List.head?_append, List.head?_cons, Option.some_or, Option.some.injEq, apart, ↓reduceIte,
        links, Except.bind_ok, Except.pure_eq_ok]

theorem Listed.cursor_start (listed : ctx.Listed l c xs) : Cursor.start ctx c = .ok (.over xs) := by
  rw [Cursor.start, listed.ends]
  rfl

theorem Listed.collect (listed : ctx.Listed l c xs) (part : ys <:+: xs) {bound : Nat}
    (enough : ys.length < bound) : Cursor.collect ctx bound (.over ys) = .ok ys := by
  induction ys generalizing bound with
  | nil =>
    obtain ⟨bound, rfl⟩ := Nat.exists_eq_add_one_of_ne_zero (Nat.ne_zero_of_lt enough)
    rfl
  | cons y ys ih =>
    obtain ⟨bound, rfl⟩ := Nat.exists_eq_add_one_of_ne_zero (Nat.ne_zero_of_lt enough)
    have fewer : ys.length < bound := by simpa using enough
    have rest := ih ((List.suffix_cons y ys).isInfix.trans part) fewer
    simp only [Cursor.collect, listed.next part, List.head?_cons, List.tail_cons, Except.bind_ok,
      rest, Except.pure_eq_ok]

/-- The nodes that a walk finds are those of the list. -/
theorem Listed.members (listed : ctx.Listed l c xs) : ctx.members l c = .ok xs := by
  rw [Context.members, listed.cursor_start, Except.bind_ok]
  exact listed.collect (List.infix_refl xs) (Nat.lt_succ_of_le listed.length_le)

end Context

end HardwareIR
