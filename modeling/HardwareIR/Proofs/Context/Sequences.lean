import HardwareIR.Proofs.Context.Slots

/-! # Edits of sequences

To whoever only looks at sequences of nodes, linking puts a node into one of them, and unlinking
takes it out (`Context.Joined`).  The two undo each other, to the last link and list end
(`Context.WellFormed.unlink_of_link` and `Context.WellFormed.link_of_unlink`).
-/

namespace HardwareIR

namespace Context

variable {ctx ctx' : Context} {l : Level} {x y : Handle l.node} {c : Handle l.container}
  {ys zs : List (Handle l.node)} {prev next : Option (Handle l.node)}

/-- A node is between `ys` and `zs` in the sequence of a container where it was not before, and no
other container of either level has another sequence than before. -/
structure Joined (ctx ctx' : Context) (l : Level) (x : Handle l.node) (c : Handle l.container)
    (ys zs : List (Handle l.node)) : Prop where
  before : ctx.members l c = .ok (ys ++ zs)
  after : ctx'.members l c = .ok (ys ++ x :: zs)
  others : ∀ c', c' ≠ c → ctx'.members l c' = ctx.members l c'
  beside : ∀ l', l' ≠ l → ∀ c' : Handle l'.container, ctx'.members l' c' = ctx.members l' c'

theorem WellFormed.joined_splice (wf : ctx.WellFormed) (free : ctx.links l x = .ok {})
    (listed : ctx.Listed l c (ys ++ zs)) :
    Joined ctx (ctx.splice l x c ys.getLast? zs.head?) l x c ys zs where
  before := listed.members
  after := by rw [wf.members_splice free listed, if_pos rfl]
  others c' other := by rw [wf.members_splice free listed, if_neg other]
  beside _ other := wf.members_splice_beside other

theorem WellFormed.joined_bypass (wf : ctx.WellFormed) (listed : ctx.Listed l c (ys ++ x :: zs)) :
    Joined (ctx.bypass l x c ys.getLast? zs.head?) ctx l x c ys zs where
  before := by rw [wf.members_bypass listed, if_pos rfl]
  after := listed.members
  others c' other := by rw [wf.members_bypass listed, if_neg other]
  beside _ other c' := (wf.members_bypass_beside other c').symm

/-! ## What neighbours know -/

theorem Listed.prev_of_head? {k : Links l} (listed : ctx.Listed l c (ys ++ zs))
    (first : zs.head? = some y) (live : ctx.links l y = .ok k) : k.prev = ys.getLast? := by
  obtain ⟨zs, rfl⟩ := List.head?_eq_some_iff.mp first
  rw [Except.ok.inj (live.symm.trans (listed.links ys y zs rfl))]

theorem Listed.next_of_getLast? {k : Links l} (listed : ctx.Listed l c (ys ++ zs))
    (last : ys.getLast? = some y) (live : ctx.links l y = .ok k) : k.next = zs.head? := by
  obtain ⟨ys, rfl⟩ := List.getLast?_eq_some_iff.mp last
  rw [List.append_assoc] at listed
  rw [Except.ok.inj (live.symm.trans (listed.links ys y zs rfl))]

/-- A node in no list is no neighbour in one. -/
theorem Listed.apart (listed : ctx.Listed l c (ys ++ zs)) (free : ctx.links l x = .ok {}) :
    ys.getLast? ≠ some x ∧ zs.head? ≠ some x := by
  have fresh : x ∉ ys ++ zs := fun mem => absurd (listed.eq_of_mem mem free) (by simp)
  rw [List.mem_append, not_or] at fresh
  exact ⟨fun last => fresh.1 (List.mem_of_getLast? last),
    fun first => fresh.2 (List.mem_of_head? first)⟩

theorem links_splice_of_stale {fault : Fault} (stale : ctx.links l y = .error fault) :
    (ctx.splice l x c prev next).links l y = .error fault := by
  have kept : ((ctx.setNext l c prev (some x)).setPrev l c (some x) next).links l y =
      .error fault := by
    rw [links_setPrev, links_setNext, stale]
    simp only [Except.map_error, ite_self]
  rw [splice, links_modifyLinks]
  split_ifs with same
  · subst same
    rw [kept, Except.map_error]
  · exact kept

theorem links_bypass_of_stale {fault : Fault} (stale : ctx.links l y = .error fault) :
    (ctx.bypass l x c prev next).links l y = .error fault := by
  have kept : (ctx.modifyLinks l x fun _ => {}).links l y = .error fault := by
    rw [links_modifyLinks]
    split_ifs with same
    · rw [← same, stale, Except.map_error]
    · exact stale
  rw [bypass, links_setNext, links_setPrev, kept]
  simp only [Except.map_error, ite_self]

/-! ## Inverses -/

/-- What is overwritten twice is back if the second value is the one from before. -/
theorem rewritten_eq {α : Type} {p : Prop} [Decidable p] {first second old : α}
    (back : p → second = old) : (if p then second else if p then first else old) = old := by
  split_ifs with written
  · exact back written
  · rfl

/-- Where an edit of one level leaves slots and contents alone, it is the lists of that level that
tell whether it changed anything. -/
theorem SameSlots.eq_of_beside (slots : SameSlots ctx ctx') (contents : SameContents ctx ctx')
    (beside : SameBeside l ctx ctx') (links : ∀ y, ctx'.links l y = ctx.links l y)
    (ends : ∀ c, ctx'.ends l c = ctx.ends l c) : ctx' = ctx := by
  refine slots.eq_of_places contents (fun l' y => ?_) (fun l' c' => ?_)
  · by_cases same : l' = l
    · subst same
      exact links y
    · exact beside.links l' same y
  · by_cases same : l' = l
    · subst same
      exact ends c'
    · exact beside.ends l' same c'

/-- Taking a node out again gives back the context from before. -/
theorem bypass_splice (free : ctx.links l x = .ok {}) (listed : ctx.Listed l c (ys ++ zs)) :
    (ctx.splice l x c ys.getLast? zs.head?).bypass l x c ys.getLast? zs.head? = ctx := by
  obtain ⟨notBefore, notAfter⟩ := listed.apart free
  refine SameSlots.eq_of_beside
    ((ctx.splice_sameSlots l x c _ _).trans (bypass_sameSlots _ l x c _ _))
    ((ctx.splice_sameContents l x c _ _).trans (bypass_sameContents _ l x c _ _))
    ((ctx.splice_beside l x c _ _).trans (bypass_beside _ l x c _ _)) (fun y => ?_) (fun c' => ?_)
  · by_cases same : y = x
    · rw [same, links_bypass_self (links_splice_self free) notBefore notAfter, free]
    · cases live : ctx.links l y with
      | error fault => exact links_bypass_of_stale (links_splice_of_stale live)
      | ok k =>
        -- A neighbour gets the link back that it had, and other nodes had no link to `x`.
        have prev : zs.head? = some y → ys.getLast? = k.prev :=
          fun first => (listed.prev_of_head? first live).symm
        have next : ys.getLast? = some y → zs.head? = k.next :=
          fun last => (listed.next_of_getLast? last live).symm
        rw [links_bypass (links_splice live same) same]
        simp only [rewritten_eq prev, rewritten_eq next]
  · by_cases same : c' = c
    · rw [same, ends_bypass (ends_splice listed.ends), listed.ends]
      cases ys <;> cases zs <;> simp [List.getLast?_cons]
    · rw [ends_bypass_of_ne same, ends_splice_of_ne same]

/-- Putting a node back between the neighbours that it had gives back the context from before. -/
theorem splice_bypass (listed : ctx.Listed l c (ys ++ x :: zs)) :
    (ctx.bypass l x c ys.getLast? zs.head?).splice l x c ys.getLast? zs.head? = ctx := by
  refine SameSlots.eq_of_beside
    ((ctx.bypass_sameSlots l x c _ _).trans (splice_sameSlots _ l x c _ _))
    ((ctx.bypass_sameContents l x c _ _).trans (splice_sameContents _ l x c _ _))
    ((ctx.bypass_beside l x c _ _).trans (splice_beside _ l x c _ _)) (fun y => ?_) (fun c' => ?_)
  · by_cases same : y = x
    · rw [same, links_splice_self listed.links_bypass_self, listed.links ys x zs rfl]
    · cases live : ctx.links l y with
      | error fault => exact links_splice_of_stale (links_bypass_of_stale live)
      | ok k =>
        have prev : zs.head? = some y → some x = k.prev := by
          intro first
          have split : ctx.Listed l c (ys ++ [x] ++ zs) := by simpa using listed
          rw [split.prev_of_head? first live, List.getLast?_concat]
        have next : ys.getLast? = some y → some x = k.next := by
          intro last
          rw [listed.next_of_getLast? last live, List.head?_cons]
        rw [links_splice (links_bypass live same) same]
        simp only [rewritten_eq prev, rewritten_eq next]
  · by_cases same : c' = c
    · rw [same, ends_splice (ends_bypass listed.ends), listed.ends]
      cases ys <;> cases zs using List.reverseRecOn <;> simp [List.getLast?_cons]
    · rw [ends_splice_of_ne same, ends_bypass_of_ne same]

/-- Unlinking undoes linking. -/
theorem WellFormed.unlink_of_link {place : Place l} (wf : ctx.WellFormed)
    (linked : ctx.link l x place = .ok ctx') : ctx'.unlink l x = .ok ctx := by
  obtain ⟨free, c, ys, zs, -, listed, rfl⟩ := (link_eq_ok wf).mp linked
  have after := listed_splice free listed listed
  rw [if_pos rfl] at after
  exact (unlink_eq_ok (wf.splice free listed)).mpr
    ⟨c, ys, zs, after, (bypass_splice free listed).symm⟩

/-- Linking undoes unlinking, at every place between the two parts that are left of the list. -/
theorem WellFormed.link_of_unlink {place : Place l} (wf : ctx.WellFormed)
    (listed : ctx.Listed l c (ys ++ x :: zs)) (splits : place.Splits c ys zs) :
    (ctx.bypass l x c ys.getLast? zs.head?).link l x place = .ok ctx :=
  (link_eq_ok (wf.bypass listed)).mpr
    ⟨listed.links_bypass_self, c, ys, zs, splits, listed.bypass, (splice_bypass listed).symm⟩

end Context

end HardwareIR
