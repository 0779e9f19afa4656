import HardwareIR.Proofs.Context.WellFormed

/-! # List edits as edits of plain lists

A `Place` is where a node can be put into a list.  In a well-formed context `Context.link` succeeds
exactly where the node is live and unlinked and the place is there, and then the node is spliced
into the list of the place (`Context.link_eq_ok`); `Context.unlink` succeeds exactly for a node that
is in a list (`Context.unlink_eq_ok`).  Either keeps the context well-formed.
-/

namespace HardwareIR

/-- Where a node can be put into a list. -/
inductive Place (l : Level) where
  | front (container : Handle l.container)
  | back (container : Handle l.container)
  | before (mark : Handle l.node)
  | after (mark : Handle l.node)
deriving DecidableEq

/-- Whether a place is between `ys` and `zs` in the list of a container. -/
def Place.Splits {l : Level} (place : Place l) (c : Handle l.container)
    (ys zs : List (Handle l.node)) : Prop :=
  match place with
  | .front container => container = c ∧ ys = []
  | .back container => container = c ∧ zs = []
  | .before mark => zs.head? = some mark
  | .after mark => ys.getLast? = some mark

namespace Context

variable {ctx ctx' : Context} {l : Level} {x mark : Handle l.node} {c : Handle l.container}
  {xs ys zs : List (Handle l.node)}

/-- Puts a node that is in no list at a place. -/
def link (ctx : Context) (l : Level) (x : Handle l.node) : Place l → Except Fault Context
  | .front container => ctx.pushFront l x container
  | .back container => ctx.pushBack l x container
  | .before mark => ctx.insertBefore l x mark
  | .after mark => ctx.insertAfter l x mark

/-! ## Linking -/

theorem linkBetween_eq_ok (wf : ctx.WellFormed) {prev next : Option (Handle l.node)} :
    ctx.linkBetween l x c prev next = .ok ctx' ↔
      ctx.links l x = .ok {} ∧ ctx' = ctx.splice l x c prev next := by
  unfold linkBetween
  cases live : ctx.links l x with
  | error fault => simp
  | ok k =>
    cases container : k.container with
    | none =>
      obtain rfl := wf.unlinked live container
      change (.ok (ctx.splice l x c prev next) : Except Fault Context) = .ok ctx' ↔ _
      rw [Except.ok.injEq, eq_comm (a := ctx')]
      exact (and_iff_right rfl).symm
    | some c' =>
      have linked : k ≠ {} := fun h => by simp [h] at container
      simp [container, linked, Misuse.throw]

theorem neighbourhood_eq_ok (wf : ctx.WellFormed) {k : Links l} :
    ctx.neighbourhood l mark = .ok (c, k) ↔
      ∃ ys zs, ctx.Listed l c (ys ++ mark :: zs) ∧ k = ⟨ys.getLast?, zs.head?, some c⟩ := by
  unfold neighbourhood
  constructor
  · intro found
    obtain ⟨k', live, found⟩ := Except.bind_eq_ok.mp found
    split at found
    next container =>
      cases found
      obtain ⟨xs, listed, mem⟩ := wf.linked live container
      obtain ⟨ys, zs, rfl⟩ := List.append_of_mem mem
      exact ⟨ys, zs, listed, Except.ok.inj (live.symm.trans (listed.links ys mark zs rfl))⟩
    next => cases found
  · rintro ⟨ys, zs, listed, rfl⟩
    rw [listed.links ys mark zs rfl]
    rfl

/-- Linking puts a free node between two parts of a list, and fails everywhere else. -/
theorem link_eq_ok (wf : ctx.WellFormed) {place : Place l} :
    ctx.link l x place = .ok ctx' ↔
      ctx.links l x = .ok {} ∧ ∃ c ys zs, place.Splits c ys zs ∧ ctx.Listed l c (ys ++ zs) ∧
        ctx' = ctx.splice l x c ys.getLast? zs.head? := by
  cases place with
  | front container =>
    simp only [link, pushFront, Except.bind_eq_ok, linkBetween_eq_ok wf, Place.Splits]
    constructor
    · rintro ⟨e, live, free, rfl⟩
      obtain ⟨xs, listed⟩ := wf.listed live
      obtain rfl := Except.ok.inj (live.symm.trans listed.ends)
      exact ⟨free, container, [], xs, ⟨rfl, rfl⟩, listed, rfl⟩
    · rintro ⟨free, c, ys, zs, ⟨rfl, rfl⟩, listed, rfl⟩
      exact ⟨_, listed.ends, free, rfl⟩
  | back container =>
    simp only [link, pushBack, Except.bind_eq_ok, linkBetween_eq_ok wf, Place.Splits]
    constructor
    · rintro ⟨e, live, free, rfl⟩
      obtain ⟨xs, listed⟩ := wf.listed live
      obtain rfl := Except.ok.inj (live.symm.trans listed.ends)
      exact ⟨free, container, xs, [], ⟨rfl, rfl⟩, by simpa using listed, rfl⟩
    · rintro ⟨free, c, ys, zs, ⟨rfl, rfl⟩, listed, rfl⟩
      rw [List.append_nil] at listed
      exact ⟨_, listed.ends, free, rfl⟩
  | before mark =>
    simp only [link, insertBefore, Except.bind_eq_ok, linkBetween_eq_ok wf, Place.Splits]
    constructor
    · rintro ⟨⟨c, k⟩, found, free, rfl⟩
      obtain ⟨ys, zs, listed, rfl⟩ := (neighbourhood_eq_ok wf).mp found
      exact ⟨free, c, ys, mark :: zs, rfl, listed, rfl⟩
    · rintro ⟨free, c, ys, zs, first, listed, rfl⟩
      obtain ⟨zs, rfl⟩ := List.head?_eq_some_iff.mp first
      exact ⟨_, (neighbourhood_eq_ok wf).mpr ⟨ys, zs, listed, rfl⟩, free, rfl⟩
  | after mark =>
    simp only [link, insertAfter, Except.bind_eq_ok, linkBetween_eq_ok wf, Place.Splits]
    constructor
    · rintro ⟨⟨c, k⟩, found, free, rfl⟩
      obtain ⟨ys, zs, listed, rfl⟩ := (neighbourhood_eq_ok wf).mp found
      exact ⟨free, c, ys ++ [mark], zs, by simp, by simpa using listed, by simp⟩
    · rintro ⟨free, c, ys, zs, last, listed, rfl⟩
      obtain ⟨ys, rfl⟩ := List.getLast?_eq_some_iff.mp last
      rw [List.append_assoc] at listed
      exact ⟨_, (neighbourhood_eq_ok wf).mpr ⟨ys, zs, listed, rfl⟩, free, by simp⟩

theorem WellFormed.link {place : Place l} (wf : ctx.WellFormed)
    (linked : ctx.link l x place = .ok ctx') : ctx'.WellFormed := by
  obtain ⟨free, c, ys, zs, -, listed, rfl⟩ := (link_eq_ok wf).mp linked
  exact wf.splice free listed

/-! ## Unlinking -/

/-- Unlinking takes a node out of the list that it is in. -/
theorem unlink_eq_ok (wf : ctx.WellFormed) :
    ctx.unlink l x = .ok ctx' ↔
      ∃ c ys zs, ctx.Listed l c (ys ++ x :: zs) ∧
        ctx' = ctx.bypass l x c ys.getLast? zs.head? := by
  unfold unlink
  constructor
  · intro done
    obtain ⟨k, live, done⟩ := Except.bind_eq_ok.mp done
    split at done
    next => cases done
    next c container =>
      cases done
      obtain ⟨xs, listed, mem⟩ := wf.linked live container
      obtain ⟨ys, zs, rfl⟩ := List.append_of_mem mem
      obtain rfl := Except.ok.inj (live.symm.trans (listed.links ys x zs rfl))
      exact ⟨c, ys, zs, listed, rfl⟩
  · rintro ⟨c, ys, zs, listed, rfl⟩
    rw [listed.links ys x zs rfl]
    rfl

theorem WellFormed.unlink (wf : ctx.WellFormed) (unlinked : ctx.unlink l x = .ok ctx') :
    ctx'.WellFormed := by
  obtain ⟨c, ys, zs, listed, rfl⟩ := (unlink_eq_ok wf).mp unlinked
  exact wf.bypass listed

/-- A node that cannot be unlinked has no links to clear. -/
theorem modifyLinks_of_unlink_eq_error (wf : ctx.WellFormed) {fault : Fault}
    (failed : ctx.unlink l x = .error fault) : ctx.modifyLinks l x (fun _ => {}) = ctx := by
  have clear : ∀ k, ctx.links l x = .ok k → k = {} := by
    intro k live
    unfold Context.unlink at failed
    rw [live] at failed
    cases container : k.container with
    | none => exact wf.unlinked live container
    | some c => simp [container] at failed
  cases l with
  | ops =>
    have same : ctx.operations.modify x (fun o => { o with links := {} }) = ctx.operations := by
      refine Arena.modify_self _ _ _ fun o found => ?_
      rw [← clear _ (links_of_operation (operation_eq_ok.mpr found))]
    simp only [modifyLinks, modifyOperation, same]
  | blocks =>
    have same : ctx.blocks.modify x (fun b => { b with links := {} }) = ctx.blocks := by
      refine Arena.modify_self _ _ _ fun b found => ?_
      rw [← clear _ (links_of_block (block_eq_ok.mpr found))]
    simp only [modifyLinks, modifyBlock, same]

end Context

end HardwareIR
