import HardwareIR.Proofs.Context.Edit

/-! # What list edits leave alone

List edits write links and ends, and nothing else (`Context.SameContents`).  Splicing a node in
changes the list of one container, by the node alone (`Context.WellFormed.members_splice`).
-/

namespace HardwareIR

/-- An operation without its place. -/
def Operation.contents (o : Operation) : Operation :=
  { o with links := {} }

/-- A block without its place and its list. -/
def Block.contents (b : Block) : Block :=
  { b with ends := {}, links := {} }

theorem Operation.eq_of_contents {o o' : Operation} (same : o'.contents = o.contents) :
    o' = { o with links := o'.links } := by
  cases o
  cases o'
  simp_all [Operation.contents]

namespace Context

variable {ctx ctx' : Context} {l : Level} {x : Handle l.node} {c : Handle l.container}
  {ys zs : List (Handle l.node)}

/-! ## Contents -/

/-- The same objects are live, and they differ in their places and lists only. -/
structure SameContents (ctx ctx' : Context) : Prop where
  operation : ∀ op,
    (ctx'.operation op).map Operation.contents = (ctx.operation op).map Operation.contents
  block : ∀ b, (ctx'.block b).map Block.contents = (ctx.block b).map Block.contents
  owner : ∀ r, ctx'.ownerOf r = ctx.ownerOf r
  types : ctx'.types = ctx.types
  registry : ctx'.registry = ctx.registry

theorem SameContents.refl (ctx : Context) : SameContents ctx ctx :=
  ⟨fun _ => rfl, fun _ => rfl, fun _ => rfl, rfl, rfl⟩

theorem SameContents.trans {ctx'' : Context} (first : SameContents ctx ctx')
    (second : SameContents ctx' ctx'') : SameContents ctx ctx'' where
  operation op := (second.operation op).trans (first.operation op)
  block b := (second.block b).trans (first.block b)
  owner r := (second.owner r).trans (first.owner r)
  types := second.types.trans first.types
  registry := second.registry.trans first.registry

theorem SameContents.operation_eq_ok (same : SameContents ctx ctx') {op : OpRef} {o' : Operation}
    (live : ctx'.operation op = .ok o') :
    ∃ o, ctx.operation op = .ok o ∧ o'.contents = o.contents := by
  have contents := same.operation op
  rw [live, Except.map_ok] at contents
  obtain ⟨o, found, eq⟩ := Except.map_eq_ok.mp contents.symm
  exact ⟨o, found, eq.symm⟩

theorem modifyLinks_sameContents (ctx : Context) (l : Level) (x : Handle l.node)
    (f : Links l → Links l) : SameContents ctx (ctx.modifyLinks l x f) := by
  refine ⟨?_, ?_, ctx.ownerOf_modifyLinks l x f, ?_, ?_⟩
  · intro op
    cases l with
    | ops =>
      simp only [modifyLinks, operation_modifyOperation]
      by_cases same : op = x
      · rw [if_pos same, same, Except.map_map]
        rfl
      · rw [if_neg same]
    | blocks => rfl
  · intro b
    cases l with
    | ops => rfl
    | blocks =>
      simp only [modifyLinks, block_modifyBlock]
      by_cases same : b = x
      · rw [if_pos same, same, Except.map_map]
        rfl
      · rw [if_neg same]
  · cases l <;> rfl
  · cases l <;> rfl

theorem modifyEnds_sameContents (ctx : Context) (l : Level) (c : Handle l.container)
    (f : Ends l → Ends l) : SameContents ctx (ctx.modifyEnds l c f) := by
  refine ⟨?_, ?_, ctx.ownerOf_modifyEnds l c f, ?_, ?_⟩
  · intro op
    cases l <;> rfl
  · intro b
    cases l with
    | ops =>
      simp only [modifyEnds, block_modifyBlock]
      by_cases same : b = c
      · rw [if_pos same, same, Except.map_map]
        rfl
      · rw [if_neg same]
    | blocks => rfl
  · cases l <;> rfl
  · cases l <;> rfl

theorem setNext_sameContents (ctx : Context) (l : Level) (c : Handle l.container)
    (prev next : Option (Handle l.node)) : SameContents ctx (ctx.setNext l c prev next) := by
  cases prev with
  | none => exact modifyEnds_sameContents ctx l c _
  | some p => exact modifyLinks_sameContents ctx l p _

theorem setPrev_sameContents (ctx : Context) (l : Level) (c : Handle l.container)
    (prev next : Option (Handle l.node)) : SameContents ctx (ctx.setPrev l c prev next) := by
  cases next with
  | none => exact modifyEnds_sameContents ctx l c _
  | some n => exact modifyLinks_sameContents ctx l n _

theorem splice_sameContents (ctx : Context) (l : Level) (x : Handle l.node)
    (c : Handle l.container) (prev next : Option (Handle l.node)) :
    SameContents ctx (ctx.splice l x c prev next) :=
  ((setNext_sameContents ctx l c _ _).trans (setPrev_sameContents _ l c _ _)).trans
    (modifyLinks_sameContents _ l x _)

theorem bypass_sameContents (ctx : Context) (l : Level) (x : Handle l.node)
    (c : Handle l.container) (prev next : Option (Handle l.node)) :
    SameContents ctx (ctx.bypass l x c prev next) :=
  ((modifyLinks_sameContents ctx l x _).trans (setPrev_sameContents _ l c _ _)).trans
    (setNext_sameContents _ l c _ _)

theorem unlink_sameContents (unlinked : ctx.unlink l x = .ok ctx') : SameContents ctx ctx' := by
  obtain ⟨k, -, unlinked⟩ := Except.bind_eq_ok.mp unlinked
  split at unlinked
  next => cases unlinked
  next c _ =>
    cases unlinked
    exact ctx.bypass_sameContents l x c _ _

theorem linkBetween_sameContents {prev next : Option (Handle l.node)}
    (linked : ctx.linkBetween l x c prev next = .ok ctx') : SameContents ctx ctx' := by
  obtain ⟨k, -, linked⟩ := Except.bind_eq_ok.mp linked
  split at linked
  next => cases linked
  next =>
    cases linked
    exact ctx.splice_sameContents l x c prev next

theorem link_sameContents {place : Place l} (linked : ctx.link l x place = .ok ctx') :
    SameContents ctx ctx' := by
  cases place with
  | front c =>
    obtain ⟨e, -, linked⟩ := Except.bind_eq_ok.mp linked
    exact linkBetween_sameContents linked
  | back c =>
    obtain ⟨e, -, linked⟩ := Except.bind_eq_ok.mp linked
    exact linkBetween_sameContents linked
  | before mark =>
    obtain ⟨⟨c, k⟩, -, linked⟩ := Except.bind_eq_ok.mp linked
    exact linkBetween_sameContents linked
  | after mark =>
    obtain ⟨⟨c, k⟩, -, linked⟩ := Except.bind_eq_ok.mp linked
    exact linkBetween_sameContents linked

/-! ## Lists -/

/-- A list that is the same in two contexts is found to be the same, and so is that there is
none. -/
theorem WellFormed.members_congr (wf : ctx.WellFormed) (ends : ctx'.ends l c = ctx.ends l c)
    (listed : ∀ xs, ctx.Listed l c xs → ctx'.Listed l c xs) :
    ctx'.members l c = ctx.members l c := by
  cases live : ctx.ends l c with
  | error fault =>
    rw [live] at ends
    simp only [members, Cursor.start, live, ends, Except.bind_error]
  | ok e =>
    obtain ⟨xs, before⟩ := wf.listed live
    rw [before.members, (listed xs before).members]

/-- Splicing a free node into a list leaves all other lists of the level alone. -/
theorem WellFormed.members_splice (wf : ctx.WellFormed) (free : ctx.links l x = .ok {})
    (listed : ctx.Listed l c (ys ++ zs)) (c' : Handle l.container) :
    (ctx.splice l x c ys.getLast? zs.head?).members l c' =
      if c' = c then .ok (ys ++ x :: zs) else ctx.members l c' := by
  by_cases here : c' = c
  · have after := WellFormed.listed_splice free listed listed
    rw [if_pos rfl] at after
    rw [if_pos here, here]
    exact after.members
  · rw [if_neg here]
    refine wf.members_congr (ends_splice_of_ne here) fun xs before => ?_
    have kept := WellFormed.listed_splice free listed before
    rwa [if_neg here] at kept

theorem WellFormed.members_splice_beside (wf : ctx.WellFormed) {l' : Level} (other : l' ≠ l)
    {prev next : Option (Handle l.node)} (c' : Handle l'.container) :
    (ctx.splice l x c prev next).members l' c' = ctx.members l' c' := by
  have beside := splice_beside ctx l x c prev next
  refine wf.members_congr (beside.ends l' other c') fun xs before => ?_
  exact before.congr (beside.ends l' other c') fun y _ => beside.links l' other y

end Context

end HardwareIR
