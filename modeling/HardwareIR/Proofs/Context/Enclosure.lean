import HardwareIR.Materialization
import HardwareIR.Proofs.Context.Slots
import HardwareIR.Proofs.Context.Sound

/-! # The innermost operation of a kind

Which operation called `id` is the innermost one around an object is a question about what holds
what (`Context.Nearest`), and the walk outward answers it.  One may ask from an operation or from
the block that it is in: both look for the first of a kind among the operations that are met on the
way outward (`Context.firstOfKind`).
-/

namespace HardwareIR

open Relation (TransGen)

namespace Context

variable {ctx ctx' : Context} {op p q : OpRef} {b : BlockRef} {x : Object} {kind : OpKind}
  {id : QualifiedName} {start found : Option OpRef} {bound : Nat} {ops : List OpRef}

/-! ## Holders -/

/-- The operation around an object holds it. -/
theorem WellFormed.holds_of_around (wf : ctx.WellFormed) (around : ctx.around x = .ok (some p)) :
    TransGen ctx.Holds (.operation p) x := by
  cases x with
  | operation op => exact (wf.holds_of_parent around).2
  | block b => exact (wf.holds_of_blockOwner around).2
  | region r =>
    obtain ⟨owner, owned, same⟩ := Except.map_eq_ok.mp around
    cases same
    obtain ⟨rs, regions, mem⟩ := wf.owner owned
    exact .single (.region regions mem)

/-- An operation holds an object if it is the one around it or holds that one. -/
theorem WellFormed.holds_iff_around (wf : ctx.WellFormed) :
    TransGen ctx.Holds (.operation q) x ↔ ∃ p, ctx.around x = .ok (some p) ∧
      (q = p ∨ TransGen ctx.Holds (.operation q) (.operation p)) := by
  constructor
  · intro holds
    induction holds with
    | single held => exact ⟨q, wf.around_of_holds held, .inl rfl⟩
    | @tail y z way held ih =>
      have next := wf.around_of_holds held
      cases y with
      | operation p => exact ⟨p, next, .inr way⟩
      | region r => simpa only [next] using ih
      | block b => simpa only [next] using ih
  · rintro ⟨p, around, rfl | holds⟩
    · exact wf.holds_of_around around
    · exact holds.trans (wf.holds_of_around around)

/-! ## The innermost holder of a name -/

/-- An operation of this name is there. -/
def Called (ctx : Context) (id : QualifiedName) (op : OpRef) : Prop :=
  ∃ o, ctx.operation op = .ok o ∧ o.id = id

/-- The innermost operation called `id` that holds an object.  There is none if no operation that
holds the object is called that. -/
def Nearest (ctx : Context) (id : QualifiedName) (x : Object) : Option OpRef → Prop
  | some p => ctx.Called id p ∧ TransGen ctx.Holds (.operation p) x ∧
      ∀ q, ctx.Called id q → TransGen ctx.Holds (.operation q) x →
        q = p ∨ TransGen ctx.Holds (.operation q) (.operation p)
  | none => ∀ q, ctx.Called id q → ¬ TransGen ctx.Holds (.operation q) x

/-- The first one on the way outward is the innermost one. -/
theorem WellFormed.nearest_of_innermost (wf : ctx.WellFormed) (around : ctx.around x = .ok start)
    (innermost : ctx.Innermost id start found) : ctx.Nearest id x found := by
  -- Along the way, it is the operation met last that the rest is around.
  induction innermost generalizing x with
  | outside =>
    intro q _ holds
    obtain ⟨p, around', -⟩ := wf.holds_iff_around.mp holds
    cases around.symm.trans around'
  | @here p o live called =>
    refine ⟨⟨o, live, called⟩, wf.holds_of_around around, fun q _ holds => ?_⟩
    obtain ⟨p', around', outward⟩ := wf.holds_iff_around.mp holds
    cases around.symm.trans around'
    exact outward
  | @further p o start found live other parent _ ih =>
    have nearest := ih (x := .operation p) parent
    -- What is called `id` and holds the object is farther out than `p`.
    have beyond : ∀ q, ctx.Called id q → TransGen ctx.Holds (.operation q) x →
        TransGen ctx.Holds (.operation q) (.operation p) := by
      rintro q ⟨o', live', called⟩ holds
      obtain ⟨p', around', outward⟩ := wf.holds_iff_around.mp holds
      cases around.symm.trans around'
      rcases outward with rfl | outward
      · cases live.symm.trans live'
        exact absurd called other
      · exact outward
    cases found with
    | none => exact fun q called holds => nearest q called (beyond q called holds)
    | some _ =>
      obtain ⟨called, holds, innermost⟩ := nearest
      exact ⟨called, holds.trans (wf.holds_of_around around), fun q called holds =>
        innermost q called (beyond q called holds)⟩

/-! ## Kinds -/

/-- The first of several operations that is called like a kind.  It has to be of that kind. -/
def firstOfKind (ctx : Context) (kind : OpKind) (ops : List OpRef) :
    Except Fault (Option OpRef) := do
  match ← ctx.firstCalled kind.id ops with
  | none => return none
  | some found => do
    let actual ← ctx.kindOf found
    return if actual = kind then some found else none

theorem enclosing_eq (ctx : Context) (op : OpRef) (kind : OpKind) :
    ctx.enclosing op kind = ctx.ancestors op >>= ctx.firstOfKind kind :=
  rfl

/-- The search of a block for a hardware module, without what it logs. -/
theorem WellFormed.enclosingHwModule_result (wf : ctx.WellFormed) (b : BlockRef) :
    (ctx.enclosingHwModule b).result = ctx.blockAncestors b >>= ctx.firstOfKind .hwModule := by
  cases owner : ctx.blockOwner b with
  | error fault =>
    rw [enclosingHwModule, blockAncestors, owner]
    rfl
  | ok start =>
    rw [enclosingHwModule, Report.lift_bind owner]
    cases start with
    | none =>
      rw [blockAncestors, owner]
      rfl
    | some p =>
      obtain ⟨⟨o, live⟩, -⟩ := wf.holds_of_blockOwner owner
      simp only
      rw [Report.lift_bind live, Report.bind_of_ok (Report.emit_result _ _)]
      cases ctx.blockAncestors b with
      | error fault => rfl
      | ok ops =>
        rw [Report.lift_bind rfl, Except.bind_ok, firstOfKind]
        cases ctx.firstCalled OpKind.hwModule.id ops with
        | error fault => rfl
        | ok first =>
          cases first with
          | none => rfl
          | some found =>
            rw [Report.lift_bind rfl, Except.bind_ok]
            simp only
            cases ctx.kindOf found <;> rfl

/-- What is in a block asks the same operations as the block. -/
theorem WellFormed.enclosingHwModule_eq (wf : ctx.WellFormed)
    (parent : ctx.parent op = ctx.blockOwner b) :
    (ctx.enclosingHwModule b).result = ctx.enclosing op .hwModule := by
  rw [wf.enclosingHwModule_result, enclosing_eq, ancestors, blockAncestors, parent]

/-- Where a kind is known, the innermost operation that is called like it is of that kind. -/
theorem Sound.firstOfKind_of_innermost (sound : ctx.Sound)
    (registered : (ctx.registry.kind? kind.id).isSome)
    (first : ctx.firstCalled kind.id ops = .ok found)
    (innermost : ctx.Innermost kind.id start found) : ctx.firstOfKind kind ops = .ok found := by
  rw [firstOfKind, first, Except.bind_ok]
  cases found with
  | none => rfl
  | some p =>
    obtain ⟨o, live, called⟩ := innermost.called
    simp [sound.kindOf_of_called registered live called]

theorem Sound.enclosing_of_innermost (sound : ctx.Sound) (acyclic : ctx.Acyclic)
    (registered : (ctx.registry.kind? kind.id).isSome) (parent : ctx.parent op = .ok start)
    (innermost : ctx.Innermost kind.id start found) : ctx.enclosing op kind = .ok found := by
  obtain ⟨ops, found', around, first, innermost'⟩ :=
    sound.wellFormed.innermost_of_parent acyclic parent
  cases innermost.unique innermost'
  rw [enclosing_eq, around, Except.bind_ok]
  exact sound.firstOfKind_of_innermost registered first innermost

/-! ## Insertions elsewhere on the way -/

theorem blockOwner_eq (ctx : Context) (b : BlockRef) :
    ctx.blockOwner b = ctx.links .blocks b >>= fun k =>
      match k.container with
      | some r => (ctx.ownerOf r).map some
      | none => .ok none := by
  rw [blockOwner, links_blocks]
  cases ctx.block b with
  | error fault => rfl
  | ok content =>
    cases container : content.links.container with
    | none => simp [container]
    | some r => cases found : ctx.region r <;> simp [container, ownerOf, found]

theorem parent_eq (ctx : Context) (op : OpRef) :
    ctx.parent op = ctx.links .ops op >>= fun k =>
      match k.container with
      | some b => ctx.blockOwner b
      | none => .ok none := by
  rw [parent, links_ops]
  cases ctx.operation op with
  | error fault => rfl
  | ok o => rfl

/-- Lists of operations have no say in what is around a block. -/
theorem SameBeside.blockOwner (beside : SameBeside .ops ctx ctx') (b : BlockRef) :
    ctx'.blockOwner b = ctx.blockOwner b := by
  simp only [blockOwner_eq, beside.links .blocks nofun, beside.owner]

/-- Other live operations stay where they are. -/
theorem parent_splice {prev next : Option OpRef} {o : Operation} (live : ctx.operation q = .ok o)
    (other : q ≠ op) : (ctx.splice .ops op b prev next).parent q = ctx.parent q := by
  rw [parent_eq, parent_eq, links_splice (links_of_operation live) other, links_of_operation live]
  simp only [Except.bind_ok, (splice_beside ctx .ops op b prev next).blockOwner]

theorem outward_congr (done : ctx.outward bound start = .ok ops)
    (same : ∀ q ∈ ops, ctx'.parent q = ctx.parent q) : ctx'.outward bound start = .ok ops := by
  induction bound generalizing start ops with
  | zero =>
    cases start with
    | none => exact done
    | some p => cases done
  | succ bound ih =>
    cases start with
    | none => exact done
    | some p =>
      obtain ⟨next, parent, done⟩ := Except.bind_eq_ok.mp done
      obtain ⟨rest, walk, equal⟩ := Except.bind_eq_ok.mp done
      cases equal
      have further := ih walk fun q mem => same q (List.mem_cons_of_mem p mem)
      simp only [outward, same p List.mem_cons_self, parent, Except.bind_ok, further,
        Except.pure_eq_ok]

/-- All that is met on the way outward from an object holds it. -/
theorem WellFormed.holds_of_outward (wf : ctx.WellFormed) (around : ctx.around x = .ok start)
    (done : ctx.outward bound start = .ok ops) :
    ∀ q ∈ ops, TransGen ctx.Holds (.operation q) x := by
  induction bound generalizing start ops x with
  | zero =>
    cases start with
    | none =>
      cases done
      simp
    | some p => cases done
  | succ bound ih =>
    cases start with
    | none =>
      cases done
      simp
    | some p =>
      obtain ⟨next, parent, done⟩ := Except.bind_eq_ok.mp done
      obtain ⟨rest, walk, equal⟩ := Except.bind_eq_ok.mp done
      cases equal
      intro q mem
      have holds := wf.holds_of_around around
      rcases List.mem_cons.mp mem with rfl | further
      · exact holds
      · exact (ih (x := .operation p) parent walk q further).trans holds

theorem firstCalled_congr
    (ids : ∀ op, (ctx'.operation op).map Operation.id = (ctx.operation op).map Operation.id)
    (id : QualifiedName) (ops : List OpRef) : ctx'.firstCalled id ops = ctx.firstCalled id ops := by
  have step : ∀ (ctx : Context) op rest, ctx.firstCalled id (op :: rest) =
      (ctx.operation op).map Operation.id >>= fun name =>
        if name = id then .ok (some op) else ctx.firstCalled id rest := by
    intro ctx op rest
    rw [firstCalled]
    cases ctx.operation op <;> rfl
  induction ops with
  | nil => rfl
  | cons op rest ih => rw [step, step, ids, ih]

theorem kindOf_congr
    (ids : ∀ op, (ctx'.operation op).map Operation.id = (ctx.operation op).map Operation.id)
    (registry : ctx'.registry = ctx.registry) (op : OpRef) : ctx'.kindOf op = ctx.kindOf op := by
  have name := ids op
  cases before : ctx.operation op with
  | error fault =>
    rw [before, Except.map_error, Except.map_eq_error] at name
    simp only [kindOf, before, name, Except.bind_error]
  | ok o =>
    rw [before, Except.map_ok, Except.map_eq_ok] at name
    obtain ⟨o', after, same⟩ := name
    simp only [kindOf, before, after, Except.bind_ok, same, registry]

/-- Which operation is the first of a kind does not depend on places. -/
theorem SameContents.firstOfKind (same : SameContents ctx ctx') (kind : OpKind)
    (ops : List OpRef) : ctx'.firstOfKind kind ops = ctx.firstOfKind kind ops := by
  have ids : ∀ op, (ctx'.operation op).map Operation.id = (ctx.operation op).map Operation.id := by
    intro op
    have contents := congrArg (Except.map Operation.id) (same.operation op)
    rwa [Except.map_map, Except.map_map] at contents
  simp only [Context.firstOfKind, firstCalled_congr ids, kindOf_congr ids same.registry]

/-- A block finds the hardware module that it found before an operation was linked that it is not
inside of. -/
theorem WellFormed.enclosingHwModule_link (wf : ctx.WellFormed) (acyclic : ctx.Acyclic)
    (live : ctx.Live (.block b)) {place : Place .ops} (linked : ctx.link .ops op place = .ok ctx')
    (outside : ¬ TransGen ctx.Holds (.operation op) (.block b)) :
    (ctx'.enclosingHwModule b).result = (ctx.enclosingHwModule b).result := by
  obtain ⟨content, live⟩ := live
  obtain ⟨start, owner⟩ := wf.exists_blockOwner live
  have started : ∀ p ∈ start, ctx.Live (.operation p) := by
    rintro p ⟨⟩
    exact (wf.holds_of_blockOwner owner).1
  obtain ⟨ops, walk⟩ := wf.outward_ok acyclic [] (by simp) List.nodup_nil (by simp) started
    (Nat.zero_add _)
  obtain ⟨free, c, ys, zs, splits, listed, rfl⟩ := (link_eq_ok wf).mp linked
  have kept : ∀ q ∈ ops, (ctx.splice .ops op c ys.getLast? zs.head?).parent q = ctx.parent q := by
    intro q mem
    have holds := wf.holds_of_outward (x := .block b) owner walk q mem
    obtain ⟨o, live⟩ := wf.live_of_outward started walk q mem
    exact parent_splice live fun same => outside (same ▸ holds)
  rw [wf.enclosingHwModule_result, (wf.splice free listed).enclosingHwModule_result, blockAncestors,
    blockAncestors, (splice_beside ctx .ops op c _ _).blockOwner, owner, Except.bind_ok,
    (splice_sameSlots ctx .ops op c _ _).operations.capacity, Except.bind_ok, walk,
    outward_congr walk kept]
  exact (splice_sameContents ctx .ops op c _ _).firstOfKind .hwModule ops

end Context

end HardwareIR
