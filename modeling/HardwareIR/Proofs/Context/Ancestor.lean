import HardwareIR.Context.Ancestor
import HardwareIR.Proofs.Context.Nesting

/-! # What encloses what

In a well-formed context the way outward never meets a freed object.  Where no operation is inside
itself it also ends, so that `Context.firstCalled` on the way answers which operation called `id`
is the innermost around a place (`Context.Innermost`).
-/

namespace HardwareIR

open Relation (TransGen)

namespace Context

variable {ctx : Context} {op p : OpRef} {b : BlockRef} {id : QualifiedName}
  {start found found' : Option OpRef}

/-- No operation is inside itself. -/
def Acyclic (ctx : Context) : Prop :=
  ∀ op, ¬ TransGen ctx.Holds (.operation op) (.operation op)

/-- Where every operation is in no block, none is inside anything. -/
theorem acyclic_of_free
    (free : ∀ s ∈ ctx.operations.slots, ∀ o ∈ s.content, o.links.container = none) :
    ctx.Acyclic := by
  intro op inside
  obtain ⟨x, -, holds⟩ := TransGen.tail'_iff.mp inside
  cases holds with
  | operation listed mem =>
    obtain ⟨k, links, container⟩ := listed.container_of_mem mem
    obtain ⟨o, live, rfl⟩ := operation_of_links links
    have slot := Arena.get?_eq_some_iff.mp (operation_eq_ok.mp live)
    rw [free _ (List.mem_of_getElem? slot) o rfl] at container
    cases container

/-! ## One step outward -/

theorem WellFormed.exists_blockOwner (wf : ctx.WellFormed) {content : Block}
    (live : ctx.block b = .ok content) : ∃ start, ctx.blockOwner b = .ok start := by
  cases container : content.links.container with
  | none => exact ⟨none, by simp [blockOwner, live, container]⟩
  | some r =>
    obtain ⟨bs, listed, -⟩ := wf.linked (links_of_block live) container
    obtain ⟨region, found, -⟩ := region_of_ends listed.ends
    exact ⟨some region.owner, by simp [blockOwner, live, container, found]⟩

theorem WellFormed.exists_parent (wf : ctx.WellFormed) {o : Operation}
    (live : ctx.operation op = .ok o) : ∃ start, ctx.parent op = .ok start := by
  cases container : o.links.container with
  | none => exact ⟨none, by simp [parent, live, container]⟩
  | some b =>
    obtain ⟨ops, listed, -⟩ := wf.linked (links_of_operation live) container
    obtain ⟨content, found, -⟩ := block_of_ends listed.ends
    obtain ⟨start, owner⟩ := wf.exists_blockOwner found
    exact ⟨start, by simp [parent, live, container, owner]⟩

/-- The operation around a block holds it. -/
theorem WellFormed.holds_of_blockOwner (wf : ctx.WellFormed)
    (owner : ctx.blockOwner b = .ok (some p)) :
    ctx.Live (.operation p) ∧ TransGen ctx.Holds (.operation p) (.block b) := by
  obtain ⟨content, live, owner⟩ := Except.bind_eq_ok.mp owner
  split at owner
  next r container =>
    obtain ⟨region, found, same⟩ := Except.bind_eq_ok.mp owner
    cases same
    obtain ⟨bs, listed, mem⟩ := wf.linked (links_of_block live) container
    obtain ⟨rs, regions, mem'⟩ := wf.owner (ownerOf_of_region found)
    obtain ⟨o, live', -⟩ := Except.map_eq_ok.mp regions
    exact ⟨⟨o, live'⟩, .tail (.single (.region regions mem')) (.block listed mem)⟩
  next => cases owner

/-- The operation around an operation holds it. -/
theorem WellFormed.holds_of_parent (wf : ctx.WellFormed) (parent : ctx.parent op = .ok (some p)) :
    ctx.Live (.operation p) ∧ TransGen ctx.Holds (.operation p) (.operation op) := by
  obtain ⟨o, live, parent⟩ := Except.bind_eq_ok.mp parent
  split at parent
  next b container =>
    obtain ⟨live', holds⟩ := wf.holds_of_blockOwner parent
    obtain ⟨ops, listed, mem⟩ := wf.linked (links_of_operation live) container
    exact ⟨live', holds.tail (.operation listed mem)⟩
  next => cases parent

/-- The operation around an object. -/
def around (ctx : Context) : Object → Except Fault (Option OpRef)
  | .operation op => ctx.parent op
  | .region r => (ctx.ownerOf r).map some
  | .block b => ctx.blockOwner b

/-- Around what an operation holds is the operation; around what regions and blocks hold is what is
around them. -/
theorem WellFormed.around_of_holds (wf : ctx.WellFormed) {x y : Object} (held : ctx.Holds x y) :
    ctx.around y = match x with
      | .operation op => .ok (some op)
      | .region r => ctx.around (.region r)
      | .block b => ctx.around (.block b) := by
  cases held with
  | region regions mem =>
    simp only [around, (wf.regions regions).2 _ mem, Except.map_ok]
  | block listed mem =>
    obtain ⟨k, links, container⟩ := listed.container_of_mem mem
    obtain ⟨content, found, rfl⟩ := block_of_links links
    obtain ⟨region, found', -⟩ := region_of_ends listed.ends
    simp [around, blockOwner, found, container, found', ownerOf]
  | operation listed mem =>
    obtain ⟨k, links, container⟩ := listed.container_of_mem mem
    obtain ⟨o, found, rfl⟩ := operation_of_links links
    simp [around, parent, found, container]

/-- Where every operation is in a higher slot than the operation around it, what an operation holds
is in none of lower slots. -/
theorem WellFormed.slot_le_around (wf : ctx.WellFormed)
    (outward : ∀ op p, ctx.parent op = .ok (some p) → p.slot < op.slot) {y : Object}
    (below : TransGen ctx.Holds (.operation p) y) :
    ∃ q, ctx.around y = .ok (some q) ∧ p.slot ≤ q.slot := by
  induction below with
  | single held => exact ⟨p, wf.around_of_holds held, Nat.le_refl _⟩
  | @tail x y _ held ih =>
    obtain ⟨q, around, le⟩ := ih
    have next := wf.around_of_holds held
    cases x with
    | operation op => exact ⟨op, next, Nat.le_trans le (Nat.le_of_lt (outward op q around))⟩
    | region r => exact ⟨q, next.trans around, le⟩
    | block b => exact ⟨q, next.trans around, le⟩

/-- Where every operation is in a higher slot than the operation around it, none is inside
itself. -/
theorem WellFormed.acyclic_of_slots (wf : ctx.WellFormed)
    (outward : ∀ e ∈ ctx.operations.slots.zipIdx,
      ∀ start ∈ (ctx.parent ⟨e.2, e.1.generation⟩).toOption, ∀ p ∈ start, p.slot < e.2) :
    ctx.Acyclic := by
  have outward' : ∀ op p, ctx.parent op = .ok (some p) → p.slot < op.slot := by
    intro op p parent
    obtain ⟨o, live, -⟩ := Except.bind_eq_ok.mp parent
    have slot := Arena.get?_eq_some_iff.mp (operation_eq_ok.mp live)
    exact outward ⟨_, op.slot⟩ (List.mem_zipIdx_iff_getElem?.mpr slot) (some p)
      (by simp [parent, Except.toOption]) p rfl
  intro op inside
  obtain ⟨q, around, le⟩ := wf.slot_le_around outward' inside
  exact absurd (outward' op q around) (Nat.not_lt.mpr le)

/-! ## The way outward -/

/-- The operations met on the way outward are distinct, so that the way is no longer than there are
slots. -/
theorem WellFormed.outward_ok (wf : ctx.WellFormed) (acyclic : ctx.Acyclic) (path : List OpRef)
    {bound : Nat}
    (inside : ∀ op ∈ path, ∀ p ∈ start, TransGen ctx.Holds (.operation p) (.operation op))
    (nodup : path.Nodup) (live : ∀ op ∈ path, ctx.Live (.operation op))
    (started : ∀ p ∈ start, ctx.Live (.operation p))
    (room : path.length + bound = ctx.operations.capacity + 1) :
    ∃ ops, ctx.outward bound start = .ok ops := by
  -- `path` are the operations met so far: each step outward takes one from the bound.
  induction bound generalizing start path with
  | zero =>
    -- There would be more of them than there are slots.
    have short : path.length ≤ ctx.operations.capacity := by
      refine Arena.length_le_capacity nodup fun op mem => ?_
      obtain ⟨o, found⟩ := live op mem
      rw [operation_eq_ok.mp found]
      rfl
    omega
  | succ bound ih =>
    cases start with
    | none => exact ⟨[], rfl⟩
    | some p =>
      obtain ⟨o, found⟩ := started p rfl
      obtain ⟨next, parent⟩ := wf.exists_parent found
      have fresh : p ∉ path := fun mem => acyclic p (inside p mem p rfl)
      -- Seen from farther out, all of the path is still inside.
      have rest : ∃ ops, ctx.outward bound next = .ok ops := by
        refine ih (p :: path) ?_ (List.nodup_cons.mpr ⟨fresh, nodup⟩) ?_ ?_ ?_
        · intro op mem p' further
          cases further
          have above := (wf.holds_of_parent parent).2
          rcases List.mem_cons.mp mem with rfl | deeper
          · exact above
          · exact above.trans (inside op deeper p rfl)
        · intro op mem
          rcases List.mem_cons.mp mem with rfl | deeper
          · exact ⟨o, found⟩
          · exact live op deeper
        · intro p' further
          cases further
          exact (wf.holds_of_parent parent).1
        · rw [List.length_cons]
          omega
      obtain ⟨ops, done⟩ := rest
      exact ⟨p :: ops, by simp [outward, parent, done]⟩

theorem WellFormed.live_of_outward (wf : ctx.WellFormed) {bound : Nat} {ops : List OpRef}
    (started : ∀ p ∈ start, ctx.Live (.operation p)) (done : ctx.outward bound start = .ok ops) :
    ∀ op ∈ ops, ctx.Live (.operation op) := by
  induction bound generalizing start ops with
  | zero =>
    cases start with
    | none =>
      cases done
      simp
    | some p => cases done
  | succ bound ih =>
    cases start with
    | none =>
      cases done
      simp
    | some p =>
      obtain ⟨next, parent, done⟩ := Except.bind_eq_ok.mp done
      obtain ⟨rest, walk, same⟩ := Except.bind_eq_ok.mp done
      cases same
      intro op mem
      rcases List.mem_cons.mp mem with rfl | further
      · exact started op rfl
      · refine ih ?_ walk op further
        intro p' around
        cases around
        exact (wf.holds_of_parent parent).1

/-! ## The innermost operation of a name -/

/-- The first operation called `id` on the way outward from `start`, if there is one. -/
inductive Innermost (ctx : Context) (id : QualifiedName) : Option OpRef → Option OpRef → Prop where
  | outside : Innermost ctx id none none
  | here {op : OpRef} {o : Operation} :
      ctx.operation op = .ok o → o.id = id → Innermost ctx id (some op) (some op)
  | further {op : OpRef} {o : Operation} {start found : Option OpRef} :
      ctx.operation op = .ok o → o.id ≠ id → ctx.parent op = .ok start →
        Innermost ctx id start found → Innermost ctx id (some op) found

theorem Innermost.unique (first : ctx.Innermost id start found)
    (second : ctx.Innermost id start found') : found = found' := by
  induction first generalizing found' with
  | outside =>
    cases second with
    | outside => rfl
  | here live called =>
    cases second with
    | here => rfl
    | further live' other _ _ =>
      rw [live] at live'
      cases live'
      exact absurd called other
  | further live other parent _ ih =>
    cases second with
    | here live' called =>
      rw [live] at live'
      cases live'
      exact absurd called other
    | further _ _ parent' rest =>
      rw [parent] at parent'
      cases parent'
      exact ih rest

theorem Innermost.called (innermost : ctx.Innermost id start (some op)) :
    ∃ o, ctx.operation op = .ok o ∧ o.id = id := by
  generalize same : some op = found at innermost
  -- The end of the walk stays the same while the induction goes along it.
  induction innermost with
  | outside => cases same
  | here live called =>
    cases same
    exact ⟨_, live, called⟩
  | further _ _ _ _ ih => exact ih same

theorem innermost_of_outward {bound : Nat} {ops : List OpRef}
    (done : ctx.outward bound start = .ok ops) (first : ctx.firstCalled id ops = .ok found) :
    ctx.Innermost id start found := by
  induction bound generalizing start ops with
  | zero =>
    cases start with
    | none =>
      cases done
      cases first
      exact .outside
    | some p => cases done
  | succ bound ih =>
    cases start with
    | none =>
      cases done
      cases first
      exact .outside
    | some p =>
      obtain ⟨next, parent, done⟩ := Except.bind_eq_ok.mp done
      obtain ⟨rest, walk, same⟩ := Except.bind_eq_ok.mp done
      cases same
      obtain ⟨o, live, first⟩ := Except.bind_eq_ok.mp first
      split at first
      next called =>
        cases first
        exact .here live called
      next other => exact .further live other parent (ih walk first)

theorem exists_firstCalled {ops : List OpRef} (live : ∀ op ∈ ops, ctx.Live (.operation op)) :
    ∃ found, ctx.firstCalled id ops = .ok found := by
  induction ops with
  | nil => exact ⟨none, rfl⟩
  | cons op ops ih =>
    obtain ⟨o, found⟩ := live op List.mem_cons_self
    by_cases called : o.id = id
    · exact ⟨some op, by simp [firstCalled, found, called]⟩
    · obtain ⟨first, rest⟩ := ih fun op' mem => live op' (List.mem_cons_of_mem op mem)
      exact ⟨first, by simp [firstCalled, found, called, rest]⟩

/-- The walk outward from a live operation finds the innermost one called `id`. -/
theorem WellFormed.innermost_from (wf : ctx.WellFormed) (acyclic : ctx.Acyclic)
    (started : ∀ p ∈ start, ctx.Live (.operation p)) :
    ∃ ops found, ctx.outward (ctx.operations.capacity + 1) start = .ok ops ∧
      ctx.firstCalled id ops = .ok found ∧ ctx.Innermost id start found := by
  obtain ⟨ops, done⟩ := wf.outward_ok acyclic [] (by simp) List.nodup_nil (by simp) started
    (Nat.zero_add _)
  obtain ⟨found, first⟩ := exists_firstCalled (wf.live_of_outward started done)
  exact ⟨ops, found, done, first, innermost_of_outward done first⟩

/-- The walk outward from a live block finds the innermost operation called `id` around it. -/
theorem WellFormed.innermost_around (wf : ctx.WellFormed) (acyclic : ctx.Acyclic) {content : Block}
    (live : ctx.block b = .ok content) :
    ∃ start ops found, ctx.blockOwner b = .ok start ∧ ctx.blockAncestors b = .ok ops ∧
      ctx.firstCalled id ops = .ok found ∧ ctx.Innermost id start found := by
  obtain ⟨start, owner⟩ := wf.exists_blockOwner live
  have started : ∀ p ∈ start, ctx.Live (.operation p) := by
    intro p around
    cases around
    exact (wf.holds_of_blockOwner owner).1
  obtain ⟨ops, found, done, first, innermost⟩ := wf.innermost_from acyclic started
  refine ⟨start, ops, found, owner, ?_, first, innermost⟩
  simp only [blockAncestors, owner, Except.bind_ok, done]

/-- So does the walk outward from a live operation for what is around that. -/
theorem WellFormed.innermost_of_parent (wf : ctx.WellFormed) (acyclic : ctx.Acyclic)
    (parent : ctx.parent op = .ok start) :
    ∃ ops found, ctx.ancestors op = .ok ops ∧ ctx.firstCalled id ops = .ok found ∧
      ctx.Innermost id start found := by
  have started : ∀ p ∈ start, ctx.Live (.operation p) := by
    intro p around
    cases around
    exact (wf.holds_of_parent parent).1
  obtain ⟨ops, found, done, first, innermost⟩ := wf.innermost_from acyclic started
  refine ⟨ops, found, ?_, first, innermost⟩
  simp only [ancestors, parent, Except.bind_ok, done]

end Context

end HardwareIR
