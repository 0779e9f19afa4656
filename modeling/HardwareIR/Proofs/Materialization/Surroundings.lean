import HardwareIR.Proofs.Materialization.Effect

/-! # What is around after an insertion

A new operation that was inserted holds nothing, and nothing that was there before has moved.  So
every operation has the same operations around it as before, and the new one those that are around
its block; and no operation has come to be inside itself.
-/

namespace HardwareIR

open Relation (TransGen)

namespace Context

variable {ctx ctx' : Context} {point : InsertionPoint} {op p : OpRef} {o content : Operation}
  {b : BlockRef} {x y : Object}

/-! ## Places -/

/-- An operation is in the block whose list it is in. -/
theorem WellFormed.container_eq_some_iff (wf : ctx.WellFormed)
    (live : ctx.operation p = .ok content) :
    content.links.container = some b ↔ ∃ ops, ctx.members .ops b = .ok ops ∧ p ∈ ops := by
  constructor
  · intro container
    obtain ⟨ops, listed, mem⟩ := wf.linked (links_of_operation live) container
    exact ⟨ops, listed.members, mem⟩
  · rintro ⟨ops, members, mem⟩
    exact (wf.listed_of_members members).eq_of_mem mem (links_of_operation live)

namespace Inserted

theorem live (inserted : Inserted ctx ctx' point op o) :
    ∃ b k, point.block? ctx = .ok (some b) ∧ ctx'.operation op = .ok { o with links := k } ∧
      k.container = some b := by
  obtain ⟨b, place, ys, zs, block, -, -, -, -, live, -⟩ := inserted.list
  exact ⟨b, _, block, live, rfl⟩

theorem ne_of_live (inserted : Inserted ctx ctx' point op o)
    (live : ctx.operation p = .ok content) : p ≠ op := by
  rintro rfl
  rw [inserted.fresh] at live
  cases live

/-- A list is what it was, except that there is the new operation in one of them. -/
theorem members_cases (inserted : Inserted ctx ctx' point op o) (b : BlockRef) :
    ctx'.members .ops b = ctx.members .ops b ∨
      ∃ ys zs, ctx.members .ops b = .ok (ys ++ zs) ∧
        ctx'.members .ops b = .ok (ys ++ op :: zs) := by
  obtain ⟨b', place, ys, zs, -, -, -, before, after, -, others⟩ := inserted.list
  by_cases here : b = b'
  · subst here
    exact .inr ⟨ys, zs, before, after⟩
  · exact .inl (others b here)

theorem mem_members_iff (inserted : Inserted ctx ctx' point op o) (other : p ≠ op) :
    (∃ ops, ctx'.members .ops b = .ok ops ∧ p ∈ ops) ↔
      ∃ ops, ctx.members .ops b = .ok ops ∧ p ∈ ops := by
  rcases inserted.members_cases b with same | ⟨ys, zs, before, after⟩
  · rw [same]
  · simp [before, after, other]

/-- What was there before is the same but for its links. -/
theorem operation_relinked (inserted : Inserted ctx ctx' point op o)
    (before : ctx.operation p = .ok content) :
    ∃ k, ctx'.operation p = .ok { content with links := k } := by
  have same := inserted.operations p (inserted.ne_of_live before)
  rw [before, Except.map_ok, Except.map_eq_ok] at same
  obtain ⟨content', after, contents⟩ := same
  rw [Operation.eq_of_contents contents] at after
  exact ⟨_, after⟩

/-- What was there before is in the same block as before. -/
theorem operation_kept (inserted : Inserted ctx ctx' point op o) (wf : ctx.WellFormed)
    (wf' : ctx'.WellFormed) (before : ctx.operation p = .ok content) :
    ∃ content', ctx'.operation p = .ok content' ∧ content'.contents = content.contents ∧
      content'.links.container = content.links.container := by
  obtain ⟨k, after⟩ := inserted.operation_relinked before
  refine ⟨_, after, rfl, ?_⟩
  apply Option.ext
  intro b
  rw [wf'.container_eq_some_iff after, wf.container_eq_some_iff before]
  exact inserted.mem_members_iff (inserted.ne_of_live before)

/-! ## The way outward -/

theorem blockOwner_eq (inserted : Inserted ctx ctx' point op o) (b : BlockRef) :
    ctx'.blockOwner b = ctx.blockOwner b := by
  simp only [Context.blockOwner_eq, links_blocks, inserted.blockLinks, ownerOf, inserted.regions]

theorem parent_eq (inserted : Inserted ctx ctx' point op o) (wf : ctx.WellFormed)
    (wf' : ctx'.WellFormed) (before : ctx.operation p = .ok content) :
    ctx'.parent p = ctx.parent p := by
  obtain ⟨content', after, -, container⟩ := inserted.operation_kept wf wf' before
  simp only [parent, before, after, Except.bind_ok, container, inserted.blockOwner_eq]

theorem parent_self (inserted : Inserted ctx ctx' point op o) :
    ∃ b, point.block? ctx = .ok (some b) ∧ ctx'.parent op = ctx.blockOwner b := by
  obtain ⟨b, k, block, live, container⟩ := inserted.live
  refine ⟨b, block, ?_⟩
  simp only [parent, live, Except.bind_ok, container, inserted.blockOwner_eq]

/-- The walk outward meets the same operations as before. -/
theorem innermost (inserted : Inserted ctx ctx' point op o) (wf : ctx.WellFormed)
    (wf' : ctx'.WellFormed) {id : QualifiedName} {start found : Option OpRef}
    (innermost : ctx.Innermost id start found) : ctx'.Innermost id start found := by
  induction innermost with
  | outside => exact .outside
  | here live called =>
    obtain ⟨content', live', contents, -⟩ := inserted.operation_kept wf wf' live
    have same := congrArg Operation.id contents
    exact .here live' (same.trans called)
  | further live other parent _ ih =>
    obtain ⟨content', live', contents, -⟩ := inserted.operation_kept wf wf' live
    have same := congrArg Operation.id contents
    refine .further live' (fun called => other (same.symm.trans called)) ?_ ih
    rw [inserted.parent_eq wf wf' live]
    exact parent

/-- Modules declare the parameters that they declared before. -/
theorem parameters_kept (inserted : Inserted ctx ctx' point op o) (wf : ctx.WellFormed)
    (wf' : ctx'.WellFormed) {declarations : List ParamDecl}
    (found : ctx.parameters p = .ok declarations) : ctx'.parameters p = .ok declarations := by
  obtain ⟨content, before, read⟩ := Except.bind_eq_ok.mp found
  obtain ⟨content', after, contents, -⟩ := inserted.operation_kept wf wf' before
  rw [Operation.eq_of_contents contents] at after
  rw [parameters, after, Except.bind_ok]
  exact read

/-! ## Nesting -/

/-- Only the new operation is held where it was not before. -/
theorem holds_cases (inserted : Inserted ctx ctx' point op o) (wf : ctx.WellFormed)
    (plain : o.regions = []) (held : ctx'.Holds x y) : ctx.Holds x y ∨ y = .operation op := by
  cases held with
  | @region p rs r regions mem =>
    obtain ⟨content', after, same⟩ := Except.map_eq_ok.mp regions
    by_cases new : p = op
    · obtain ⟨b, k, -, live, -⟩ := inserted.live
      subst new
      rw [live] at after
      cases after
      rw [← same, plain] at mem
      cases mem
    · have contents := inserted.operations p new
      rw [after, Except.map_ok, eq_comm, Except.map_eq_ok] at contents
      obtain ⟨content, before, equal⟩ := contents
      have kept : content.regions = content'.regions := by rw [Operation.eq_of_contents equal]
      exact .inl (.region (regionsOf_of_operation before) (by rw [kept, same]; exact mem))
  | block listed mem =>
    have members := (inserted.blockLists _).symm.trans listed.members
    exact .inl (.block (wf.listed_of_members members) mem)
  | @operation b ops p listed mem =>
    by_cases new : p = op
    · exact .inr (congrArg Object.operation new)
    · obtain ⟨ops', members, mem'⟩ := (inserted.mem_members_iff new).mp ⟨ops, listed.members, mem⟩
      exact .inl (.operation (wf.listed_of_members members) mem')

theorem holds_nothing (inserted : Inserted ctx ctx' point op o) (plain : o.regions = []) :
    ¬ ctx'.Holds (.operation op) y := by
  intro held
  obtain ⟨b, k, -, live, -⟩ := inserted.live
  cases held with
  | region regions mem =>
    rw [regionsOf_of_operation live] at regions
    cases regions
    rw [plain] at mem
    cases mem

/-- No operation is inside itself that was not before. -/
theorem acyclic (inserted : Inserted ctx ctx' point op o) (wf : ctx.WellFormed)
    (plain : o.regions = []) (acyclic : ctx.Acyclic) : ctx'.Acyclic := by
  -- A way down that does not end at the new operation does not pass through it.
  have older : ∀ {x y}, TransGen ctx'.Holds x y →
      TransGen ctx.Holds x y ∨ y = .operation op := by
    intro x y inside
    induction inside with
    | single held =>
      rcases inserted.holds_cases wf plain held with old | new
      · exact .inl (.single old)
      · exact .inr new
    | tail _ held ih =>
      rcases ih with way | rfl
      · rcases inserted.holds_cases wf plain held with old | new
        · exact .inl (way.tail old)
        · exact .inr new
      · exact absurd held (inserted.holds_nothing plain)
  intro p cycle
  rcases older cycle with old | new
  · exact acyclic p old
  · obtain ⟨y, held, -⟩ := TransGen.head'_iff.mp cycle
    rw [new] at held
    exact inserted.holds_nothing plain held

end Inserted

end Context

end HardwareIR
