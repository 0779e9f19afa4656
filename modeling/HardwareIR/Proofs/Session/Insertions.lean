import HardwareIR.Proofs.Context.Insertions
import HardwareIR.Proofs.Session.Atomicity

/-! # Insertions at one point in sessions

Whatever happened in a session, operations in no block can all be inserted at a point exactly where
the point has a block, and the point tells which block they come into and in which order.
-/

namespace HardwareIR

namespace Context

variable {ctx : Context} {hash : Digest → UInt64} {calls : List Call}

theorem WellFormed.free_of_isLinked {l : Level} {x : Handle l.node} (wf : ctx.WellFormed)
    (apart : ctx.isLinked l x = .ok false) : ctx.links l x = .ok {} := by
  obtain ⟨k, live, -⟩ := isLinked_eq_ok.mp apart
  exact wf.free_iff.mpr ⟨live_ofNode.mpr ⟨k, live⟩, by simp [apart]⟩

/-- A point that names nothing freed has a block exactly if operations in no block can be inserted
there one after the other.  After every one of them the point has the same block, and the operations
so far are in it, next to each other: in order at the end of the block or before a mark, and in
reverse at its start or after a mark.  What was in the block stays around them, and no other block
changes. -/
theorem inserted_one_by_one (reached : ctx = (Context.empty hash).after calls)
    {point : InsertionPoint} (live : point.Live ctx) {ops : List OpRef} (some_op : ops ≠ [])
    (distinct : ops.Nodup) (apart : ∀ op ∈ ops, ctx.isLinked .ops op = .ok false) :
    ∃ found, point.block? ctx = .ok found ∧
      ((∃ ctx', point.insertAll ctx ops = .ok ctx') ↔ found.isSome) ∧
      ∀ b, found = some b → ∃ place ys zs, point.place? = some place ∧ place.Splits b ys zs ∧
        ctx.members .ops b = .ok (ys ++ zs) ∧
        ∀ before, before <+: ops → ∃ ctx', point.insertAll ctx before = .ok ctx' ∧
          point.block? ctx' = .ok (some b) ∧
          ctx'.members .ops b = .ok (ys ++ point.arrange before ++ zs) ∧
          (∀ op ∈ before, ∃ k, ctx'.links .ops op = .ok k ∧ k.container = some b) ∧
          ∀ c, c ≠ b → ctx'.members .ops c = ctx.members .ops c := by
  have wf : ctx.WellFormed := reached ▸ (empty_wellFormed hash).after calls
  have free : ∀ op ∈ ops, ctx.links .ops op = .ok {} := fun op mem =>
    wf.free_of_isLinked (apart op mem)
  rcases wf.block?_of_live live with nowhere | ⟨b, block, live⟩
  · refine ⟨none, nowhere, ⟨?_, nofun⟩, nofun⟩
    rintro ⟨ctx', all⟩
    obtain ⟨op, ops, rfl⟩ := List.exists_cons_of_ne_nil some_op
    -- The first insertion is one in a block already.
    rw [InsertionPoint.insertAll, List.foldlM_cons] at all
    obtain ⟨_, inserted, -⟩ := Except.bind_eq_ok.mp all
    obtain ⟨b, _, _, _, block, -⟩ := wf.insert_eq_splice inserted
    cases nowhere.symm.trans block
  · obtain ⟨place, ys, zs, at_place, splits, listed⟩ := wf.exists_place block live
    refine ⟨some b, block, ⟨fun _ => rfl, fun _ => ?_⟩, ?_⟩
    · obtain ⟨ctx', all, -⟩ := wf.insertAll listed at_place splits distinct free
      exact ⟨ctx', all⟩
    · rintro _ ⟨⟩
      refine ⟨place, ys, zs, at_place, splits, listed.members, fun before part => ?_⟩
      obtain ⟨ctx', all, listed', block', others⟩ := wf.insertAll listed at_place splits
        (distinct.sublist part.sublist) fun op mem => free op (part.subset mem)
      refine ⟨ctx', all, block', listed'.members, fun op mem => ?_, others⟩
      exact listed'.container_of_mem (by simp [mem])

/-- An operation without results, operands and regions is made. -/
def newNop : Call :=
  .newOperation ⟨{ text := "test" }, { text := "nop" }⟩ [] [] 0

/-- A block with two operations, and three operations in no block. -/
def looseOperations : Context :=
  Context.empty.after [.newModule "m", newNop, newNop, newNop, newNop, newNop,
    .link .ops ⟨1, 0⟩ (.back ⟨0, 0⟩), .link .ops ⟨2, 0⟩ (.back ⟨0, 0⟩)]

/-- Between the two operations the three come in reverse after the first one, and in order before
the second one. -/
theorem inserted_one_by_one_loose :
    (∃ ctx', (InsertionPoint.after ⟨1, 0⟩).insertAll looseOperations
        [⟨3, 0⟩, ⟨4, 0⟩, ⟨5, 0⟩] = .ok ctx' ∧
      ctx'.members .ops ⟨0, 0⟩ = .ok [⟨1, 0⟩, ⟨5, 0⟩, ⟨4, 0⟩, ⟨3, 0⟩, ⟨2, 0⟩]) ∧
    ∃ ctx', (InsertionPoint.before ⟨2, 0⟩).insertAll looseOperations
        [⟨3, 0⟩, ⟨4, 0⟩, ⟨5, 0⟩] = .ok ctx' ∧
      ctx'.members .ops ⟨0, 0⟩ = .ok [⟨1, 0⟩, ⟨3, 0⟩, ⟨4, 0⟩, ⟨5, 0⟩, ⟨2, 0⟩] := by
  have apart : ∀ op ∈ ([⟨3, 0⟩, ⟨4, 0⟩, ⟨5, 0⟩] : List OpRef),
      looseOperations.isLinked .ops op = .ok false := by
    simp only [List.forall_mem_cons]
    exact ⟨rfl, rfl, rfl, nofun⟩
  have first : (InsertionPoint.after ⟨1, 0⟩).Live looseOperations := ⟨_, rfl⟩
  have second : (InsertionPoint.before ⟨2, 0⟩).Live looseOperations := ⟨_, rfl⟩
  obtain ⟨_, ⟨⟩, whenever, -⟩ := inserted_one_by_one rfl first (by simp) (by decide) apart
  obtain ⟨_, ⟨⟩, whenever', -⟩ := inserted_one_by_one rfl second (by simp) (by decide) apart
  obtain ⟨ctx', all⟩ := whenever.mpr rfl
  obtain ⟨ctx'', all'⟩ := whenever'.mpr rfl
  refine ⟨⟨ctx', all, ?_⟩, ctx'', all', ?_⟩
  · cases all
    rfl
  · cases all'
    rfl

end Context

end HardwareIR
