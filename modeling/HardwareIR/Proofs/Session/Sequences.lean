import HardwareIR.Proofs.Context.Sequences
import HardwareIR.Proofs.Session.Standard

/-! # Sequences of nodes in sessions

Whatever happened in a session, list edits do to the sequences of operations and of blocks what
their names say, and nothing else.  Linking and unlinking undo each other.
-/

namespace HardwareIR

namespace Context

variable {ctx : Context} {hash : Digest → UInt64} {calls : List Call}

/-- Linking puts a node between the two parts of a sequence that the place is between, and unlinking
takes it out again; all other sequences stay as they are.  What is unlinked goes back to where it
was before its old neighbour, after its old neighbour, and at an end of the sequence if it was
there. -/
theorem sequences_edited (reached : ctx = (Context.empty hash).after calls) (l : Level)
    (x : Handle l.node) :
    (∀ place ctx', ctx.link l x place = .ok ctx' →
      (∃ c ys zs, place.Splits c ys zs ∧ Joined ctx ctx' l x c ys zs) ∧
        ctx'.unlink l x = .ok ctx) ∧
    ∀ k c, ctx.links l x = .ok k → k.container = some c →
      ∃ ctx' ys zs, ctx.unlink l x = .ok ctx' ∧ Joined ctx' ctx l x c ys zs ∧
        (∀ mark, k.next = some mark → ctx'.link l x (.before mark) = .ok ctx) ∧
        (∀ mark, k.prev = some mark → ctx'.link l x (.after mark) = .ok ctx) ∧
        (k.prev = none → ctx'.link l x (.front c) = .ok ctx) ∧
        (k.next = none → ctx'.link l x (.back c) = .ok ctx) := by
  have wf : ctx.WellFormed := reached ▸ (empty_wellFormed hash).after calls
  constructor
  · intro place ctx' linked
    refine ⟨?_, wf.unlink_of_link linked⟩
    obtain ⟨free, c, ys, zs, splits, listed, rfl⟩ := (link_eq_ok wf).mp linked
    exact ⟨c, ys, zs, splits, wf.joined_splice free listed⟩
  · intro k c live container
    obtain ⟨xs, listed, mem⟩ := wf.linked live container
    obtain ⟨ys, zs, rfl⟩ := List.append_of_mem mem
    obtain rfl := Except.ok.inj (live.symm.trans (listed.links ys x zs rfl))
    have unlinked := (unlink_eq_ok wf).mpr ⟨c, ys, zs, listed, rfl⟩
    refine ⟨_, ys, zs, unlinked, wf.joined_bypass listed, ?_, ?_, ?_, ?_⟩
    · exact fun mark next => wf.link_of_unlink listed next
    · exact fun mark prev => wf.link_of_unlink listed prev
    · exact fun first => wf.link_of_unlink listed ⟨rfl, List.getLast?_eq_none_iff.mp first⟩
    · exact fun last => wf.link_of_unlink listed ⟨rfl, List.head?_eq_none_iff.mp last⟩

/-- Three blocks in a region: the one in the middle can be taken out and put back before the last
one, and a fourth one that is put before it can be taken out again. -/
theorem sequences_edited_blocks :
    ∃ ctx : Context, ctx.members .blocks ⟨0, 0⟩ = .ok [⟨0, 0⟩, ⟨1, 0⟩, ⟨2, 0⟩] ∧
      (∃ ctx', ctx.unlink .blocks ⟨1, 0⟩ = .ok ctx' ∧
        ctx'.members .blocks ⟨0, 0⟩ = .ok [⟨0, 0⟩, ⟨2, 0⟩] ∧
        ctx'.link .blocks ⟨1, 0⟩ (.before ⟨2, 0⟩) = .ok ctx) ∧
      ∃ ctx', ctx.link .blocks ⟨3, 0⟩ (.before ⟨1, 0⟩) = .ok ctx' ∧
        ctx'.members .blocks ⟨0, 0⟩ = .ok [⟨0, 0⟩, ⟨3, 0⟩, ⟨1, 0⟩, ⟨2, 0⟩] ∧
        ctx'.unlink .blocks ⟨3, 0⟩ = .ok ctx := by
  have reached := rfl (a := Context.empty.after [.newModule "m", .newBlock none [],
    .newBlock none [], .newBlock none [], .link .blocks ⟨1, 0⟩ (.back ⟨0, 0⟩),
    .link .blocks ⟨2, 0⟩ (.back ⟨0, 0⟩)])
  obtain ⟨ctx', ys, zs, unlinked, -, before, -⟩ :=
    (sequences_edited reached .blocks ⟨1, 0⟩).2 _ ⟨0, 0⟩ rfl rfl
  have undone := ((sequences_edited reached .blocks ⟨3, 0⟩).1 (.before ⟨1, 0⟩) _ rfl).2
  have back := before ⟨2, 0⟩ rfl
  cases unlinked
  exact ⟨_, rfl, ⟨_, rfl, rfl, back⟩, _, rfl, rfl, undone⟩

end Context

end HardwareIR
