import HardwareIR.Proofs.Context.Cursor
import HardwareIR.Proofs.Context.Makings
import HardwareIR.Proofs.Session.Standard

/-! # Iteration from both ends in sessions

Whatever happened in a session, a walk over the list of a live container can be asked for nodes from
the front and from the back in any order.  It gives every node once and then no more.
-/

namespace HardwareIR

namespace Context

variable {ctx : Context} {hash : Digest → UInt64} {calls : List Call}

/-- The answers to a word of calls are those that the sequence of the container gives when it is
taken apart from its two ends.  What was given from the front, what is left and what was given from
the back in reverse are the sequence.  After as many calls as there are nodes nothing is left, and
every other call is given nothing. -/
theorem iterated_from_both_ends (reached : ctx = (Context.empty hash).after calls) (l : Level)
    (c : Handle l.container) (live : ctx.Live (.ofContainer l c)) :
    ∃ xs start, ctx.Listed l c xs ∧ ctx.members l c = .ok xs ∧ Cursor.start ctx c = .ok start ∧
      ∀ word, ∃ answers rest, start.calls ctx word = .ok (answers, rest) ∧
        answers = (Side.pops word xs).1 ∧
        (∃ left, left.length = xs.length - word.length ∧
          Side.given .front word answers ++ left ++ (Side.given .back word answers).reverse = xs) ∧
        (xs.length ≤ word.length → ∀ more,
          rest.calls ctx more = .ok (List.replicate more.length none, rest)) := by
  have wf : ctx.WellFormed := reached ▸ (empty_wellFormed hash).after calls
  obtain ⟨ends, found⟩ := live_ofContainer.mp live
  obtain ⟨xs, listed⟩ := wf.listed found
  refine ⟨xs, .over xs, listed, listed.members, listed.cursor_start, fun word => ?_⟩
  refine ⟨_, _, listed.calls (List.infix_refl xs) word, rfl,
    ⟨_, Side.length_pops word xs, Side.given_append_left word xs⟩, fun enough more => ?_⟩
  have exhausted : (Side.pops word xs).2 = [] := by
    rw [← List.length_eq_zero_iff, Side.length_pops]
    exact Nat.sub_eq_zero_of_le enough
  rw [exhausted, listed.calls (List.nil_infix) more, Side.pops_nil]

/-- Three blocks in a region: the walk meets in the one in the middle, from either side. -/
theorem iterated_from_both_ends_blocks :
    ∃ (ctx : Context) (start : Cursor .blocks),
      ctx.members .blocks ⟨0, 0⟩ = .ok [⟨0, 0⟩, ⟨1, 0⟩, ⟨2, 0⟩] ∧
      Cursor.start ctx ⟨0, 0⟩ = .ok start ∧
      (∃ rest, start.calls ctx [.front, .back, .front, .back] =
        .ok ([some ⟨0, 0⟩, some ⟨2, 0⟩, some ⟨1, 0⟩, none], rest)) ∧
      ∃ rest, start.calls ctx [.back, .front, .back, .front] =
        .ok ([some ⟨2, 0⟩, some ⟨0, 0⟩, some ⟨1, 0⟩, none], rest) := by
  have reached := rfl (a := Context.empty.after [.newModule "m", .newBlock none [],
    .newBlock none [], .link .blocks ⟨1, 0⟩ (.back ⟨0, 0⟩),
    .link .blocks ⟨2, 0⟩ (.back ⟨0, 0⟩)])
  obtain ⟨xs, start, -, members, started, walked⟩ :=
    iterated_from_both_ends reached .blocks ⟨0, 0⟩ ⟨_, rfl⟩
  cases members
  obtain ⟨_, rest, frontFirst, rfl, -⟩ := walked [.front, .back, .front, .back]
  obtain ⟨_, rest', backFirst, rfl, -⟩ := walked [.back, .front, .back, .front]
  exact ⟨_, start, rfl, started, ⟨rest, frontFirst⟩, rest', backFirst⟩

end Context

end HardwareIR
