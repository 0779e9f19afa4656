import HardwareIR.Proofs.Session.Sound
import HardwareIR.Proofs.TypeStore.Parts

/-! # Parts of verified types in sessions

The check of a type does not go into the types that a state or a memory is made of.  In a session a
type that passes is made of types that pass, and of integers without bits that are stored.
-/

namespace HardwareIR

open Relation (ReflTransGen TransGen)

namespace Context

variable {ctx : Context} {ty part : TypeRef}

/-- What a type that passes is made of, at any depth, passes exactly if it is no integer type
without bits.  Such a type is only let through by a state or a memory that stores it. -/
theorem verified_parts (reachable : ctx.Reachable) (verified : ctx.types.verify ty = .ok ())
    (made : TransGen ctx.types.Part ty part) :
    ctx.types.Has part ∧
    (ctx.types.verify part = .ok () ↔ ∀ sign, ctx.types.get part ≠ .ok (.integer 0 sign)) ∧
    ∀ sign, ctx.types.get part = .ok (.integer 0 sign) →
      ctx.types.verify part = (Error.verification .zeroWidthInteger).throw ∧
      ∃ whole, ReflTransGen ctx.types.Part ty whole ∧ ctx.types.verify whole = .ok () ∧
        ctx.types.Stores whole part := by
  have grounded := reachable.sound.types
  have empty : ∀ sign, ctx.types.get part = .ok (.integer 0 sign) →
      ctx.types.verify part = (Error.verification .zeroWidthInteger).throw :=
    fun sign found => (TypeStore.verify_integer found).trans (if_pos rfl)
  obtain ⟨whole, below, passed, direct⟩ := grounded.verify_parts made verified
  rcases grounded.verify_part direct passed with passes | ⟨stores, sign, found⟩
  · have notEmpty : ∀ sign, ctx.types.get part ≠ .ok (.integer 0 sign) := by
      intro sign found
      rw [empty sign found] at passes
      cases passes
    refine ⟨?_, iff_of_true passes notEmpty, fun sign found => absurd found (notEmpty sign)⟩
    obtain ⟨t, found, -⟩ := Except.bind_eq_ok.mp passes
    exact ⟨t, found⟩
  · refine ⟨⟨_, found⟩, iff_of_false ?_ fun other => other sign found, fun sign' found' =>
      ⟨empty sign' found', whole, below, passed, stores⟩⟩
    rw [empty sign found]
    exact fun passes => nomatch passes

/-- The state of an integer without bits was asked for, and a type as wide as that state. -/
def emptyState : Context :=
  Context.empty.after [.requestType (.integer 0 .signless), .requestType (.state ⟨0⟩),
    .requestType (.parametric (.type ⟨1⟩))]

theorem reachable_emptyState : emptyState.Reachable := by
  refine .call (.requestType _) (.call (.requestType _) (.call (.requestType _) .empty ?_) ?_) ?_
  · exact fun _ mem => absurd mem List.not_mem_nil
  · intro ty mem
    obtain rfl := List.mem_singleton.mp mem
    exact ⟨.integer 0 .signless, rfl⟩
  · intro ty mem
    obtain rfl := List.mem_singleton.mp mem
    exact ⟨.state ⟨0⟩, rfl⟩

/-- The integer without bits fails by itself, while the types around it pass. -/
theorem verified_parts_empty :
    emptyState.types.verify ⟨2⟩ = .ok () ∧ TransGen emptyState.types.Part ⟨2⟩ ⟨0⟩ ∧
      emptyState.types.verify ⟨0⟩ = (Error.verification .zeroWidthInteger).throw ∧
      ∃ whole, ReflTransGen emptyState.types.Part ⟨2⟩ whole ∧
        emptyState.types.verify whole = .ok () ∧ emptyState.types.Stores whole ⟨0⟩ := by
  have verified : emptyState.types.verify ⟨2⟩ = .ok () := rfl
  have width : emptyState.types.Part ⟨2⟩ ⟨1⟩ := .width rfl List.mem_cons_self
  have stored : emptyState.types.Part ⟨1⟩ ⟨0⟩ := .stored (.value rfl)
  have made : TransGen emptyState.types.Part ⟨2⟩ ⟨0⟩ := .tail (.single width) stored
  obtain ⟨-, -, empty⟩ := verified_parts reachable_emptyState verified made
  exact ⟨verified, made, empty .signless rfl⟩

end Context

end HardwareIR
