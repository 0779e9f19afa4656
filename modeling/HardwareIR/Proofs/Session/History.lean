import HardwareIR.Proofs.Session.WellFormed

/-! # What happened in a session

`Context.Sometime P` says of a session that something happened in it: at one of its calls, `P` held
of the call and of the context that it was made on.  A fact that calls bring about and never undo
holds after a session if it held before or was brought about in it
(`WellFormed.after_iff_sometime`).
-/

namespace HardwareIR

namespace Context

/-- At some call of a session, `P` holds of the call and of the context that it is made on. -/
inductive Sometime (P : Context → Call → Prop) : Context → List Call → Prop where
  | now {ctx : Context} {call : Call} {calls : List Call} (here : P ctx call) :
      Sometime P ctx (call :: calls)
  | later {ctx : Context} {call : Call} {calls : List Call}
      (there : Sometime P (call.run ctx).1 calls) : Sometime P ctx (call :: calls)

variable {P P' : Context → Call → Prop} {Q : Context → Prop} {ctx : Context} {call : Call}
  {calls : List Call}

@[simp] theorem not_sometime_nil : ¬ Sometime P ctx [] := nofun

@[simp] theorem sometime_cons :
    Sometime P ctx (call :: calls) ↔ P ctx call ∨ Sometime P (call.run ctx).1 calls := by
  constructor
  · rintro (here | there)
    · exact .inl here
    · exact .inr there
  · rintro (here | there)
    · exact .now here
    · exact .later there

@[simp] theorem after_append (ctx : Context) (calls calls' : List Call) :
    ctx.after (calls ++ calls') = (ctx.after calls).after calls' := by
  induction calls generalizing ctx with
  | nil => rfl
  | cons call calls ih => exact ih _

/-- What calls bring about and do not undo was there before a session, or came about in it. -/
theorem WellFormed.after_iff_sometime (wf : ctx.WellFormed)
    (step : ∀ {ctx : Context} (call : Call), ctx.WellFormed →
      (Q (call.run ctx).1 ↔ Q ctx ∨ P ctx call)) (calls : List Call) :
    Q (ctx.after calls) ↔ Q ctx ∨ Sometime P ctx calls := by
  induction calls generalizing ctx with
  | nil => exact (or_iff_left not_sometime_nil).symm
  | cons call calls ih =>
    rw [sometime_cons, ← or_assoc, ← step call wf]
    exact ih (Call.run_wellFormed wf call)

end Context

end HardwareIR
