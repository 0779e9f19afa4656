import HardwareIR.Proofs.Except
import HardwareIR.Report

/-! # Results of reports

Reports go on like the results in them: what was logged has no say in it.
-/

namespace HardwareIR

namespace Report

variable {α β : Type}

theorem bind_of_ok {x : Report α} {a : α} (ok : x.result = .ok a) (next : α → Report β) :
    (x >>= next).result = (next a).result := by
  rw [bind_result, ok]
  rfl

/-- A result without a log goes on like a report. -/
theorem lift_bind {result : Except Fault α} {a : α} (ok : result = .ok a) (next : α → Report β) :
    ((result : Report α) >>= next).result = (next a).result :=
  bind_of_ok ok next

theorem lift_ok_bind (a : α) (next : α → Report β) :
    (((.ok a : Except Fault α) : Report α) >>= next) = next a := rfl

theorem bind_assoc {γ : Type} (x : Report α) (next : α → Report β) (last : β → Report γ) :
    (x >>= next) >>= last = x >>= fun a => next a >>= last := by
  simp only [Bind.bind, bind]
  cases x.result with
  | error fault => rfl
  | ok a => cases outcome : (next a).result <;> simp [outcome]

theorem bind_eq_ok {x : Report α} {next : α → Report β} {b : β} :
    (x >>= next).result = .ok b ↔ ∃ a, x.result = .ok a ∧ (next a).result = .ok b := by
  rw [bind_result]
  exact Except.bind_eq_ok

/-! ## Sense -/

/-- A report that is not about a misuse. -/
def Sensible (x : Report α) : Prop :=
  ∀ m, x.result ≠ .error (.misuse m)

theorem sensible_of_ok {x : Report α} {a : α} (ok : x.result = .ok a) : x.Sensible := by
  intro m
  simp [ok]

theorem Sensible.bind {x : Report α} {next : α → Report β} (first : x.Sensible)
    (rest : ∀ a, x.result = .ok a → (next a).Sensible) : (x >>= next).Sensible := by
  intro m failed
  rw [bind_result] at failed
  cases outcome : x.result with
  | ok a =>
    rw [outcome] at failed
    exact rest a outcome m failed
  | error fault =>
    rw [outcome] at failed
    cases failed
    exact absurd outcome (first m)

/-- Whether a sensible check passed is always known. -/
theorem Sensible.accepted {x : Report Unit} (sensible : x.Sensible) (text : Error → String) :
    ∃ verdict, (x.accepted text).result = .ok verdict ∧ (verdict = true ↔ x.result = .ok ()) := by
  unfold Report.accepted
  cases outcome : x.result with
  | ok _ => exact ⟨true, rfl, by simp⟩
  | error fault =>
    cases fault with
    | rejected error => exact ⟨false, rfl, by simp⟩
    | misuse m => exact absurd outcome (sensible m)

theorem warnOnError_result (x : Report α) (text : Error → String) :
    (x.warnOnError text).result = x.result := by
  unfold warnOnError
  split <;> rfl

/-- A check that is known to have passed has. -/
theorem result_of_accepted {x : Report Unit} {text : Error → String}
    (known : (x.accepted text).result = .ok true) : x.result = .ok () := by
  unfold Report.accepted at known
  split at known
  next ok => exact ok
  next => cases known
  next => cases known

end Report

end HardwareIR
