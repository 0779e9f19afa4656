import HardwareIR.Fault

/-! # Results with a log

Some operations say what they are doing while they do it.  A `Report` is the result of such an
operation together with the records that it logged, in order; records logged before a failure stay.

Reports form a monad: `bind` goes on with the value of a successful result and appends the logs.
-/

namespace HardwareIR

/-- How much a log record matters. -/
inductive LogLevel where
  | trace
  | debug
  | warn
deriving DecidableEq, Repr

/-- How talkative a log has to be to show records of a level. -/
def LogLevel.verbosity : LogLevel → Nat
  | warn => 0
  | debug => 1
  | trace => 2

/-- Whether a log that is kept at one level shows the records of another. -/
def LogLevel.shows (kept level : LogLevel) : Bool :=
  level.verbosity ≤ kept.verbosity

structure LogRecord where
  level : LogLevel
  text : String
deriving DecidableEq

/-- The result of an operation, and what it logged. -/
structure Report (α : Type) where
  result : Except Fault α
  log : List LogRecord

namespace Report

variable {α β : Type}

def pure (value : α) : Report α := ⟨.ok value, []⟩

/-- Goes on with the value of a report, unless it failed. -/
def bind (x : Report α) (next : α → Report β) : Report β :=
  match x.result with
  | .ok value => ⟨(next value).result, x.log ++ (next value).log⟩
  | .error fault => ⟨.error fault, x.log⟩

instance : Monad Report where
  pure := Report.pure
  bind := Report.bind

/-- Takes over a result that comes without a log. -/
def ofExcept (result : Except Fault α) : Report α := ⟨result, []⟩

instance : MonadLift (Except Fault) Report := ⟨ofExcept⟩

def emit (level : LogLevel) (text : String) : Report Unit := ⟨.ok (), [⟨level, text⟩]⟩

def reject (error : Error) : Report α := ⟨.error (.rejected error), []⟩

/-- Whether a check passed; why it failed is a debugging matter. -/
def accepted (x : Report Unit) (text : Error → String) : Report Bool :=
  match x.result with
  | .ok () => ⟨.ok true, x.log⟩
  | .error (.rejected error) => ⟨.ok false, x.log ++ [⟨.debug, text error⟩]⟩
  | .error (.misuse m) => ⟨.error (.misuse m), x.log⟩

/-- Logs a warning about the error of a failed check, and fails with it all the same. -/
def warnOnError (x : Report α) (text : Error → String) : Report α :=
  match x.result with
  | .error (.rejected error) => ⟨x.result, x.log ++ [⟨.warn, text error⟩]⟩
  | _ => x

@[simp] theorem pure_result (value : α) : (Pure.pure value : Report α).result = .ok value := rfl
@[simp] theorem pure_log (value : α) : (Pure.pure value : Report α).log = [] := rfl
@[simp] theorem emit_result (level : LogLevel) (text : String) :
    (emit level text).result = .ok () := rfl
@[simp] theorem emit_log (level : LogLevel) (text : String) :
    (emit level text).log = [⟨level, text⟩] := rfl

theorem bind_result (x : Report α) (next : α → Report β) :
    (x >>= next).result = x.result.bind fun value => (next value).result := by
  simp only [Bind.bind, bind]
  cases x.result <;> rfl

theorem bind_log (x : Report α) (next : α → Report β) :
    (x >>= next).log = x.log ++
      match x.result with
      | .ok value => (next value).log
      | .error _ => [] := by
  simp only [Bind.bind, bind]
  cases x.result <;> simp

end Report

end HardwareIR
