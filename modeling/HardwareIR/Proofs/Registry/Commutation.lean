import HardwareIR.Proofs.Registry.Standard

/-! # Registrations in any order

A registry changes by registrations: a kind is registered with a dialect, a dialect is installed, or
a standard dialect is registered with what it brings along (`Registration`).  None of them asks what
the hooks of dialects are.

Registering a standard dialect never fails, whatever is registered already, and leaves what is there
as it is.  The dialect is there afterwards, and so are those that it brings along, unless it was
there before.  Registering any of them then does nothing, so that the standard dialects can be
registered in any order and as often as one likes (`Registration.standard_commute`).
-/

namespace HardwareIR

variable {Foreign : Type}

namespace Registry

open StandardDialect (builtin hw arc)

variable {r r' : Registry Foreign}

/-! ## Growth -/

/-- What is in one registry is in another, unchanged. -/
structure Within (r r' : Registry Foreign) : Prop where
  dialects : ∀ name d, r.dialects.get? name = some d → r'.dialects.get? name = some d
  kinds : ∀ id kind, r.kind? id = some kind → r'.kind? id = some kind

/-- What every registration keeps is kept. -/
theorem within_of_stable (keeps : ∀ Q, Stable Q → Q r → Q r') : r.Within r' where
  dialects name d found := keeps _ (dialect_stable name d) found
  kinds id kind found := keeps _ (kind?_stable id kind) found

/-! ## Repetitions -/

theorem registerBuiltin_again (r : Registry Foreign) :
    r.registerBuiltin.1.registerBuiltin = (r.registerBuiltin.1, pure ()) :=
  registerBuiltin_of_present r.registerBuiltin_settles.2.1

theorem registerHw_again (r : Registry Foreign) :
    r.registerHw.1.registerHw = (r.registerHw.1, pure ()) := by
  obtain ⟨-, there, there', -⟩ := r.registerHw_settles
  rw [registerHw_of_present there', registerBuiltin_of_present there]

theorem registerArc_again (r : Registry Foreign) :
    r.registerArc.1.registerArc = (r.registerArc.1, pure ()) :=
  registerArc_of_present r.registerArc_settles.2.1

/-! ## Exchanges -/

theorem registerHw_registerBuiltin (r : Registry Foreign) :
    r.registerBuiltin.1.registerHw.1 = r.registerHw.1.registerBuiltin.1 := by
  obtain ⟨ok, -, -⟩ := r.registerBuiltin_settles
  rw [registerBuiltin_of_present r.registerHw_settles.2.1]
  simp only [registerHw, registerBuiltin_again, Report.pure_result, ok]
  split <;> rfl

/-- Where `arc` is not there, registering it goes by what registering `hw` leaves. -/
theorem registerArc_congr (same : r'.registerHw.1 = r.registerHw.1)
    (absent : r.dialects.contains arc.name = false)
    (absent' : r'.dialects.contains arc.name = false) : r'.registerArc.1 = r.registerArc.1 := by
  simp only [registerArc, absent, absent', Bool.false_eq_true, if_false, same,
    r.registerHw_settles.1, r'.registerHw_settles.1]

theorem registerArc_registerBuiltin (r : Registry Foreign) :
    r.registerBuiltin.1.registerArc.1 = r.registerArc.1.registerBuiltin.1 := by
  have kept := r.registerBuiltin_settles.2.2 arc.name (by decide)
  cases there : r.dialects.contains arc.name with
  | true => rw [registerArc_of_present there, registerArc_of_present (kept.trans there)]
  | false =>
    -- Then `builtin` is there once `arc` is, and what `hw` leaves has `builtin` in it anyway.
    obtain ⟨-, -, brings⟩ := r.registerArc_settles
    rw [registerBuiltin_of_present (brings there).1]
    refine registerArc_congr ?_ there (kept.trans there)
    rw [registerHw_registerBuiltin, registerBuiltin_of_present r.registerHw_settles.2.1]

theorem registerArc_registerHw (r : Registry Foreign) :
    r.registerHw.1.registerArc.1 = r.registerArc.1.registerHw.1 := by
  have kept := r.registerHw_settles.2.2.2 arc.name (by decide) (by decide)
  cases there : r.dialects.contains arc.name with
  | true => rw [registerArc_of_present there, registerArc_of_present (kept.trans there)]
  | false =>
    obtain ⟨-, -, brings⟩ := r.registerArc_settles
    rw [registerHw_of_present (brings there).2, registerBuiltin_of_present (brings there).1]
    exact registerArc_congr (by rw [registerHw_again]) there (kept.trans there)

end Registry

/-! ## Registrations -/

/-- A change of a registry. -/
inductive Registration (Foreign : Type := Empty) where
  | kind (kind : OpKind) (dialect : Dialect Foreign)
  | install (dialect : Dialect Foreign)
  | builtin
  | hw
  | arc

namespace Registration

/-- The registry after a registration, and how it came out.  The dialect that a kind is registered
with is given back. -/
def run (r : Registry Foreign) :
    Registration Foreign → Registry Foreign × Except Fault (Option (Dialect Foreign))
  | kind k d =>
    ({ r with known := (k.register r.known d).1 }, (k.register r.known d).2.map some)
  | install d => (r.install d, .ok none)
  | builtin => (r.registerBuiltin.1, r.registerBuiltin.2.result.map fun _ => none)
  | hw => (r.registerHw.1, r.registerHw.2.result.map fun _ => none)
  | arc => (r.registerArc.1, r.registerArc.2.result.map fun _ => none)

theorem run_of_stable {Q : Registry Foreign → Prop} (stable : Registry.Stable Q)
    {r : Registry Foreign} (holds : Q r) (x : Registration Foreign) : Q (x.run r).1 := by
  cases x with
  | kind k d => exact stable.register r k d holds
  | install d => exact stable.install r d holds
  | builtin => exact Registry.registerBuiltin_of_stable stable holds
  | hw => exact Registry.registerHw_of_stable stable holds
  | arc => exact Registry.registerArc_of_stable stable holds

/-- Registrations only add to a registry. -/
theorem run_within (x : Registration Foreign) (r : Registry Foreign) : r.Within (x.run r).1 :=
  Registry.within_of_stable fun _ stable holds => run_of_stable stable holds x

/-- The registrations of standard dialects. -/
inductive Standard : Registration Foreign → Prop where
  | builtin : Standard builtin
  | hw : Standard hw
  | arc : Standard arc

variable {x x' : Registration Foreign}

theorem Standard.result (standard : x.Standard) (r : Registry Foreign) :
    (x.run r).2 = .ok none := by
  cases standard with
  | builtin => rw [run, r.registerBuiltin_settles.1, Except.map_ok]
  | hw => rw [run, r.registerHw_settles.1, Except.map_ok]
  | arc => rw [run, r.registerArc_settles.1, Except.map_ok]

theorem Standard.again (standard : x.Standard) (r : Registry Foreign) :
    (x.run (x.run r).1).1 = (x.run r).1 := by
  cases standard with
  | builtin => simp only [run, Registry.registerBuiltin_again]
  | hw => simp only [run, Registry.registerHw_again]
  | arc => simp only [run, Registry.registerArc_again]

theorem Standard.exchange (standard : x.Standard) (standard' : x'.Standard)
    (r : Registry Foreign) : (x'.run (x.run r).1).1 = (x.run (x'.run r).1).1 := by
  cases standard with
  | builtin =>
    cases standard' with
    | builtin => rfl
    | hw => exact r.registerHw_registerBuiltin
    | arc => exact r.registerArc_registerBuiltin
  | hw =>
    cases standard' with
    | builtin => exact r.registerHw_registerBuiltin.symm
    | hw => rfl
    | arc => exact r.registerArc_registerHw
  | arc =>
    cases standard' with
    | builtin => exact r.registerArc_registerBuiltin.symm
    | hw => exact r.registerArc_registerHw.symm
    | arc => rfl

/-- Registering standard dialects succeeds in every registry, does nothing the second time, and can
be done in any order.  No registration changes anything that is registered. -/
theorem standard_commute (r : Registry Foreign) (standard : x.Standard) (standard' : x'.Standard) :
    (x.run r).2 = .ok none ∧ (x.run (x.run r).1).1 = (x.run r).1 ∧
      (x'.run (x.run r).1).1 = (x.run (x'.run r).1).1 ∧
      ∀ y : Registration Foreign, r.Within (y.run r).1 :=
  ⟨standard.result r, standard.again r, standard.exchange standard' r, fun y => y.run_within r⟩

end Registration

end HardwareIR
