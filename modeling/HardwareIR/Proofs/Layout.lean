import HardwareIR.Layout
import HardwareIR.Proofs.Except

/-! # When printers have a text

A printer that is put together from others has a text if all of them have one, and fails as the
first of them does otherwise.  `Printer.Shows` says under which condition a printer has a text, and
that it comes back to the level that it started from.  `Printer.Prints` says which text it is.
-/

namespace HardwareIR

/-- Some levels deeper. -/
def Layout.down (l : Layout) (levels : Nat) : Layout :=
  { l with indent := l.indent + l.width * levels }

@[simp] theorem Layout.down_zero (l : Layout) : l.down 0 = l := rfl

theorem Layout.push_down (l : Layout) (levels : Nat) :
    (l.down levels).push = l.down (levels + 1) := by
  simp [down, push, Nat.mul_succ, Nat.add_assoc]

namespace Printer

variable {α β : Type} {fault : Fault} {shown shown' : Prop}

/-- At any level, a printer succeeds and comes back to the level if a condition holds, and fails
with `fault` otherwise. -/
structure Shows (fault : Fault) (p : Printer α) (shown : Prop) : Prop where
  text : shown → ∀ l, ∃ a, p.run l = .ok (a, l)
  fails : ¬ shown → ∀ l, p.run l = .error fault

theorem Shows.congr {p : Printer α} (shows : Shows fault p shown) (same : shown ↔ shown') :
    Shows fault p shown' :=
  propext same ▸ shows

theorem shows_pure (a : α) : Shows fault (pure a : Printer α) True :=
  ⟨fun _ _ => ⟨a, rfl⟩, fun absurd => (absurd trivial).elim⟩

theorem Shows.bind {p : Printer α} {next : α → Printer β} (first : Shows fault p shown)
    (rest : ∀ a, Shows fault (next a) shown') : Shows fault (p >>= next) (shown ∧ shown') := by
  constructor
  · rintro ⟨here, there⟩ l
    obtain ⟨a, printed⟩ := first.text here l
    obtain ⟨b, printed'⟩ := (rest a).text there l
    exact ⟨b, by rw [StateT.run_bind, printed]; exact printed'⟩
  · intro missing l
    rw [StateT.run_bind]
    by_cases here : shown
    · obtain ⟨a, printed⟩ := first.text here l
      rw [printed]
      exact (rest a).fails (fun there => missing ⟨here, there⟩) l
    · rw [first.fails here l]
      rfl

/-- What is made of a text does not matter. -/
theorem Shows.map {p : Printer α} (shows : Shows fault p shown) (f : α → β) :
    Shows fault (p >>= fun a => pure (f a)) shown :=
  (shows.bind fun a => shows_pure (f a)).congr (and_iff_left trivial)

/-- A text that is there without a level. -/
theorem shows_lift {result : Except Fault α} (found : shown → ∃ a, result = .ok a)
    (missing : ¬ shown → result = .error fault) :
    Shows fault (liftM result : Printer α) shown := by
  constructor
  · intro here l
    obtain ⟨a, rfl⟩ := found here
    exact ⟨a, rfl⟩
  · intro gone l
    rw [missing gone]
    rfl

theorem lift_bind {result : Except Fault α} {a : α} (ok : result = .ok a)
    (next : α → Printer β) : ((liftM result : Printer α) >>= next) = next a := by
  rw [ok]
  rfl

theorem mapM_lift {f : α → Except Fault β} {as : List α} {bs : List β} (ok : as.mapM f = .ok bs) :
    (as.mapM fun a => (liftM (f a) : Printer β)) = pure bs := by
  induction as generalizing bs with
  | nil =>
    cases ok
    rfl
  | cons a as ih =>
    obtain ⟨b, rest, first, others, rfl⟩ := Except.mapM_cons_eq_ok.mp ok
    rw [List.mapM_cons, lift_bind first, ih others, pure_bind]

theorem shows_newline : Shows fault newline True :=
  ⟨fun _ l => ⟨l.lineBreak, rfl⟩, fun absurd => (absurd trivial).elim⟩

theorem Shows.indented {p : Printer String} (shows : Shows fault p shown) :
    Shows fault (indented p) shown := by
  constructor
  · intro here l
    obtain ⟨text, printed⟩ := shows.text here l.push
    refine ⟨text, ?_⟩
    show (p.run l.push >>= fun r => .ok (r.1, r.2.pop)) = _
    rw [printed, Except.bind_ok, Layout.pop_push]
  · intro missing l
    show (p.run l.push >>= fun r => .ok (r.1, r.2.pop)) = _
    rw [shows.fails missing, Except.bind_error]

theorem Shows.braced {p : Printer String} (shows : Shows fault p shown) :
    Shows fault (braced p) shown :=
  (shows.indented.bind fun _ => shows_newline.map _).congr (and_iff_left trivial)

/-! ## Texts -/

variable {p : Printer String} {next : String → Printer String} {l : Layout} {text text' : String}

/-- At a level, a printer gives a text and comes back to the level. -/
def Prints (p : Printer String) (l : Layout) (text : String) : Prop :=
  p.run l = .ok (text, l)

theorem prints_pure (l : Layout) (text : String) : Prints (pure text) l text := rfl

theorem prints_newline (l : Layout) : Prints newline l l.lineBreak := rfl

theorem Prints.bind (first : Prints p l text) (rest : Prints (next text) l text') :
    Prints (p >>= next) l text' := by
  unfold Prints
  rw [StateT.run_bind, first]
  exact rest

theorem Prints.indented (body : Prints p l.push text) : Prints (indented p) l text := by
  show (p.run l.push >>= fun r => .ok (r.1, r.2.pop)) = _
  rw [body, Except.bind_ok, Layout.pop_push]

theorem Prints.braced (body : Prints p l.push text) :
    Prints (braced p) l ("\x7b" ++ text ++ l.lineBreak ++ "\x7d") :=
  body.indented.bind ((prints_newline l).bind (prints_pure l _))

end Printer

end HardwareIR
