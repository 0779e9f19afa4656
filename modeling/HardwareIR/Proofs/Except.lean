import HardwareIR.Fault

/-! # Computations that can fail

How results are mapped and bound, by cases on whether they are there, and lists of computations of
which all have to succeed.
-/

namespace HardwareIR

@[simp] theorem Except.map_ok {ε α β : Type} (f : α → β) (a : α) :
    Except.map f (.ok a : Except ε α) = .ok (f a) := rfl

@[simp] theorem Except.map_error {ε α β : Type} (f : α → β) (e : ε) :
    Except.map f (.error e : Except ε α) = .error e := rfl

@[simp] theorem Except.pure_eq_ok {ε α : Type} (a : α) : (pure a : Except ε α) = .ok a := rfl

@[simp] theorem Except.bind_ok {ε α β : Type} (a : α) (next : α → Except ε β) :
    ((.ok a : Except ε α) >>= next) = next a := rfl

@[simp] theorem Except.bind_error {ε α β : Type} (e : ε) (next : α → Except ε β) :
    ((.error e : Except ε α) >>= next) = .error e := rfl

theorem Except.map_eq_ok {ε α β : Type} {x : Except ε α} {f : α → β} {b : β} :
    x.map f = .ok b ↔ ∃ a, x = .ok a ∧ f a = b := by
  cases x <;> simp

theorem Except.map_eq_error {ε α β : Type} {x : Except ε α} {f : α → β} {e : ε} :
    x.map f = .error e ↔ x = .error e := by
  cases x <;> simp

theorem Except.bind_eq_ok {ε α β : Type} {x : Except ε α} {next : α → Except ε β} {b : β} :
    (x >>= next) = .ok b ↔ ∃ a, x = .ok a ∧ next a = .ok b := by
  cases x <;> simp

theorem Except.map_map {ε α β γ : Type} (x : Except ε α) (f : α → β) (g : β → γ) :
    (x.map f).map g = x.map fun a => g (f a) := by
  cases x <;> rfl

/-- Computations that fail alike are equal if their results are. -/
theorem Except.eq_of_map {ε α β : Type} {x y : Except ε α} {f : α → β} (same : x.map f = y.map f)
    (eq : ∀ a b, x = .ok a → y = .ok b → f a = f b → a = b) : x = y := by
  cases x with
  | error e =>
    rw [map_error] at same
    exact (map_eq_error.mp same.symm).symm
  | ok a =>
    rw [map_ok] at same
    obtain ⟨b, rfl, values⟩ := map_eq_ok.mp same.symm
    rw [eq a b rfl rfl values.symm]

/-! ## Lists -/

theorem Except.mapM_cons_eq_ok {ε α β : Type} {f : α → Except ε β} {a : α} {as : List α}
    {bs : List β} :
    (a :: as).mapM f = .ok bs ↔ ∃ b rest, f a = .ok b ∧ as.mapM f = .ok rest ∧ bs = b :: rest := by
  simp only [List.mapM_cons, bind_eq_ok, pure_eq_ok, Except.ok.injEq]
  constructor
  · rintro ⟨b, first, rest, others, rfl⟩
    exact ⟨b, rest, first, others, rfl⟩
  · rintro ⟨b, rest, first, others, rfl⟩
    exact ⟨b, first, rest, others, rfl⟩

/-- The results are those of the elements. -/
theorem Except.mem_of_mapM_ok {ε α β : Type} {f : α → Except ε β} {as : List α} {bs : List β}
    (h : as.mapM f = .ok bs) {b : β} : b ∈ bs ↔ ∃ a ∈ as, f a = .ok b := by
  induction as generalizing bs with
  | nil =>
    cases h
    simp
  | cons a as ih =>
    obtain ⟨b', rest, first, others, rfl⟩ := mapM_cons_eq_ok.mp h
    simp only [List.mem_cons, ih others, exists_eq_or_imp, first, Except.ok.injEq]
    rw [eq_comm]

/-- Every element has a result. -/
theorem Except.ok_of_mapM_ok {ε α β : Type} {f : α → Except ε β} {as : List α} {bs : List β}
    (h : as.mapM f = .ok bs) {a : α} (mem : a ∈ as) : ∃ b, f a = .ok b := by
  induction as generalizing bs with
  | nil => cases mem
  | cons a' as ih =>
    obtain ⟨b', rest, first, others, rfl⟩ := mapM_cons_eq_ok.mp h
    rcases List.mem_cons.mp mem with rfl | later
    · exact ⟨b', first⟩
    · exact ih others later

theorem Except.exists_mapM_ok {ε α β : Type} {f : α → Except ε β} :
    ∀ {as : List α}, (∀ a ∈ as, ∃ b, f a = .ok b) → ∃ bs, as.mapM f = .ok bs
  | [], _ => ⟨[], rfl⟩
  | a :: as, h => by
    obtain ⟨b, first⟩ := h a List.mem_cons_self
    obtain ⟨bs, others⟩ := exists_mapM_ok fun a' mem => h a' (List.mem_cons_of_mem a mem)
    exact ⟨b :: bs, by simp [List.mapM_cons, first, others]⟩

end HardwareIR
