import HardwareIR.Proofs.Registry.Commutation

/-! # Registrations that are refused

A kind of operations is made known before the dialect that it is registered with is asked.  If the
dialect refuses it because it belongs to another one, the kind is known all the same, in the list of
no dialect; nothing else has changed (`OpKind.register_of_foreign`).

That is the only way to be known without a dialect: every other operation becomes known together
with being listed, by the dialect that it is registered with or by a standard dialect that is
installed (`Registry.after_contains_iff`).
-/

namespace HardwareIR

variable {Foreign : Type}

/-! ## Dialects that list what is new -/

namespace OpKind

variable {known : KnownKinds} {d : Dialect Foreign} {kind : OpKind}

/-- A dialect refuses a new kind of another one, which is known all the same. -/
theorem register_of_foreign (new : known.contains kind.id = false)
    (foreign : kind.id.dialect ≠ d.name) :
    kind.register known d =
      (known.insert kind.id kind, (Misuse.foreignName kind.id d.name).throw) := by
  simp only [register, new, Bool.false_eq_true, if_false, Dialect.addOperation, Dialect.checkOwner,
    if_neg foreign]
  rfl

/-- What is refused is new and foreign. -/
theorem register_eq_error_iff {fault : Fault} :
    (kind.register known d).2 = .error fault ↔ known.contains kind.id = false ∧
      kind.id.dialect ≠ d.name ∧ fault = .misuse (.foreignName kind.id d.name) := by
  by_cases old : known.contains kind.id = true
  · rw [register_of_known old, old]
    exact ⟨nofun, nofun⟩
  · rw [Bool.not_eq_true] at old
    by_cases own : kind.id.dialect = d.name
    · rw [register_of_new old own]
      exact ⟨nofun, fun refused => absurd own refused.2.1⟩
    · rw [register_of_foreign old own]
      constructor
      · intro refused
        cases refused
        exact ⟨old, own, rfl⟩
      · rintro ⟨-, -, rfl⟩
        rfl

theorem contains_register (known : KnownKinds) (kind : OpKind) (d : Dialect Foreign)
    (id : QualifiedName) :
    (kind.register known d).1.contains id = true ↔ known.contains id = true ∨ kind.id = id := by
  by_cases old : known.contains kind.id = true
  · rw [register_of_known old]
    refine (or_iff_left_of_imp ?_).symm
    rintro rfl
    exact old
  · rw [register, if_neg old, SortedMap.contains_insert]
    grind

end OpKind

namespace Registry

open StandardDialect (builtin hw arc)

variable {r r' r'' : Registry Foreign} {s : StandardDialect}

/-- What is known in one registry and was not in another is in the list of a dialect that is new as
well, and the other way round. -/
structure ListsNew (r r' : Registry Foreign) : Prop where
  dialects : ∀ name d, r.dialects.get? name = some d → r'.dialects.get? name = some d
  known : ∀ id, r.known.contains id = true → r'.known.contains id = true
  listed : ∀ id, r.known.contains id = false → (r'.known.contains id = true ↔
    ∃ name d, r.dialects.contains name = false ∧ r'.dialects.get? name = some d ∧
      d.operations.contains id = true)

theorem ListsNew.refl (r : Registry Foreign) : ListsNew r r where
  dialects _ _ found := found
  known _ old := old
  listed id new := by
    refine iff_of_false (by simp [new]) ?_
    rintro ⟨name, d, absent, found, -⟩
    simp [SortedMap.contains, found] at absent

theorem ListsNew.trans (first : ListsNew r r') (second : ListsNew r' r'') : ListsNew r r'' where
  dialects name d found := second.dialects name d (first.dialects name d found)
  known id old := second.known id (first.known id old)
  listed id new := by
    cases between : r'.known.contains id with
    | true =>
      refine iff_of_true (second.known id between) ?_
      obtain ⟨name, d, absent, found, listed⟩ := (first.listed id new).mp between
      exact ⟨name, d, absent, second.dialects name d found, listed⟩
    | false =>
      rw [second.listed id between]
      refine exists_congr fun name => exists_congr fun d => and_congr_left ?_
      rintro ⟨found, listed⟩
      cases there : r'.dialects.get? name with
      | none =>
        -- A dialect that is not there in between was not there before.
        refine iff_of_true (by simp [SortedMap.contains, there]) ?_
        rw [SortedMap.contains, Option.isSome_eq_false_iff, Option.isNone_iff_eq_none]
        by_contra before
        obtain ⟨d', before⟩ := Option.ne_none_iff_exists'.mp before
        simp [first.dialects name d' before] at there
      | some d' =>
        -- A dialect that is there in between lists nothing that becomes known only later.
        obtain rfl : d' = d := by simpa [second.dialects name d' there] using found
        refine iff_of_false (by simp [SortedMap.contains, there]) fun absent => ?_
        have known := (first.listed id new).mpr ⟨name, d', absent, there, listed⟩
        simp [between] at known

theorem Installs.listsNew (installs : Installs s r r')
    (absent : r.dialects.contains s.name = false) : ListsNew r r' := by
  obtain ⟨d, found, describes⟩ := installs.dialect
  have missing : ∀ name d, r.dialects.get? name = some d → name ≠ s.name := by
    rintro name d before rfl
    simp [SortedMap.contains, before] at absent
  refine ⟨fun name d before => ?_, fun id old => (installs.known id).mpr (.inr old),
    fun id new => ?_⟩
  · rw [installs.others name (missing name d before), before]
  · rw [installs.known, new, or_iff_left Bool.false_ne_true]
    constructor
    · rintro ⟨kind, mem, called⟩
      exact ⟨s.name, d, absent, found, (describes.operations id).mpr ⟨new, kind, mem, called⟩⟩
    · rintro ⟨name, d', absent', found', listed⟩
      by_cases here : name = s.name
      · cases here
        cases found.symm.trans found'
        exact ((describes.operations id).mp listed).2
      · rw [installs.others name here] at found'
        simp [SortedMap.contains, found'] at absent'

theorem registerBuiltin_listsNew (r : Registry Foreign) : ListsNew r r.registerBuiltin.1 := by
  cases there : r.dialects.contains builtin.name with
  | true =>
    rw [registerBuiltin_of_present there]
    exact .refl r
  | false => exact (registerBuiltin_installs there).1.listsNew there

theorem registerHw_listsNew (r : Registry Foreign) : ListsNew r r.registerHw.1 := by
  have first := r.registerBuiltin_listsNew
  cases there : r.dialects.contains hw.name with
  | true =>
    rw [registerHw_of_present there]
    exact first
  | false =>
    obtain ⟨-, -, others⟩ := r.registerBuiltin_settles
    refine first.trans ((registerHw_installs there).1.listsNew ?_)
    rw [others _ (by decide), there]

theorem registerArc_listsNew (r : Registry Foreign) : ListsNew r r.registerArc.1 := by
  cases there : r.dialects.contains arc.name with
  | true =>
    rw [registerArc_of_present there]
    exact .refl r
  | false =>
    obtain ⟨-, -, -, others⟩ := r.registerHw_settles
    refine r.registerHw_listsNew.trans ((registerArc_installs_after_hw there).1.listsNew ?_)
    rw [others _ (by decide) (by decide), there]

end Registry

/-! ## Registrations that list and registrations that are refused -/

namespace Registration

/-- A registration lists an operation: with the dialect that it registers a kind with, or with a
dialect that it installs. -/
inductive Lists (id : QualifiedName) (r : Registry Foreign) : Registration Foreign → Prop where
  | kind {k : OpKind} {d d' : Dialect Foreign} (called : k.id = id)
      (taken : ((kind k d).run r).2 = .ok (some d'))
      (listed : d'.operations.contains id = true) : Lists id r (kind k d)
  | standard {x : Registration Foreign} {name : Identifier} {d : Dialect Foreign}
      (standard : x.Standard) (absent : r.dialects.contains name = false)
      (installed : (x.run r).1.dialects.get? name = some d)
      (listed : d.operations.contains id = true) : Lists id r x

/-- A registration is refused by the dialect that it is to register an operation with. -/
inductive Refused (id : QualifiedName) (r : Registry Foreign) : Registration Foreign → Prop where
  | kind {k : OpKind} {d : Dialect Foreign} (called : k.id = id)
      (refused : ((kind k d).run r).2 = .error (.misuse (.foreignName id d.name))) :
      Refused id r (kind k d)

variable {x : Registration Foreign} {r : Registry Foreign} {id : QualifiedName}

theorem Standard.listsNew (standard : x.Standard) (r : Registry Foreign) :
    r.ListsNew (x.run r).1 := by
  cases standard with
  | builtin => exact r.registerBuiltin_listsNew
  | hw => exact r.registerHw_listsNew
  | arc => exact r.registerArc_listsNew

/-- What is known stays known. -/
theorem run_contains (x : Registration Foreign) (old : r.known.contains id = true) :
    (x.run r).1.known.contains id = true := by
  obtain ⟨kind, found⟩ := Option.isSome_iff_exists.mp old
  exact Option.isSome_iff_exists.mpr ⟨kind, (x.run_within r).kinds id kind found⟩

/-- What a standard dialect makes known it lists. -/
theorem Standard.contains_iff (standard : x.Standard) (new : r.known.contains id = false) :
    (x.run r).1.known.contains id = true ↔ x.Lists id r := by
  rw [(standard.listsNew r).listed id new]
  constructor
  · rintro ⟨name, d, absent, installed, listed⟩
    exact .standard standard absent installed listed
  · intro lists
    cases lists with
    | kind => cases standard
    | standard _ absent installed listed => exact ⟨_, _, absent, installed, listed⟩

theorem Standard.not_refused (standard : x.Standard) : ¬ x.Refused id r := by
  intro refused
  cases refused
  cases standard

/-- A new kind is listed or refused, whether or not it belongs to the dialect. -/
theorem lists_or_refused {k : OpKind} (new : r.known.contains k.id = false)
    (d : Dialect Foreign) : (kind k d).Lists k.id r ∨ (kind k d).Refused k.id r := by
  by_cases own : k.id.dialect = d.name
  · have taken : ((kind k d).run r).2 =
        .ok (some { d with operations := SortedSet.add d.operations k.id }) := by
      rw [run, OpKind.register_of_new new own, Except.map_ok]
    exact .inl (.kind rfl taken (by simp [SortedSet.contains_add]))
  · refine .inr (.kind rfl ?_)
    rw [run, OpKind.register_of_foreign new own]
    rfl

/-- Of kinds that are registered one by one, it is the one of the name that is listed or refused. -/
theorem called_of_kind {k : OpKind} {d : Dialect Foreign}
    (registers : (kind k d).Lists id r ∨ (kind k d).Refused id r) : k.id = id := by
  rcases registers with lists | refused
  · cases lists with
    | kind called => exact called
    | standard standard => cases standard
  · cases refused with
    | kind called => exact called

/-- Installing a dialect neither lists nor is refused. -/
theorem not_of_install {d : Dialect Foreign} :
    ¬ ((install d).Lists id r ∨ (install d).Refused id r) := by
  rintro (lists | refused)
  · cases lists with
    | standard standard => cases standard
  · cases refused

/-- An operation that is new becomes known by being listed, or by being refused. -/
theorem run_contains_iff (new : r.known.contains id = false) (x : Registration Foreign) :
    (x.run r).1.known.contains id = true ↔ x.Lists id r ∨ x.Refused id r := by
  cases x with
  | kind k d =>
    rw [run, OpKind.contains_register, new, or_iff_right Bool.false_ne_true]
    refine ⟨?_, called_of_kind⟩
    rintro rfl
    exact lists_or_refused new d
  | install d => exact iff_of_false (by simp [run, Registry.install_known, new]) not_of_install
  | builtin => rw [or_iff_left Standard.builtin.not_refused, Standard.builtin.contains_iff new]
  | hw => rw [or_iff_left Standard.hw.not_refused, Standard.hw.contains_iff new]
  | arc => rw [or_iff_left Standard.arc.not_refused, Standard.arc.contains_iff new]

end Registration

/-! ## Runs -/

namespace Registry

/-- A registry after registrations, one after the other. -/
def after (r : Registry Foreign) : List (Registration Foreign) → Registry Foreign
  | [] => r
  | x :: xs => (x.run r).1.after xs

variable {r : Registry Foreign} {id : QualifiedName}

/-- An operation is known after registrations if it was known before, or if it was listed or refused
by one of them when it was new. -/
theorem after_contains_iff (xs : List (Registration Foreign)) :
    (r.after xs).known.contains id = true ↔ r.known.contains id = true ∨
      ∃ earlier x later, xs = earlier ++ x :: later ∧
        (r.after earlier).known.contains id = false ∧
        (x.Lists id (r.after earlier) ∨ x.Refused id (r.after earlier)) := by
  induction xs generalizing r with
  | nil => simp [after]
  | cons x xs ih =>
    rw [after, ih]
    constructor
    · rintro (now | ⟨earlier, y, later, rfl, new, registers⟩)
      · cases old : r.known.contains id with
        | true => exact .inl rfl
        | false => exact .inr ⟨[], x, xs, rfl, old, (x.run_contains_iff old).mp now⟩
      · exact .inr ⟨x :: earlier, y, later, rfl, new, registers⟩
    · rintro (old | ⟨earlier, y, later, split, new, registers⟩)
      · exact .inl (x.run_contains old)
      · cases earlier with
        | nil =>
          cases split
          exact .inl ((x.run_contains_iff new).mpr registers)
        | cons first earlier =>
          cases split
          exact .inr ⟨earlier, y, later, rfl, new, registers⟩

end Registry

end HardwareIR
