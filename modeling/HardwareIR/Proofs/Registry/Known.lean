import HardwareIR.Registry.Standard

/-! # What is known stays known

A registry changes in two ways only: a kind is registered, or a dialect is installed.  A property
that both keep (`Registry.Stable`) is therefore kept by everything, whether or not a dialect refuses
a kind.

Kinds are known by their own names (`KnownKinds.Faithful`), so that a name that is known means the
kind that it is the name of; what is known stays known, and dialects stay what they are.

All of this holds whatever hooks dialects come with.
-/

namespace HardwareIR

variable {Foreign : Type}

/-! ## Names -/

namespace OpKind

theorem catalog_name_inj {i j : Fin catalog.length}
    (same : (catalog.get i).name.text = (catalog.get j).name.text) : i = j := by
  have texts : (catalog.map fun entry => entry.name.text)[i.val]? =
      (catalog.map fun entry => entry.name.text)[j.val]? := by
    rw [List.getElem?_map, List.getElem?_map, List.getElem?_eq_getElem i.isLt,
      List.getElem?_eq_getElem j.isLt]
    exact congrArg some same
  have bound : i.val < (catalog.map fun entry => entry.name.text).length := by
    rw [List.length_map]
    exact i.isLt
  exact Fin.ext ((List.getElem?_inj bound catalog_names_nodup).mp texts)

/-- A name means one kind. -/
theorem eq_of_id {kind kind' : OpKind} (same : kind.id = kind'.id) : kind = kind' := by
  have dialect : kind.id.dialect.text = kind'.id.dialect.text := by rw [same]
  have name : kind.id.name.text = kind'.id.name.text := by rw [same]
  cases kind <;> cases kind'
  case arc.arc i j => rw [catalog_name_inj name]
  all_goals first | rfl | simp [id] at dialect name

end OpKind

/-- Kinds are filed under their own names. -/
def KnownKinds.Faithful (known : KnownKinds) : Prop :=
  ∀ id kind, known.get? id = some kind → kind.id = id

/-! ## Properties that registering keeps -/

/-- A property of registries is kept when a kind is registered or a dialect installed. -/
structure Registry.Stable (Q : Registry Foreign → Prop) : Prop where
  register : ∀ (r : Registry Foreign) (kind : OpKind) (d : Dialect Foreign), Q r →
    Q { r with known := (kind.register r.known d).1 }
  install : ∀ (r : Registry Foreign) (d : Dialect Foreign), Q r → Q (r.install d)

namespace OpKind

variable {Q : Registry Foreign → Prop} {r : Registry Foreign}

theorem registerAll_of_stable (stable : Registry.Stable Q) (kinds : List OpKind)
    (d : Dialect Foreign) (holds : Q r) :
    Q { r with known := (registerAll kinds r.known d).1 } := by
  induction kinds generalizing r d with
  | nil => exact holds
  | cons kind kinds ih =>
    have first := stable.register r kind d holds
    rw [registerAll]
    cases step : kind.register r.known d with
    | mk known result =>
      rw [step] at first
      cases result with
      | ok d' => exact ih d' first
      | error fault => exact first

theorem registerDistinct_of_stable (stable : Registry.Stable Q) (kinds : List OpKind)
    (seen : List Identifier) (d : Dialect Foreign) (holds : Q r) :
    Q { r with known := (registerDistinct seen kinds r.known d).1 } := by
  induction kinds generalizing seen r d with
  | nil => exact holds
  | cons kind kinds ih =>
    have first := stable.register r kind d holds
    rw [registerDistinct]
    split
    · exact holds
    · cases step : kind.register r.known d with
      | mk known result =>
        rw [step] at first
        cases result with
        | ok d' => exact ih _ d' first
        | error fault => exact first

end OpKind

namespace Registry

variable {Q : Registry Foreign → Prop} {r : Registry Foreign}

theorem complete_of_stable (stable : Stable Q) (s : StandardDialect)
    {step : KnownKinds × Except Fault (Dialect Foreign)} (holds : Q { r with known := step.1 }) :
    Q (r.complete s step).1 := by
  obtain ⟨known, result⟩ := step
  simp only [complete]
  cases result.bind s.addContents with
  | ok d => exact stable.install _ d holds
  | error fault => exact holds

theorem registerBuiltin_of_stable (stable : Stable Q) (holds : Q r) : Q r.registerBuiltin.1 := by
  simp only [registerBuiltin]
  split
  · exact holds
  · exact complete_of_stable stable _ (OpKind.registerAll_of_stable stable _ _ holds)

theorem registerHw_of_stable (stable : Stable Q) (holds : Q r) : Q r.registerHw.1 := by
  have first := registerBuiltin_of_stable stable holds
  simp only [registerHw]
  cases step : r.registerBuiltin with
  | mk r' report =>
    rw [step] at first
    cases outcome : report.result with
    | error fault => simpa only [outcome] using first
    | ok _ =>
      simp only
      split
      · exact first
      · exact complete_of_stable stable _ (OpKind.registerAll_of_stable stable _ _ first)

theorem registerArc_of_stable (stable : Stable Q) (holds : Q r) : Q r.registerArc.1 := by
  simp only [registerArc]
  split
  · exact holds
  · have first := registerHw_of_stable stable holds
    cases step : r.registerHw with
    | mk r' report =>
      rw [step] at first
      cases outcome : report.result with
      | error fault => simpa only [outcome] using first
      | ok _ =>
        simp only
        exact complete_of_stable stable _ (OpKind.registerDistinct_of_stable stable _ [] _ first)

/-! ## Stable properties -/

theorem install_known (r : Registry Foreign) (d : Dialect Foreign) :
    (r.install d).known = r.known := by
  unfold install
  split <;> rfl

theorem faithful_stable : Stable fun r : Registry Foreign => r.known.Faithful where
  register r kind d faithful := by
    unfold OpKind.register
    split
    · exact faithful
    · intro id kind' found
      rw [SortedMap.get?_insert] at found
      by_cases same : id = kind.id
      · rw [if_pos same] at found
        cases found
        exact same.symm
      · rw [if_neg same] at found
        exact faithful id kind' found
  install r d faithful := (install_known r d).symm ▸ faithful

/-- A kind that is known stays known. -/
theorem kind?_stable (id : QualifiedName) (kind : OpKind) :
    Stable fun r : Registry Foreign => r.kind? id = some kind where
  register r kind' d found := by
    unfold OpKind.register
    split
    · exact found
    next new =>
      -- The new name is another one, as it was not known before.
      rw [kind?, SortedMap.get?_insert, if_neg]
      · exact found
      · rintro rfl
        exact new (Option.isSome_iff_exists.mpr ⟨kind, found⟩)
  install r d found := by
    rw [kind?, install_known]
    exact found

/-- A dialect that was installed stays as it is. -/
theorem dialect_stable (name : Identifier) (dialect : Dialect Foreign) :
    Stable fun r => r.dialects.get? name = some dialect where
  register _ _ _ found := found
  install r d found := by
    unfold install
    split
    · exact found
    next new =>
      rw [SortedMap.get?_insert, if_neg]
      · exact found
      · rintro rfl
        exact new (Option.isSome_iff_exists.mpr ⟨dialect, found⟩)

end Registry

/-! ## What registering makes known -/

namespace OpKind

variable {known : KnownKinds} {d : Dialect Foreign} {kinds : List OpKind}

theorem register_of_known {kind : OpKind} (old : known.contains kind.id = true) :
    kind.register known d = (known, .ok d) := by
  simp only [register, old, if_true]

/-- A dialect takes in a kind of its own that is new. -/
theorem register_of_new {kind : OpKind} (new : known.contains kind.id = false)
    (own : kind.id.dialect = d.name) :
    kind.register known d = (known.insert kind.id kind,
      .ok { d with operations := SortedSet.add d.operations kind.id }) := by
  simp only [register, new, Bool.false_eq_true, if_false, Dialect.addOperation, Dialect.checkOwner,
    if_pos own]
  rfl

/-- How a dialect comes out when kinds are registered with it: it lists those of them that were not
known, besides what it listed before, and is the same in all else. -/
structure Lists (kinds : List OpKind) (known : KnownKinds) (d d' : Dialect Foreign) : Prop where
  name : d'.name = d.name
  types : d'.types = d.types
  attributes : d'.attributes = d.attributes
  materializer : d'.materializer = d.materializer
  operations : ∀ id, d'.operations.contains id = true ↔ d.operations.contains id = true ∨
    known.contains id = false ∧ ∃ kind ∈ kinds, kind.id = id

/-- Kinds of its own can be registered with a dialect, and are known then. -/
theorem registerAll_lists (known : KnownKinds) (d : Dialect Foreign)
    (own : ∀ kind ∈ kinds, kind.id.dialect = d.name) :
    ∃ known' d', registerAll kinds known d = (known', .ok d') ∧ Lists kinds known d d' ∧
      ∀ id, known'.contains id = true ↔ (∃ kind ∈ kinds, kind.id = id) ∨
        known.contains id = true := by
  induction kinds generalizing known d with
  | nil => exact ⟨known, d, rfl, ⟨rfl, rfl, rfl, rfl, by simp⟩, by simp⟩
  | cons kind rest ih =>
    have first := own kind List.mem_cons_self
    have others : ∀ kind' ∈ rest, kind'.id.dialect = d.name := fun kind' mem =>
      own kind' (List.mem_cons_of_mem kind mem)
    rw [registerAll]
    by_cases old : known.contains kind.id = true
    · rw [register_of_known old]
      obtain ⟨known', d', result, lists, knows⟩ := ih known d others
      refine ⟨known', d', result, { lists with operations := fun id => ?_ }, fun id => ?_⟩
      · rw [lists.operations]
        grind
      · rw [knows]
        grind
    · -- The others are registered where the first one is known and listed already.
      rw [Bool.not_eq_true] at old
      rw [register_of_new old first]
      obtain ⟨known', d', result, lists, knows⟩ := ih (known.insert kind.id kind)
        { d with operations := SortedSet.add d.operations kind.id } others
      have inserted := SortedMap.contains_insert known kind.id
      refine ⟨known', d', result, ⟨lists.name, lists.types, lists.attributes, lists.materializer,
        fun id => ?_⟩, fun id => ?_⟩
      · rw [lists.operations, SortedSet.contains_add]
        grind
      · rw [knows, inserted]
        grind

/-- Where no name comes twice, looking for repetitions changes nothing. -/
theorem registerDistinct_eq_registerAll (known : KnownKinds) (d : Dialect Foreign)
    (seen : List Identifier) (own : ∀ kind ∈ kinds, kind.id.dialect = d.name)
    (unseen : ∀ kind ∈ kinds, kind.id.name ∉ seen)
    (distinct : (kinds.map fun kind => kind.id.name).Nodup) :
    registerDistinct seen kinds known d = registerAll kinds known d := by
  induction kinds generalizing known d seen with
  | nil => rfl
  | cons kind rest ih =>
    obtain ⟨others, distinct⟩ := List.nodup_cons.mp distinct
    have first := own kind List.mem_cons_self
    have own' : ∀ kind' ∈ rest, kind'.id.dialect = d.name := fun kind' mem =>
      own kind' (List.mem_cons_of_mem kind mem)
    have new : ¬ seen.contains kind.id.name = true := by
      simpa using unseen kind List.mem_cons_self
    have unseen' : ∀ kind' ∈ rest, kind'.id.name ∉ kind.id.name :: seen := by
      intro kind' mem before
      rcases List.mem_cons.mp before with same | before
      · exact others (List.mem_map.mpr ⟨kind', mem, same⟩)
      · exact unseen kind' (List.mem_cons_of_mem kind mem) before
    rw [registerDistinct, if_neg new, registerAll]
    by_cases old : known.contains kind.id = true
    · rw [register_of_known old]
      exact ih _ _ _ own' unseen' distinct
    · rw [Bool.not_eq_true] at old
      rw [register_of_new old first]
      exact ih _ _ _ own' unseen' distinct

end OpKind

end HardwareIR
