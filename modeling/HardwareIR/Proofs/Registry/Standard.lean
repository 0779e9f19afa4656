import HardwareIR.Proofs.Except
import HardwareIR.Proofs.Registry.Known
import Mathlib.Data.List.FinRange

/-! # What the standard dialects list

A kind is listed in a dialect when it becomes known.  A kind that is known already is passed over,
whether or not there is a dialect that lists it.  So a standard dialect lists those of its
operations that were not known before (`StandardDialect.Describes`).

Registering `arc` where no standard dialect is installed installs all three of them like that and
makes every kind known (`Registry.registerArc_installs`, `Registry.kind?_registerArc`), next to
dialects with any hooks.
-/

namespace HardwareIR

variable {Foreign : Type}

/-! ## Contents -/

namespace Dialect

variable {d : Dialect Foreign}

theorem addTypes_eq {kinds : List IRType.Kind} (own : ∀ kind ∈ kinds, kind.id.dialect = d.name) :
    kinds.foldlM (fun d kind => d.addType kind.id) d =
      .ok { d with types := (kinds.map IRType.Kind.id).foldl SortedSet.add d.types } := by
  induction kinds generalizing d with
  | nil => rfl
  | cons kind rest ih =>
    have first : d.addType kind.id =
        .ok { d with types := SortedSet.add d.types kind.id } := by
      simp only [addType, checkOwner, if_pos (own kind List.mem_cons_self)]
      rfl
    rw [List.foldlM_cons, first]
    exact ih fun kind' mem => own kind' (List.mem_cons_of_mem kind mem)

theorem addAttributes_eq {kinds : List Attribute.Kind}
    (own : ∀ kind ∈ kinds, kind.id.dialect = d.name) :
    kinds.foldlM (fun d kind => d.addAttribute kind.id) d =
      .ok { d with
        attributes := (kinds.map Attribute.Kind.id).foldl SortedSet.add d.attributes } := by
  induction kinds generalizing d with
  | nil => rfl
  | cons kind rest ih =>
    have first : d.addAttribute kind.id =
        .ok { d with attributes := SortedSet.add d.attributes kind.id } := by
      simp only [addAttribute, checkOwner, if_pos (own kind List.mem_cons_self)]
      rfl
    rw [List.foldlM_cons, first]
    exact ih fun kind' mem => own kind' (List.mem_cons_of_mem kind mem)

end Dialect

namespace StandardDialect

/-- The dialects that come with the library. -/
def all : List StandardDialect :=
  [builtin, hw, arc]

/-- Everything in a standard dialect has a name of the dialect. -/
structure Own (s : StandardDialect) : Prop where
  operations : ∀ kind ∈ s.operations, kind.id.dialect = s.name
  types : ∀ kind ∈ s.types, kind.id.dialect = s.name
  attributes : ∀ kind ∈ s.attributes, kind.id.dialect = s.name

theorem builtin_own : builtin.Own := ⟨by decide, by decide, by decide⟩

theorem hw_own : hw.Own := ⟨by decide, by decide, by decide⟩

theorem arc_own : arc.Own where
  operations kind mem := by
    obtain ⟨_, -, rfl⟩ := List.mem_map.mp mem
    rfl
  types := by decide
  attributes := by decide

/-- A dialect has what a standard dialect says, except for operations that were known before. -/
structure Describes (s : StandardDialect) (known : KnownKinds) (d : Dialect Foreign) : Prop where
  name : d.name = s.name
  operations : ∀ id, d.operations.contains id = true ↔
    known.contains id = false ∧ ∃ kind ∈ s.operations, kind.id = id
  types : ∀ id, d.types.contains id = true ↔ ∃ kind ∈ s.types, kind.id = id
  attributes : ∀ id, d.attributes.contains id = true ↔ ∃ kind ∈ s.attributes, kind.id = id
  materializer : d.materializer = s.materializer.map .widen

variable {s : StandardDialect} {known known' : KnownKinds} {d : Dialect Foreign}

/-- Only the names of the dialect itself matter among those that were known. -/
theorem Describes.of_known (describes : s.Describes known d) (own : s.Own)
    (same : ∀ id, id.dialect = s.name → known.contains id = known'.contains id) :
    s.Describes known' d where
  name := describes.name
  operations id := by
    rw [describes.operations]
    constructor
    · rintro ⟨new, kind, mem, rfl⟩
      exact ⟨same kind.id (own.operations kind mem) ▸ new, kind, mem, rfl⟩
    · rintro ⟨new, kind, mem, rfl⟩
      exact ⟨(same kind.id (own.operations kind mem)).symm ▸ new, kind, mem, rfl⟩
  types := describes.types
  attributes := describes.attributes
  materializer := describes.materializer

/-- A new dialect that took in the operations takes in the rest as well. -/
theorem addContents_describes (own : s.Own)
    (lists : OpKind.Lists s.operations known (.empty s.name) d) :
    ∃ d', s.addContents d = .ok d' ∧ s.Describes known d' := by
  have types : ∀ kind ∈ s.types, kind.id.dialect = d.name := by
    rw [lists.name]
    exact own.types
  have attributes : ∀ kind ∈ s.attributes, kind.id.dialect = d.name := by
    rw [lists.name]
    exact own.attributes
  refine ⟨{ d with
    types := (s.types.map IRType.Kind.id).foldl SortedSet.add d.types
    attributes := (s.attributes.map Attribute.Kind.id).foldl SortedSet.add d.attributes
    materializer := s.materializer.map .widen }, ?_, ?_⟩
  · have second := Dialect.addAttributes_eq
      (d := { d with types := (s.types.map IRType.Kind.id).foldl SortedSet.add d.types }) attributes
    rw [addContents, Dialect.addTypes_eq types, Except.bind_ok, second, Except.bind_ok,
      Except.pure_eq_ok]
  · refine ⟨lists.name, fun id => ?_, fun id => ?_, fun id => ?_, rfl⟩
    · rw [lists.operations]
      exact or_iff_right (by exact Bool.false_ne_true)
    · rw [SortedSet.contains_foldl_add, lists.types, List.mem_map]
      exact or_iff_left (by exact Bool.false_ne_true)
    · rw [SortedSet.contains_foldl_add, lists.attributes, List.mem_map]
      exact or_iff_left (by exact Bool.false_ne_true)

end StandardDialect

/-- What is found in the catalog are the names of the `arc` operations. -/
theorem CatalogEntry.named?_isSome_iff (text : String) :
    (named? text).isSome = true ↔ ∃ name : Identifier, name.text = text ∧
      ∃ kind ∈ StandardDialect.arc.operations, kind.id = ⟨StandardDialect.arc.name, name⟩ := by
  rw [named?, List.find?_isSome]
  constructor
  · rintro ⟨entry, mem, called⟩
    obtain ⟨index, rfl⟩ := List.get_of_mem mem
    refine ⟨(catalog.get index).name, eq_of_beq called, .arc index, ?_, rfl⟩
    exact List.mem_map_of_mem (List.mem_finRange index)
  · rintro ⟨name, rfl, kind, mem, called⟩
    obtain ⟨index, -, rfl⟩ := List.mem_map.mp mem
    have same : (catalog.get index).name = name := congrArg QualifiedName.name called
    exact ⟨catalog.get index, List.get_mem .., by rw [same, beq_self_eq_true]⟩

namespace Registry

open StandardDialect (builtin hw arc)

variable {r r' : Registry Foreign} {s : StandardDialect}

/-! ## Installation -/

/-- One registry comes from another by installing a standard dialect. -/
structure Installs (s : StandardDialect) (r r' : Registry Foreign) : Prop where
  dialect : ∃ d, r'.dialects.get? s.name = some d ∧ s.Describes r.known d
  others : ∀ name, name ≠ s.name → r'.dialects.get? name = r.dialects.get? name
  known : ∀ id, r'.known.contains id = true ↔
    (∃ kind ∈ s.operations, kind.id = id) ∨ r.known.contains id = true

theorem complete_installs (own : s.Own) (absent : r.dialects.contains s.name = false) :
    ∃ r' d, r.complete s (OpKind.registerAll s.operations r.known (.empty s.name)) =
      (r', .ok d) ∧ Installs s r r' := by
  obtain ⟨known, d, registered, lists, knows⟩ :=
    OpKind.registerAll_lists r.known (.empty s.name) own.operations
  obtain ⟨d', contents, describes⟩ := StandardDialect.addContents_describes own lists
  have installed : ({ r with known } : Registry Foreign).install d' =
      { r with known, dialects := r.dialects.insert s.name d' } := by
    simp only [install, describes.name, absent, Bool.false_eq_true, if_false]
  refine ⟨{ r with known, dialects := r.dialects.insert s.name d' }, d', ?_,
    ⟨d', ?_, describes⟩, fun name other => ?_, knows⟩
  · rw [registered]
    simp only [complete, Except.bind, contents, installed]
  · exact (SortedMap.get?_insert ..).trans (if_pos rfl)
  · exact (SortedMap.get?_insert ..).trans (if_neg other)

/-- Names of other dialects are not affected. -/
theorem Installs.contains_known (installs : Installs s r r') (own : s.Own) {id : QualifiedName}
    (foreign : id.dialect ≠ s.name) : r'.known.contains id = r.known.contains id := by
  rw [Bool.eq_iff_iff, installs.known]
  refine or_iff_right ?_
  rintro ⟨kind, mem, rfl⟩
  exact foreign (own.operations kind mem)

theorem Installs.contains_dialect (installs : Installs s r r') {name : Identifier}
    (other : name ≠ s.name) : r'.dialects.contains name = r.dialects.contains name := by
  rw [SortedMap.contains, SortedMap.contains, installs.others name other]

theorem Installs.contains_self (installs : Installs s r r') :
    r'.dialects.contains s.name = true := by
  obtain ⟨d, found, -⟩ := installs.dialect
  exact Option.isSome_iff_exists.mpr ⟨d, found⟩

/-! ## The standard dialects -/

theorem registerBuiltin_installs (absent : r.dialects.contains builtin.name = false) :
    Installs builtin r r.registerBuiltin.1 ∧ r.registerBuiltin.2.result = .ok () := by
  obtain ⟨r', d, completed, installs⟩ := complete_installs StandardDialect.builtin_own absent
  simp only [registerBuiltin, absent, Bool.false_eq_true, if_false, completed]
  exact ⟨installs, rfl⟩

theorem registerBuiltin_of_present (there : r.dialects.contains builtin.name = true) :
    r.registerBuiltin = (r, pure ()) := by
  simp only [registerBuiltin, there, if_true]

/-- Registering `builtin` succeeds, and then it is there; no other dialect is new. -/
theorem registerBuiltin_settles (r : Registry Foreign) :
    r.registerBuiltin.2.result = .ok () ∧
      r.registerBuiltin.1.dialects.contains builtin.name = true ∧
      ∀ name, name ≠ builtin.name →
        r.registerBuiltin.1.dialects.contains name = r.dialects.contains name := by
  cases there : r.dialects.contains builtin.name with
  | true =>
    rw [registerBuiltin_of_present there]
    exact ⟨rfl, there, fun _ _ => rfl⟩
  | false =>
    obtain ⟨installs, ok⟩ := registerBuiltin_installs there
    exact ⟨ok, installs.contains_self, fun _ other => installs.contains_dialect other⟩

/-- Where there is no `hw` dialect, it is installed after `builtin`. -/
theorem registerHw_installs (absent : r.dialects.contains hw.name = false) :
    Installs hw r.registerBuiltin.1 r.registerHw.1 ∧ r.registerHw.2.result = .ok () := by
  obtain ⟨ok, -, others⟩ := r.registerBuiltin_settles
  rw [← others _ (by decide)] at absent
  obtain ⟨r', d, completed, installs⟩ := complete_installs StandardDialect.hw_own absent
  simp only [registerHw, ok, absent, Bool.false_eq_true, if_false, completed]
  exact ⟨installs, by simp only [Report.bind, ok]; rfl⟩

theorem registerHw_of_present (there : r.dialects.contains hw.name = true) :
    r.registerHw = r.registerBuiltin := by
  obtain ⟨ok, -, others⟩ := r.registerBuiltin_settles
  rw [← others _ (by decide)] at there
  simp only [registerHw, ok, there, if_true]

/-- Registering `hw` succeeds, and then it is there with `builtin`; no other dialect is new. -/
theorem registerHw_settles (r : Registry Foreign) :
    r.registerHw.2.result = .ok () ∧ r.registerHw.1.dialects.contains builtin.name = true ∧
      r.registerHw.1.dialects.contains hw.name = true ∧
      ∀ name, name ≠ builtin.name → name ≠ hw.name →
        r.registerHw.1.dialects.contains name = r.dialects.contains name := by
  obtain ⟨ok, there, others⟩ := r.registerBuiltin_settles
  cases there' : r.dialects.contains hw.name with
  | true =>
    rw [registerHw_of_present there']
    exact ⟨ok, there, (others _ (by decide)).trans there', fun name other _ => others name other⟩
  | false =>
    obtain ⟨installs, ok'⟩ := registerHw_installs there'
    refine ⟨ok', ?_, installs.contains_self, fun name other other' => ?_⟩
    · rw [installs.contains_dialect (by decide), there]
    · rw [installs.contains_dialect other', others name other]

theorem arc_names_nodup : (OpKind.catalogKinds.map fun kind => kind.id.name).Nodup := by
  rw [OpKind.catalogKinds, List.map_map]
  refine (List.nodup_finRange _).map fun i j same => ?_
  exact OpKind.catalog_name_inj (congrArg Identifier.text same)

/-- Where there is no `arc` dialect, it is installed after `hw`. -/
theorem registerArc_installs_after_hw (absent : r.dialects.contains arc.name = false) :
    Installs arc r.registerHw.1 r.registerArc.1 ∧ r.registerArc.2.result = .ok () := by
  obtain ⟨ok, -, -, others⟩ := r.registerHw_settles
  have missing : r.registerHw.1.dialects.contains arc.name = false := by
    rw [others _ (by decide) (by decide), absent]
  obtain ⟨r', d, completed, installs⟩ := complete_installs StandardDialect.arc_own missing
  -- The catalog has no name twice, so that the search for repetitions finds none.
  have distinct := OpKind.registerDistinct_eq_registerAll r.registerHw.1.known
    (.empty arc.name : Dialect Foreign) [] StandardDialect.arc_own.operations
    (fun _ _ => List.not_mem_nil) arc_names_nodup
  rw [← distinct] at completed
  simp only [registerArc, absent, Bool.false_eq_true, if_false, ok, completed]
  exact ⟨installs, by simp only [Report.bind, ok]; rfl⟩

theorem registerArc_of_present (there : r.dialects.contains arc.name = true) :
    r.registerArc = (r, pure ()) := by
  simp only [registerArc, there, if_true]

/-- Registering `arc` succeeds, and then it is there, with the dialects that it brings along unless
it was there before. -/
theorem registerArc_settles (r : Registry Foreign) :
    r.registerArc.2.result = .ok () ∧ r.registerArc.1.dialects.contains arc.name = true ∧
      (r.dialects.contains arc.name = false →
        r.registerArc.1.dialects.contains builtin.name = true ∧
        r.registerArc.1.dialects.contains hw.name = true) := by
  cases there : r.dialects.contains arc.name with
  | true =>
    rw [registerArc_of_present there]
    exact ⟨rfl, there, nofun⟩
  | false =>
    obtain ⟨-, there', there'', -⟩ := r.registerHw_settles
    obtain ⟨installs, ok⟩ := registerArc_installs_after_hw there
    refine ⟨ok, installs.contains_self, fun _ => ⟨?_, ?_⟩⟩
    · rw [installs.contains_dialect (by decide), there']
    · rw [installs.contains_dialect (by decide), there'']

/-- Every kind is an operation of a standard dialect. -/
theorem exists_standard (kind : OpKind) : ∃ s ∈ StandardDialect.all, kind ∈ s.operations := by
  cases kind with
  | module => exact ⟨builtin, by simp [StandardDialect.all], List.mem_cons_self⟩
  | hwModule | constant | paramValue => exact ⟨hw, by simp [StandardDialect.all], by decide⟩
  | arc index =>
    exact ⟨arc, by simp [StandardDialect.all], List.mem_map_of_mem (List.mem_finRange index)⟩

/-- Registering `arc` lists the operations that were not known before, in the dialects that they
belong to, and makes all of them known. -/
theorem registerArc_installs
    (absent : ∀ s ∈ StandardDialect.all, r.dialects.contains s.name = false) :
    r.registerArc.2.result = .ok () ∧
    (∀ s ∈ StandardDialect.all, ∃ d, r.registerArc.1.dialects.get? s.name = some d ∧
      s.Describes r.known d) ∧
    ∀ kind : OpKind, r.registerArc.1.known.contains kind.id = true := by
  simp only [StandardDialect.all, List.forall_mem_cons, List.not_mem_nil, false_imp_iff,
    implies_true, and_true] at absent
  obtain ⟨noBuiltin, noHw, noArc⟩ := absent
  obtain ⟨first, -⟩ := registerBuiltin_installs noBuiltin
  obtain ⟨second, -⟩ := registerHw_installs noHw
  obtain ⟨third, ok⟩ := registerArc_installs_after_hw noArc
  have known₁ : ∀ {id : QualifiedName}, id.dialect ≠ builtin.name →
      r.registerBuiltin.1.known.contains id = r.known.contains id :=
    first.contains_known StandardDialect.builtin_own
  have known₂ : ∀ {id : QualifiedName}, id.dialect ≠ hw.name →
      r.registerHw.1.known.contains id = r.registerBuiltin.1.known.contains id :=
    second.contains_known StandardDialect.hw_own
  refine ⟨ok, ?_, fun kind => ?_⟩
  · simp only [StandardDialect.all, List.forall_mem_cons, List.not_mem_nil, false_imp_iff,
      implies_true, and_true]
    refine ⟨?_, ?_, ?_⟩
    · obtain ⟨d, found, describes⟩ := first.dialect
      refine ⟨d, ?_, describes⟩
      rw [third.others _ (by decide), second.others _ (by decide), found]
    · obtain ⟨d, found, describes⟩ := second.dialect
      refine ⟨d, ?_, describes.of_known StandardDialect.hw_own fun id own => known₁ ?_⟩
      · rw [third.others _ (by decide), found]
      · exact own ▸ by decide
    · obtain ⟨d, found, describes⟩ := third.dialect
      refine ⟨d, found, describes.of_known StandardDialect.arc_own fun id own => ?_⟩
      rw [known₂ (own ▸ by decide), known₁ (own ▸ by decide)]
  · obtain ⟨s, standard, mem⟩ := exists_standard kind
    simp only [StandardDialect.all, List.mem_cons, List.not_mem_nil, or_false] at standard
    rw [third.known, second.known, first.known]
    rcases standard with rfl | rfl | rfl
    · exact .inr (.inr (.inl ⟨kind, mem, rfl⟩))
    · exact .inr (.inl ⟨kind, mem, rfl⟩)
    · exact .inl ⟨kind, mem, rfl⟩

/-- Then a kind is what its name means. -/
theorem kind?_registerArc (faithful : r.known.Faithful)
    (absent : ∀ s ∈ StandardDialect.all, r.dialects.contains s.name = false) (kind : OpKind) :
    r.registerArc.1.kind? kind.id = some kind := by
  obtain ⟨-, -, known⟩ := registerArc_installs absent
  obtain ⟨kind', found⟩ := Option.isSome_iff_exists.mp (known kind)
  have same := registerArc_of_stable faithful_stable faithful _ _ found
  rw [kind?, found, OpKind.eq_of_id same]

/-- The catalog has an entry for a name if the `arc` dialect that is registered lists it or it was
known before. -/
theorem named?_isSome_iff_of_registerArc (faithful : r.known.Faithful)
    (absent : ∀ s ∈ StandardDialect.all, r.dialects.contains s.name = false) {d : Dialect Foreign}
    (installed : r.registerArc.1.dialects.get? arc.name = some d) (text : String) :
    (CatalogEntry.named? text).isSome = true ↔ ∃ name : Identifier, name.text = text ∧
      (d.operations.contains ⟨arc.name, name⟩ = true ∨
        ∃ kind, r.kind? ⟨arc.name, name⟩ = some kind) := by
  obtain ⟨-, dialects, -⟩ := registerArc_installs absent
  obtain ⟨d', found, describes⟩ := dialects arc (by simp [StandardDialect.all])
  cases installed.symm.trans found
  rw [CatalogEntry.named?_isSome_iff]
  refine exists_congr fun name => and_congr_right fun _ => ?_
  rw [describes.operations, ← Option.isSome_iff_exists]
  constructor
  · intro listed
    by_cases old : r.known.contains ⟨arc.name, name⟩ = true
    · exact .inr old
    · exact .inl ⟨Bool.not_eq_true _ ▸ old, listed⟩
  · rintro (⟨-, listed⟩ | old)
    · exact listed
    · -- What was known under a name of the dialect is an operation of the catalog.
      obtain ⟨kind, found⟩ := Option.isSome_iff_exists.mp old
      have called := faithful _ _ found
      cases kind with
      | arc index => exact ⟨.arc index, List.mem_map_of_mem (List.mem_finRange index), called⟩
      | module | hwModule | constant | paramValue =>
        have dialect := congrArg (fun id => id.dialect.text) called
        simp [OpKind.id, arc] at dialect

/-- What was known before is in no list. -/
theorem registerArc_omits
    (absent : ∀ s ∈ StandardDialect.all, r.dialects.contains s.name = false) {id : QualifiedName}
    (old : r.known.contains id = true) :
    ∀ s ∈ StandardDialect.all, ∃ d, r.registerArc.1.dialects.get? s.name = some d ∧
      d.operations.contains id = false := by
  intro s standard
  obtain ⟨-, dialects, -⟩ := registerArc_installs absent
  obtain ⟨d, found, describes⟩ := dialects s standard
  refine ⟨d, found, ?_⟩
  rw [← Bool.not_eq_true, describes.operations, old]
  exact fun listed => absurd listed.1 (by decide)

/-- Where nothing is known, the `arc` dialect that is registered builds constants. -/
theorem materializer_registerArc_empty :
    ∃ d : Dialect Foreign,
      Registry.empty.registerArc.1.dialects.get? StandardDialect.arc.name = some d ∧
        d.materializer = some .arc := by
  obtain ⟨-, dialects, -⟩ := registerArc_installs (r := (.empty : Registry Foreign)) fun _ _ => rfl
  obtain ⟨d, found, describes⟩ := dialects arc (by simp [StandardDialect.all])
  exact ⟨d, found, describes.materializer⟩

end Registry

end HardwareIR
