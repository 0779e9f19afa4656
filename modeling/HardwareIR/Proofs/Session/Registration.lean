import HardwareIR.Proofs.Session.Standard

/-! # Registering the arc dialect in a session

Whatever was done before, registering `arc` installs the three standard dialects if none of them is
there.  They list the operations that become known by it.  An operation that was known before,
because it was registered with a dialect that was never installed or that refused it, is in the list
of no dialect.
-/

namespace HardwareIR

namespace Context

variable {ctx : Context}

theorem registry_registerArc (ctx : Context) :
    (Call.registerArc.run ctx).1.registry = ctx.registry.registerArc.1 :=
  rfl

/-- Registering `arc` succeeds and installs the three standard dialects.  Each has what it is to
have, except for operations that were known before, and all operations are known then.  The catalog
has an entry for a name if the `arc` dialect lists it or it was known before. -/
theorem registerArc_lists_new (reachable : ctx.Reachable)
    (absent : ∀ s ∈ StandardDialect.all, ctx.registry.dialects.contains s.name = false) :
    let after := (Call.registerArc.run ctx).1.registry
    (Call.registerArc.run ctx).2 = .ok .done ∧
    (∀ s ∈ StandardDialect.all, ∃ d, after.dialects.get? s.name = some d ∧
      s.Describes ctx.registry.known d) ∧
    (∀ kind : OpKind, after.kind? kind.id = some kind) ∧
    ∀ d, after.dialects.get? StandardDialect.arc.name = some d → ∀ text,
      (CatalogEntry.named? text).isSome = true ↔ ∃ name : Identifier, name.text = text ∧
        (d.operations.contains ⟨StandardDialect.arc.name, name⟩ = true ∨
          ∃ kind, ctx.registry.kind? ⟨StandardDialect.arc.name, name⟩ = some kind) := by
  intro after
  obtain ⟨ok, dialects, -⟩ := Registry.registerArc_installs absent
  have known := Registry.kind?_registerArc reachable.sound.known absent
  refine ⟨?_, dialects, known, fun d found text => ?_⟩
  · show (ctx.registry.registerArc.2.result.map fun _ => Answer.done) = .ok .done
    rw [ok]
    rfl
  · exact Registry.named?_isSome_iff_of_registerArc reachable.sound.known absent found text

/-- Arc definitions were made known for the sake of an `arc` dialect that was dropped. -/
def definitionKnown : Context :=
  Context.empty.after [.registerKind (.arc arcDefine) (.empty StandardDialect.arc.name)]

theorem reachable_definitionKnown : definitionKnown.Reachable :=
  .call (.registerKind (.arc arcDefine) _) .empty fun _ mem => absurd mem List.not_mem_nil

/-- Then the `arc` dialect lists the operation after definitions in the catalog, but no
definitions. -/
theorem registerArc_lists_new_output :
    ∃ d, (Call.registerArc.run definitionKnown).1.registry.dialects.get?
        StandardDialect.arc.name = some d ∧
      d.operations.contains (OpKind.arc arcOutput).id = true ∧
      d.operations.contains (OpKind.arc arcDefine).id = false := by
  obtain ⟨-, dialects, -⟩ := registerArc_lists_new reachable_definitionKnown fun _ _ => rfl
  obtain ⟨d, found, describes⟩ := dialects .arc (by simp [StandardDialect.all])
  refine ⟨d, found, ?_, ?_⟩
  · refine (describes.operations _).mpr ⟨rfl, .arc arcOutput, ?_, rfl⟩
    exact List.mem_map_of_mem (List.mem_finRange arcOutput)
  · rw [← Bool.not_eq_true, describes.operations]
    rintro ⟨new, -⟩
    cases new

/-- An `arc` dialect that is registered where no standard dialect was need not list the whole
catalog. -/
theorem registerArc_omits_known :
    definitionKnown.Reachable ∧
    (∀ s ∈ StandardDialect.all, definitionKnown.registry.dialects.contains s.name = false) ∧
    (CatalogEntry.named? "define").isSome = true ∧
    ∃ d, (Call.registerArc.run definitionKnown).1.registry.dialects.get?
        StandardDialect.arc.name = some d ∧
      d.operations.contains ⟨StandardDialect.arc.name, { text := "define" }⟩ = false := by
  have absent : ∀ s ∈ StandardDialect.all,
      definitionKnown.registry.dialects.contains s.name = false := fun _ _ => rfl
  have entry : ∃ kind ∈ StandardDialect.arc.operations,
      kind.id = ⟨StandardDialect.arc.name, { text := "define" }⟩ :=
    ⟨.arc arcDefine, List.mem_map_of_mem (List.mem_finRange arcDefine), rfl⟩
  refine ⟨reachable_definitionKnown, absent,
    (CatalogEntry.named?_isSome_iff _).mpr ⟨_, rfl, entry⟩, ?_⟩
  rw [registry_registerArc]
  exact Registry.registerArc_omits absent rfl .arc (by simp [StandardDialect.all])

end Context

end HardwareIR
