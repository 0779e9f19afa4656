import HardwareIR.Proofs.Context.Verdict
import HardwareIR.Proofs.Session.Standard

/-! # Verification in sessions

In a standard session the check of an operation with everything nested in it ends, and comes out as
the checks of the single operations in pre-order do: all pass, or the first that does not decides.
-/

namespace HardwareIR

open Relation (ReflTransGen TransGen)

namespace Context

variable {ctx : Context} {root : OpRef}

/-- In a standard session an operation is checked as one of the kind that it is called like. -/
theorem Standard.passes_iff (standard : ctx.Standard) {op : OpRef} {o : Operation}
    (live : ctx.operation op = .ok o) (kind : OpKind) (called : o.id = kind.id) :
    ctx.Passes op ↔ ctx.verifyInterfaces op kind.interfaces = .ok () ∧
      (ctx.verifyAs kind op).result = .ok () := by
  have known : ctx.kindOf op = .ok kind := by
    apply kindOf_of_known live
    rw [called]
    exact standard.kind?_eq kind
  rw [passes_iff_of_kind known, verifyInterfaces_eq_ok_iff]

theorem preorder_nestedModule :
    nestedModule.Preorder [.operation ⟨0, 0⟩] [⟨0, 0⟩, ⟨1, 0⟩, ⟨3, 0⟩, ⟨2, 0⟩] := by
  have tree : nestedModule.tree (.operation ⟨0, 0⟩) = .ok _ := rfl
  exact preorder_of_tree tree

theorem passes_nestedModule :
    ∀ op ∈ ([⟨0, 0⟩, ⟨1, 0⟩, ⟨3, 0⟩, ⟨2, 0⟩] : List OpRef), nestedModule.Passes op := by
  have standard := standard_nestedModule
  have top : nestedModule.Passes ⟨0, 0⟩ := (standard.passes_iff rfl .hwModule rfl).mpr ⟨rfl, rfl⟩
  have define : nestedModule.Passes ⟨1, 0⟩ :=
    (standard.passes_iff rfl (.arc arcDefine) rfl).mpr ⟨rfl, rfl⟩
  have last : nestedModule.Passes ⟨2, 0⟩ :=
    (standard.passes_iff rfl (.arc arcOutput) rfl).mpr ⟨rfl, rfl⟩
  have inner : nestedModule.Passes ⟨3, 0⟩ :=
    (standard.passes_iff rfl (.arc arcOutput) rfl).mpr ⟨rfl, rfl⟩
  simp [top, define, last, inner]

/-- The way from the module to the terminator of the definition. -/
theorem holds_nestedModule :
    nestedModule.Holds (.operation ⟨0, 0⟩) (.region ⟨0, 0⟩) ∧
      nestedModule.Holds (.region ⟨0, 0⟩) (.block ⟨0, 0⟩) ∧
      nestedModule.Holds (.block ⟨0, 0⟩) (.operation ⟨1, 0⟩) ∧
      nestedModule.Holds (.operation ⟨1, 0⟩) (.region ⟨1, 0⟩) ∧
      nestedModule.Holds (.region ⟨1, 0⟩) (.block ⟨1, 0⟩) ∧
      nestedModule.Holds (.block ⟨1, 0⟩) (.operation ⟨3, 0⟩) := by
  have wf := standard_nestedModule.reachable.sound.wellFormed
  refine ⟨.region rfl List.mem_cons_self, ?_, ?_, .region rfl List.mem_cons_self, ?_, ?_⟩
  · exact .block (wf.listed_of_members rfl) List.mem_cons_self
  · exact .operation (wf.listed_of_members rfl) List.mem_cons_self
  · exact .block (wf.listed_of_members rfl) List.mem_cons_self
  · exact .operation (wf.listed_of_members rfl) List.mem_cons_self

theorem verify_nestedModule : (nestedModule.verify (.operation ⟨0, 0⟩)).result = .ok () := by
  have wf := standard_nestedModule.reachable.sound.wellFormed
  refine wf.verify_eq_ok_iff.mpr ⟨⟨_, rfl⟩, fun x _ => acyclic_nestedModule.irreflexive x, ?_⟩
  intro op nested
  exact passes_nestedModule op ((preorder_nestedModule.mem_iff wf).mpr ⟨_, by simp, nested⟩)

/-! ## Trees -/

/-- The check of a live operation is that of its operations in pre-order, each once.  An operation
that has the shape that the interfaces of its kind demand is no misuse of the check of the kind. -/
theorem verify_in_preorder (standard : ctx.Standard) (acyclic : ctx.Acyclic)
    (live : ctx.Live (.operation root)) :
    (∃ ops, (∀ ops', ctx.Preorder [.operation root] ops' ↔ ops' = ops) ∧ ops.Nodup ∧
      (∀ op, op ∈ ops ↔ ReflTransGen ctx.Holds (.operation root) (.operation op)) ∧
      ctx.Verdict ops (ctx.verify (.operation root)).result) ∧
    ∀ op kind, ctx.kindOf op = .ok kind →
      (∀ interface ∈ kind.interfaces, ctx.verifyInterface op interface = .ok ()) →
      (ctx.verifyAs kind op).Sensible := by
  have sound := standard.reachable.sound
  have registered := standard.registered .hwModule
  constructor
  · obtain ⟨t, tree⟩ := sound.wellFormed.tree_ok live fun x _ => acyclic.irreflexive x
    obtain ⟨ops, preorder, same⟩ := verify_of_tree tree
    refine ⟨ops, fun ops' => ⟨fun preorder' => preorder'.unique preorder, ?_⟩, ?_, ?_, ?_⟩
    · rintro rfl
      exact preorder
    · exact preorder.nodup sound.wellFormed acyclic (List.pairwise_singleton _ _)
    · intro op
      rw [preorder.mem_iff sound.wellFormed]
      simp
    · rw [same]
      exact sound.verdict acyclic registered ops
  · intro op kind known shaped
    obtain ⟨o, live', -⟩ := Except.bind_eq_ok.mp known
    exact sound.verifyAs_sensible acyclic registered live' shaped

/-- The operations of the nested module, the definition before its body, pass one after the
other. -/
theorem verify_in_preorder_nested :
    nestedModule.Preorder [.operation ⟨0, 0⟩] [⟨0, 0⟩, ⟨1, 0⟩, ⟨3, 0⟩, ⟨2, 0⟩] ∧
      (nestedModule.verify (.operation ⟨0, 0⟩)).result = .ok () := by
  have live : nestedModule.Live (.operation ⟨0, 0⟩) := ⟨_, rfl⟩
  obtain ⟨⟨ops, unique, -, -, verdict⟩, -⟩ :=
    verify_in_preorder standard_nestedModule acyclic_nestedModule live
  obtain rfl := (unique _).mp preorder_nestedModule
  exact ⟨preorder_nestedModule, verdict.ok_iff.mpr passes_nestedModule⟩

/-! ## Operations of the catalog -/

/-- An operation of the catalog passes if it has as many regions as its entry says, is the last of
its block if it is a terminator, and all that is nested in it passes.  Regions of its own need not
have a single block. -/
theorem verify_catalogued_iff (reachable : ctx.Reachable) {op : OpRef} {o : Operation}
    (index : Fin catalog.length) (registered : (ctx.registry.kind? (OpKind.arc index).id).isSome)
    (live : ctx.operation op = .ok o) (called : o.id = (OpKind.arc index).id) :
    (ctx.verify (.operation op)).result = .ok () ↔
      o.regions.length = (catalog.get index).regions ∧
      ((catalog.get index).terminator = true → o.links.next = none) ∧
      (∀ x, ReflTransGen ctx.Holds (.operation op) x → ¬ TransGen ctx.Holds x x) ∧
      ∀ p, TransGen ctx.Holds (.operation op) (.operation p) → ctx.Passes p := by
  have sound := reachable.sound
  have known : ctx.kindOf op = .ok (.arc index) := by
    obtain ⟨kind, found⟩ := Option.isSome_iff_exists.mp registered
    have same := OpKind.eq_of_id (sound.known _ _ found)
    apply kindOf_of_known live
    rw [called, found, same]
  have passes : ctx.Passes op ↔ o.regions.length = (catalog.get index).regions ∧
      ((catalog.get index).terminator = true → o.links.next = none) := by
    rw [← verifyCatalogued_eq_ok_iff live, passes_iff_of_kind known]
    simp only [OpKind.interfaces, List.not_mem_nil, false_imp_iff, implies_true, true_and]
    rfl
  rw [sound.wellFormed.verify_eq_ok_iff]
  constructor
  · rintro ⟨-, acyclic, all⟩
    obtain ⟨regions, last⟩ := passes.mp (all op .refl)
    exact ⟨regions, last, acyclic, fun p inside => all p inside.to_reflTransGen⟩
  · rintro ⟨regions, last, acyclic, nested⟩
    refine ⟨⟨o, live⟩, acyclic, fun p below => ?_⟩
    rcases Relation.reflTransGen_iff_eq_or_transGen.mp below with same | inside
    · cases same
      exact passes.mpr ⟨regions, last⟩
    · exact nested p inside

/-- An arc definition that was given a second block. -/
def widenedDefinition : Context :=
  standardModule.after [.newCatalogued arcDefine [] [], .newBlock none [],
    .link .blocks ⟨2, 0⟩ (.back ⟨1, 0⟩)]

theorem standard_widenedDefinition : widenedDefinition.Standard :=
  standard_standardModule.after _ (by simp [Call.typeRefs])

/-- The definition passes with two blocks in its only region. -/
theorem verify_catalogued_iff_widened :
    widenedDefinition.members .blocks ⟨1, 0⟩ = .ok [⟨1, 0⟩, ⟨2, 0⟩] ∧
      (widenedDefinition.verify (.operation ⟨1, 0⟩)).result = .ok () := by
  have standard := standard_widenedDefinition
  have wf := standard.reachable.sound.wellFormed
  have acyclic : widenedDefinition.Acyclic := acyclic_of_free (by decide +kernel)
  have live : widenedDefinition.operation ⟨1, 0⟩ = .ok _ := rfl
  refine ⟨rfl, ?_⟩
  rw [verify_catalogued_iff standard.reachable arcDefine (standard.registered _) live rfl]
  refine ⟨rfl, by decide, fun x _ => acyclic.irreflexive x, fun p inside => ?_⟩
  -- Both blocks are empty, so that the definition is the only operation in its tree.
  have tree : widenedDefinition.tree (.operation ⟨1, 0⟩) = .ok _ := rfl
  have order : widenedDefinition.Preorder [.operation ⟨1, 0⟩] [⟨1, 0⟩] := preorder_of_tree tree
  have mem : p ∈ [⟨1, 0⟩] :=
    (order.mem_iff wf).mpr ⟨_, List.mem_cons_self, inside.to_reflTransGen⟩
  obtain rfl := List.mem_singleton.mp mem
  exact absurd inside (acyclic _)

end Context

end HardwareIR
