import HardwareIR.Proofs.Materialization.Unaffected
import HardwareIR.Proofs.Session.Materialization
import HardwareIR.Proofs.Session.Verdict

/-! # Verified trees under materialization

A constant that is materialized somewhere in a tree that was verified can spoil the tree in two ways
only: it does not pass itself, or it comes directly after a terminator, which is not the last of its
block any more.
-/

namespace HardwareIR

open Relation (ReflTransGen)

namespace Context

variable {ctx : Context} {point : InsertionPoint} {root op : OpRef} {b : BlockRef}
  {value : Attribute} {type : TypeRef} {location : Location}

/-- Of a tree that was verified, a materialized constant and a terminator right before it are the
only operations that may not pass. -/
theorem verify_after_materialization (standard : ctx.Standard) (acyclic : ctx.Acyclic)
    (has : ∀ ty ∈ type :: value.typeRefs, ctx.types.Has ty)
    (verified : (ctx.verify (.operation root)).result = .ok ())
    (block : point.block? ctx = .ok (some b))
    (inside : ReflTransGen ctx.Holds (.operation root) (.block b))
    (made : (ctx.materializeArc point value type location).outcome.result = .ok (some op)) :
    let after := (ctx.materializeArc point value type location).context
    (after.verify (.operation root)).result = .ok () ↔
      (after.verify (.operation op)).result = .ok () ∧ ¬ after.FollowsTerminator op := by
  intro after
  have sound := standard.reachable.sound
  have sound' : after.Sound := sound.materializeArc point location has
  obtain ⟨plan, o, -, makes, inserted⟩ := sound.wellFormed.inserted_of_made made
  exact inserted.verify_iff sound sound' (Plan.regions_of_operation? makes) acyclic
    (standard.registered .hwModule) verified block inside

/-- After the terminator of the nested module its parameter must not be materialized. -/
theorem verify_after_materialization_terminated :
    (nestedModule.verify (.operation ⟨0, 0⟩)).result = .ok () ∧
      ((nestedModule.materializeArc (.blockEnd ⟨0, 0⟩) wReference ⟨0⟩ .unknown).context.verify
        (.operation ⟨0, 0⟩)).result ≠ .ok () := by
  have standard := standard_nestedModule
  have sound := standard.reachable.sound
  have wf := sound.wellFormed
  have verified : (nestedModule.verify (.operation ⟨0, 0⟩)).result = .ok () := by
    refine wf.verify_eq_ok_iff.mpr ⟨⟨_, rfl⟩, fun x _ => acyclic_nestedModule.irreflexive x, ?_⟩
    intro p nested
    exact passes_nestedModule p ((preorder_nestedModule.mem_iff wf).mpr ⟨_, by simp, nested⟩)
  have body : nestedModule.Listed .blocks ⟨0, 0⟩ [⟨0, 0⟩] := wf.listed_of_members rfl
  have inside : ReflTransGen nestedModule.Holds (.operation ⟨0, 0⟩) (.block ⟨0, 0⟩) :=
    .tail (.single (.region rfl List.mem_cons_self)) (.block body List.mem_cons_self)
  have typed : nestedModule.types.Has ⟨0⟩ := ⟨.integer 8 .signless, rfl⟩
  have has : ∀ ty ∈ (⟨0⟩ : TypeRef) :: wReference.typeRefs, nestedModule.types.Has ty := by
    intro ty mem
    have same : ty = ⟨0⟩ := by simpa [wReference, Attribute.typeRefs] using mem
    exact same ▸ typed
  have inner : nestedModule.InnermostModule ⟨0, 0⟩ (some ⟨0, 0⟩) :=
    ⟨some ⟨0, 0⟩, rfl, .here rfl rfl⟩
  have accepted : nestedModule.Accepts ⟨0, 0⟩ wReference :=
    ⟨[⟨{ text := "w" }, ⟨0⟩, none⟩], rfl, rfl⟩
  have decides : nestedModule.Decides (.blockEnd ⟨0, 0⟩) wReference ⟨0⟩
      (.paramValue wReference) := by
    refine .paramValue rfl ?_ inner accepted
    rintro ⟨-, _, _, ⟨⟩⟩
  have decided := sound.plan_of_decides acyclic_nestedModule (standard.registered .hwModule) typed
    (fun ty mem => has ty (List.mem_cons_of_mem _ mem)) decides
  have made : (nestedModule.materializeArc (.blockEnd ⟨0, 0⟩) wReference ⟨0⟩
      .unknown).outcome.result = .ok (some ⟨4, 0⟩) := by
    rw [materializeArc_of_plan decided]
    rfl
  -- What comes before the new operation is the terminator that was there.
  have follows : (nestedModule.materializeArc (.blockEnd ⟨0, 0⟩) wReference ⟨0⟩
      .unknown).context.FollowsTerminator ⟨4, 0⟩ := by
    obtain ⟨_, _, -, -, inserted⟩ := wf.inserted_of_made made
    have before : nestedModule.operation ⟨2, 0⟩ = .ok _ := rfl
    have known := kindOf_of_known before (standard.kind?_eq (.arc arcOutput))
    rw [← inserted.kindOf_kept before] at known
    rw [materializeArc_of_plan decided] at known ⊢
    exact ⟨_, ⟨2, 0⟩, arcOutput, rfl, rfl, known, rfl⟩
  refine ⟨verified, fun verified' => ?_⟩
  exact ((verify_after_materialization standard acyclic_nestedModule has verified rfl inside
    made).mp verified').2 follows

end Context

end HardwareIR
