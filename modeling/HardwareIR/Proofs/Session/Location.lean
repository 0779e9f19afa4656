import HardwareIR.Proofs.Context.Location
import HardwareIR.Proofs.Session.Standard

/-! # Where errors are reported in sessions

When a tree of operations is rejected, the error is about the first of them that does not pass, and
is reported at its location.  Only a literal that does not fit its type is reported without one.
-/

namespace HardwareIR

namespace Context

variable {ctx : Context} {root : OpRef} {error : Error}

/-- The first operation in pre-order that does not pass is rejected, at its location unless it is an
integer constant whose literal does not fit its type. -/
theorem verify_error_location (reachable : ctx.Reachable) (acyclic : ctx.Acyclic)
    (registered : (ctx.registry.kind? OpKind.hwModule.id).isSome)
    (live : ctx.Live (.operation root))
    (failed : (ctx.verify (.operation root)).result = .error (.rejected error)) :
    ∃ before op after o, ctx.Preorder [.operation root] (before ++ op :: after) ∧
      (∀ p ∈ before, ctx.Passes p) ∧ ctx.operation op = .ok o ∧ ctx.Rejects op error ∧
      (ctx.Misfit op o → error.location = .unknown) ∧
      (¬ ctx.Misfit op o → error.location = o.location) := by
  have sound := reachable.sound
  obtain ⟨before, op, after, o, preorder, passed, live', rejects⟩ :=
    sound.exists_rejected acyclic registered live failed
  exact ⟨before, op, after, o, preorder, passed, live', rejects,
    sound.location_of_rejects acyclic registered live' rejects⟩

/-- A constant of eight bits with a literal of sixteen, at a known place. -/
def misfitConstant : Context :=
  Context.empty.after [.registerArc, .requestType (.integer 8 .signless),
    .newConstant ⟨0⟩ ⟨0⟩ ⟨16, 5, Nat.succ_pos 15⟩, .setLocation ⟨0, 0⟩ (.position "top.sv" 3 7)]

theorem standard_misfitConstant : misfitConstant.Standard := by
  refine .call (.setLocation ..) (.call (.newConstant ..) (.call (.requestType _)
    (.register .empty rfl) ?_) ?_) ?_
  · exact fun _ mem => absurd mem List.not_mem_nil
  · intro ty mem
    have same : ty = ⟨0⟩ := by simpa [Call.typeRefs] using mem
    exact same ▸ ⟨.integer 8 .signless, rfl⟩
  · exact fun _ mem => absurd mem List.not_mem_nil

/-- Where the constant comes from is not in the error about it. -/
theorem verify_error_location_misfit :
    ∃ o error, misfitConstant.operation ⟨0, 0⟩ = .ok o ∧
      o.location = .position "top.sv" 3 7 ∧
      (misfitConstant.verify (.operation ⟨0, 0⟩)).result = .error (.rejected error) ∧
      error.location = .unknown := by
  have standard := standard_misfitConstant
  have acyclic : misfitConstant.Acyclic := acyclic_of_free (by decide)
  obtain ⟨o, live, location, regions, results, operands, called, stored⟩ :
      ∃ o, misfitConstant.operation ⟨0, 0⟩ = .ok o ∧ o.location = .position "top.sv" 3 7 ∧
        o.regions = [] ∧ o.resultTypes = [⟨0⟩] ∧ o.operands = [] ∧ o.id = OpKind.constant.id ∧
        o.attributes.get? AttributeDict.constantValue =
          some (.integer ⟨0⟩ ⟨16, 5, Nat.succ_pos 15⟩) :=
    ⟨_, rfl, rfl, rfl, rfl, rfl, rfl, rfl⟩
  have typed : misfitConstant.types.get ⟨0⟩ = .ok (.integer 8 .signless) := rfl
  have shape : ConstantShape o ⟨0⟩ := ⟨regions, operands, results⟩
  have known : misfitConstant.kindOf ⟨0, 0⟩ = .ok .constant :=
    kindOf_of_known live (called ▸ standard.kind?_eq .constant)
  have misfit : misfitConstant.Misfit ⟨0, 0⟩ o := by
    refine ⟨known, operands, ⟨0⟩, _, _, results, stored, typed, ?_⟩
    rintro ⟨width, sign, same, fits⟩
    cases same
    cases fits
  have failed : (misfitConstant.verify (.operation ⟨0, 0⟩)).result =
      .error (.rejected (.verification (.literalWidth 16 8))) := by
    rw [shape.verify_eq live known rfl]
    exact shape.verifyConstant_of_same live stored typed
  obtain ⟨before, op, after, o', preorder, -, live', -, nowhere, -⟩ :=
    verify_error_location standard.reachable acyclic (standard.registered _) ⟨o, live⟩ failed
  -- The constant is the only operation there is.
  have alone : misfitConstant.Preorder [.operation ⟨0, 0⟩] [⟨0, 0⟩] :=
    preorder_of_tree (tree_of_plain live regions)
  have mem : op ∈ [⟨0, 0⟩] := preorder.unique alone ▸ List.mem_append_right _ List.mem_cons_self
  obtain rfl := List.mem_singleton.mp mem
  cases live.symm.trans live'
  exact ⟨o, _, live, location, failed, nowhere misfit⟩

end Context

end HardwareIR
