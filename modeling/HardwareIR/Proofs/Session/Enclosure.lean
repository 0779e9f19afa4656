import HardwareIR.Proofs.Context.Enclosure
import HardwareIR.Proofs.Session.Sound
import HardwareIR.Proofs.Session.Standard

/-! # Enclosing operations in sessions

Whatever happened in a session, what is in a block finds the innermost operation of each known kind
that holds it, and the block finds the same hardware module as what is in it or comes into it.
-/

namespace HardwareIR

open Relation (TransGen)

namespace Context

variable {ctx : Context} {b : BlockRef}

/-- Where no operation is inside itself, the search outward from an operation finds the innermost
one of those that hold it and are called like the kind, or nothing if there are none.  The search
outward from the block that it is in finds the same hardware module.  It also finds the one that an
operation will find that is linked into the block later on. -/
theorem enclosing_nearest (reachable : ctx.Reachable) (acyclic : ctx.Acyclic)
    (live : ctx.Live (.block b)) :
    (∀ ops op, ctx.members .ops b = .ok ops → op ∈ ops →
      (∀ kind : OpKind, (ctx.registry.kind? kind.id).isSome → ∃ found,
        ctx.enclosing op kind = .ok found ∧ ctx.Nearest kind.id (.operation op) found) ∧
      (ctx.enclosingHwModule b).result = ctx.enclosing op .hwModule) ∧
    ∀ op place ctx' ops, ctx.link .ops op place = .ok ctx' →
      ¬ TransGen ctx.Holds (.operation op) (.block b) →
      ctx'.members .ops b = .ok ops → op ∈ ops →
      (ctx.enclosingHwModule b).result = ctx'.enclosing op .hwModule := by
  have sound := reachable.sound
  have wf := sound.wellFormed
  constructor
  · intro ops op members mem
    have listed := wf.listed_of_members members
    have parent : ctx.parent op = ctx.blockOwner b :=
      wf.around_of_holds (.operation listed mem)
    refine ⟨fun kind registered => ?_, wf.enclosingHwModule_eq parent⟩
    obtain ⟨content, live⟩ := live
    obtain ⟨start, owner⟩ := wf.exists_blockOwner live
    obtain ⟨_, found, -, -, innermost⟩ := wf.innermost_of_parent acyclic (parent.trans owner)
    exact ⟨found, sound.enclosing_of_innermost acyclic registered (parent.trans owner) innermost,
      wf.nearest_of_innermost (parent.trans owner) innermost⟩
  · intro op place ctx' ops linked outside members mem
    have wf' := wf.link linked
    have listed := wf'.listed_of_members members
    have parent : ctx'.parent op = ctx'.blockOwner b :=
      wf'.around_of_holds (.operation listed mem)
    rw [← wf'.enclosingHwModule_eq parent]
    exact (wf.enclosingHwModule_link acyclic live linked outside).symm

/-- There is a second terminator, in no block. -/
def looseTerminator : Context :=
  nestedModule.after [.newCatalogued arcOutput [] []]

theorem standard_looseTerminator : looseTerminator.Standard :=
  standard_nestedModule.after _ (by simp [Call.typeRefs])

theorem acyclic_looseTerminator : looseTerminator.Acyclic :=
  standard_looseTerminator.reachable.sound.wellFormed.acyclic_of_slots (by decide +kernel)

/-- In the body of the arc definition the hardware module around the definition is found, by the
terminator that is there, by the block, and by the other terminator once it is there too. -/
theorem enclosing_nearest_nested :
    looseTerminator.enclosing ⟨3, 0⟩ .hwModule = .ok (some ⟨0, 0⟩) ∧
      looseTerminator.Nearest OpKind.hwModule.id (.operation ⟨3, 0⟩) (some ⟨0, 0⟩) ∧
      (looseTerminator.enclosingHwModule ⟨1, 0⟩).result = .ok (some ⟨0, 0⟩) ∧
      ∃ ctx', looseTerminator.link .ops ⟨4, 0⟩ (.front ⟨1, 0⟩) = .ok ctx' ∧
        ctx'.enclosing ⟨4, 0⟩ .hwModule = .ok (some ⟨0, 0⟩) := by
  have sound := standard_looseTerminator.reachable.sound
  obtain ⟨inside, later⟩ := enclosing_nearest standard_looseTerminator.reachable
    acyclic_looseTerminator (b := ⟨1, 0⟩) ⟨_, rfl⟩
  obtain ⟨finds, agrees⟩ := inside [⟨3, 0⟩] ⟨3, 0⟩ rfl List.mem_cons_self
  obtain ⟨found, enclosing, nearest⟩ :=
    finds .hwModule (standard_looseTerminator.registered .hwModule)
  have outside : ¬ TransGen looseTerminator.Holds (.operation ⟨4, 0⟩) (.block ⟨1, 0⟩) := by
    intro holds
    obtain ⟨y, held, -⟩ := TransGen.head'_iff.mp holds
    cases held with
    | region regions mem =>
      cases regions
      cases mem
  have innermost : looseTerminator.Innermost OpKind.hwModule.id (some ⟨1, 0⟩) (some ⟨0, 0⟩) :=
    .further rfl (by decide) rfl (.here rfl rfl)
  cases enclosing.symm.trans (sound.enclosing_of_innermost acyclic_looseTerminator
    (standard_looseTerminator.registered .hwModule) rfl innermost)
  have linked := later ⟨4, 0⟩ (.front ⟨1, 0⟩) _ _ rfl outside rfl List.mem_cons_self
  exact ⟨enclosing, nearest, agrees.trans enclosing, _, rfl,
    linked.symm.trans (agrees.trans enclosing)⟩

end Context

end HardwareIR
