import HardwareIR.Proofs.Context.Operands
import HardwareIR.Proofs.Session.Arguments
import HardwareIR.Proofs.Session.Verdict

/-! # Operands of verified operations

A tree of operations that passes says nothing about its operands, apart from the operations that are
to have none: it passes with whatever operands.  An operand that is left over after its definition
was erased is noticed only when the tree is printed, and only if it is an argument, because naming
an argument takes its block.
-/

namespace HardwareIR

open Relation (ReflTransGen TransGen)
open Printer (Shows)

namespace Context

variable {ctx : Context} {root : OpRef}

/-- A tree that passes would pass with other operands, where there may be operands.  It has a text
if the operands in the text that are arguments are those of live blocks, and printing it fails
otherwise. -/
theorem verified_operands (reachable : ctx.Reachable)
    (verified : (ctx.verify (.operation root)).result = .ok ()) :
    (∀ ctx', SameButOperands ctx ctx' → ((ctx'.verify (.operation root)).result = .ok () ↔
      ∀ p, ReflTransGen ctx.Holds (.operation root) (.operation p) → ctx'.SparesOperands p)) ∧
    Shows (.misuse .freed) (ctx.print (.operation root))
      (∀ p, ReflTransGen ctx.Holds (.operation root) (.operation p) → ctx.NamesOperands p) ∧
    ∃ kind, ctx.kindOf root = .ok kind ∧
      Shows (.misuse .freed) (ctx.printAs kind root)
        (∀ p, ctx.ShownAs kind root p → ctx.NamesOperands p) := by
  have sound := reachable.sound
  have interned := reachable.argumentsInterned
  obtain ⟨t, tree, -⟩ := Report.bind_eq_ok.mp verified
  obtain ⟨-, -, passes⟩ := sound.wellFormed.verify_eq_ok_iff.mp verified
  obtain ⟨kind, known, shaped, passed⟩ := passes root .refl
  exact ⟨fun ctx' same => same.verify_iff sound.wellFormed verified,
    sound.print_shows interned tree, kind, known, sound.printAs_shows interned tree shaped passed⟩

/-! ## An operand that outlives its block -/

def arcState : Fin catalog.length := ⟨2, by decide⟩

/-- An arc definition with a second block, and a state that has the argument of that block for an
operand. -/
def usedArgument : Context :=
  standardModule.after [.newBlock none [⟨0⟩], .newCatalogued arcDefine [] [],
    .link .blocks ⟨1, 0⟩ (.back ⟨1, 0⟩), .newCatalogued arcState [] [.argument ⟨1, 0⟩ 0]]

theorem standard_usedArgument : usedArgument.Standard := by
  rw [usedArgument, after]
  refine Standard.after (.call _ standard_standardModule ?_) _ (by simp [Call.typeRefs])
  intro ty mem
  obtain rfl := List.mem_singleton.mp mem
  exact ⟨.integer 8 .signless, rfl⟩

/-- The definition is erased, and its blocks with it. -/
def danglingArgument : Context :=
  usedArgument.after [.erase ⟨1, 0⟩]

theorem standard_danglingArgument : danglingArgument.Standard :=
  standard_usedArgument.after _ (by simp [Call.typeRefs])

/-- A state without regions passes whatever its operands are. -/
theorem Standard.verify_state (standard : ctx.Standard) {o : Operation}
    (live : ctx.operation root = .ok o) (called : o.id = (OpKind.arc arcState).id)
    (plain : o.regions = []) : (ctx.verify (.operation root)).result = .ok () := by
  rw [verify_of_plain live plain, verifyOperation_eq_ok_iff, standard.passes_iff live _ called]
  refine ⟨rfl, ?_⟩
  exact (verifyCatalogued_eq_ok_iff live _).mpr ⟨by rw [plain]; rfl, nofun⟩

/-- While the block is there, the state has a text, in general and as one of its kind. -/
theorem verified_operands_used :
    (usedArgument.verify (.operation ⟨2, 0⟩)).result = .ok () ∧
      ∀ l, (∃ text, (usedArgument.print (.operation ⟨2, 0⟩)).run l = .ok (text, l)) ∧
        ∃ text, (usedArgument.printAs (.arc arcState) ⟨2, 0⟩).run l = .ok (text, l) := by
  have standard := standard_usedArgument
  have live : usedArgument.operation ⟨2, 0⟩ = .ok _ := rfl
  have verified := standard.verify_state live rfl rfl
  have known : usedArgument.kindOf ⟨2, 0⟩ = .ok (.arc arcState) :=
    kindOf_of_known live (standard.kind?_eq _)
  have names : ∀ p, ReflTransGen usedArgument.Holds (.operation ⟨2, 0⟩) (.operation p) →
      usedArgument.NamesOperands p := by
    intro p below o live' b index mem
    -- The state is the only operation in its tree, and it has one operand.
    have alone : usedArgument.Preorder [.operation ⟨2, 0⟩] [⟨2, 0⟩] :=
      preorder_of_tree (tree_of_plain live rfl)
    have same := (alone.mem_iff standard.reachable.sound.wellFormed).mpr
      ⟨_, List.mem_cons_self, below⟩
    obtain rfl := List.mem_singleton.mp same
    cases live.symm.trans live'
    cases List.mem_singleton.mp mem
    exact ⟨_, rfl⟩
  obtain ⟨-, general, kind, known', typed⟩ := verified_operands standard.reachable verified
  cases known.symm.trans known'
  exact ⟨verified, fun l => ⟨general.text names l, typed.text names l⟩⟩

/-- Once its definition is erased, the argument has no type and the state has no text, but the state
still passes. -/
theorem dangling_operand_verified :
    danglingArgument.Standard ∧ danglingArgument.Acyclic ∧
      (danglingArgument.verify (.operation ⟨2, 0⟩)).result = .ok () ∧
      (∃ o, danglingArgument.operation ⟨2, 0⟩ = .ok o ∧ .argument ⟨1, 0⟩ 0 ∈ o.operands) ∧
      danglingArgument.valueType (.argument ⟨1, 0⟩ 0) = .error (.misuse .freed) ∧
      ∀ l, (danglingArgument.print (.operation ⟨2, 0⟩)).run l = .error (.misuse .freed) ∧
        (danglingArgument.printAs (.arc arcState) ⟨2, 0⟩).run l = .error (.misuse .freed) := by
  have standard := standard_danglingArgument
  have live : danglingArgument.operation ⟨2, 0⟩ = .ok _ := rfl
  refine ⟨standard, acyclic_of_free (by decide +kernel), standard.verify_state live rfl rfl,
    ⟨_, live, List.mem_cons_self⟩, rfl, fun l => ⟨rfl, rfl⟩⟩

end Context

end HardwareIR
