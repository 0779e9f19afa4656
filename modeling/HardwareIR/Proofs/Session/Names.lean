import HardwareIR.Proofs.Context.Names
import HardwareIR.Proofs.Session.Operands

/-! # Names of values in sessions

The values that occur in a context are the results of its operations, the arguments of its blocks,
and the operands.  In a session two of them can come to have one text: blocks are labelled without
regard to the names of other blocks, and an operand stays when the operation that it is a result of
is erased and another one takes the slot (`Context.occurring_namesakes`).
-/

namespace HardwareIR

namespace Context

/-- The values that live operations and blocks define, and those that live operations use. -/
inductive Occurs (ctx : Context) : Value → Prop where
  | result {op : OpRef} {o : Operation} {index : Nat} (live : ctx.operation op = .ok o)
      (there : index < o.resultTypes.length) : Occurs ctx (.result op index)
  | argument {b : BlockRef} {content : Block} {index : Nat} (live : ctx.block b = .ok content)
      (there : index < content.argumentTypes.length) : Occurs ctx (.argument b index)
  | operand {op : OpRef} {o : Operation} {value : Value} (live : ctx.operation op = .ok o)
      (used : value ∈ o.operands) : Occurs ctx value

/-! ## A label that is the name of another block -/

/-- Besides a module, a block that is called after the slot of the next one. -/
def labelledBlocks : Context :=
  standardModule.after [.newBlock (some { text := "block_3" }) [⟨0⟩], .newBlock none [⟨0⟩]]

theorem standard_labelledBlocks : labelledBlocks.Standard := by
  have typed : ∀ ty ∈ [(⟨0⟩ : TypeRef)], standardModule.types.Has ty := by
    intro ty mem
    obtain rfl := List.mem_singleton.mp mem
    exact ⟨.integer 8 .signless, rfl⟩
  exact .call (.newBlock none [⟨0⟩]) (.call (.newBlock _ [⟨0⟩]) standard_standardModule typed) typed

/-- The argument of the one block is a namesake of that of the other. -/
theorem printValue_eq_iff_labelled :
    labelledBlocks.printValue (.argument ⟨1, 0⟩ 0) = .ok "%block_3_arg0" ∧
      labelledBlocks.Namesakes (.argument ⟨1, 0⟩ 0) (.argument ⟨2, 0⟩ 0) := by
  have printed : labelledBlocks.printValue (.argument ⟨1, 0⟩ 0) = .ok "%block_3_arg0" := rfl
  exact ⟨printed, ((printValue_eq_iff printed).mp rfl).resolve_left (by decide)⟩

/-! ## An operand that outlives its definition -/

/-- Besides a module, a state that uses the result of another one, which is erased.  A third one
takes its slot. -/
def recycledResult : Context :=
  standardModule.after [.newCatalogued arcState [⟨0⟩] [],
    .newCatalogued arcState [] [.result ⟨1, 0⟩ 0], .erase ⟨1, 0⟩,
    .newCatalogued arcState [⟨0⟩] []]

theorem standard_recycledResult : recycledResult.Standard := by
  refine .call (.newCatalogued arcState [⟨0⟩] []) (Standard.after (.call
    (.newCatalogued arcState [⟨0⟩] []) standard_standardModule ?_)
    [.newCatalogued arcState [] [.result ⟨1, 0⟩ 0], .erase ⟨1, 0⟩] (by simp [Call.typeRefs])) ?_
  all_goals
    intro ty mem
    obtain rfl := List.mem_singleton.mp mem
    exact ⟨.integer 8 .signless, rfl⟩

/-- There are different values with one text, among those that are defined and among those that are
defined or used. -/
theorem occurring_namesakes :
    (labelledBlocks.Reachable ∧ labelledBlocks.Occurs (.argument ⟨1, 0⟩ 0) ∧
      labelledBlocks.Occurs (.argument ⟨2, 0⟩ 0) ∧
      labelledBlocks.printValue (.argument ⟨1, 0⟩ 0) = .ok "%block_3_arg0" ∧
      labelledBlocks.printValue (.argument ⟨2, 0⟩ 0) = .ok "%block_3_arg0" ∧
      Value.argument ⟨1, 0⟩ 0 ≠ .argument ⟨2, 0⟩ 0) ∧
    recycledResult.Reachable ∧ recycledResult.Occurs (.result ⟨1, 0⟩ 0) ∧
      recycledResult.Occurs (.result ⟨1, 1⟩ 0) ∧
      recycledResult.printValue (.result ⟨1, 0⟩ 0) = .ok "%op_2_res0" ∧
      recycledResult.printValue (.result ⟨1, 1⟩ 0) = .ok "%op_2_res0" ∧
      Value.result ⟨1, 0⟩ 0 ≠ .result ⟨1, 1⟩ 0 := by
  have first : labelledBlocks.block ⟨1, 0⟩ = .ok _ := rfl
  have second : labelledBlocks.block ⟨2, 0⟩ = .ok _ := rfl
  have user : recycledResult.operation ⟨2, 0⟩ = .ok _ := rfl
  have state : recycledResult.operation ⟨1, 1⟩ = .ok _ := rfl
  refine ⟨⟨standard_labelledBlocks.reachable, .argument first Nat.zero_lt_one,
    .argument second Nat.zero_lt_one, rfl, rfl, by decide⟩, standard_recycledResult.reachable,
    .operand user List.mem_cons_self, .result state Nat.zero_lt_one, rfl, rfl, by decide⟩

end Context

end HardwareIR
