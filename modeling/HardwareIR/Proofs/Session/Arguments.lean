import HardwareIR.Proofs.Context.Printing
import HardwareIR.Proofs.Session.Environment

/-! # Arguments of blocks

A block keeps the arguments that it is made with.  Only a call that makes a block names types for
arguments, so that the types of all arguments are in the store.
-/

namespace HardwareIR

namespace Context

variable {ctx between ctx' : Context} {op : OpRef} {o : Operation}

/-- Every block has the arguments that it had before, or none. -/
def KeepsArguments (ctx ctx' : Context) : Prop :=
  ∀ b content', ctx'.block b = .ok content' → content'.argumentTypes = [] ∨
    ∃ content, ctx.block b = .ok content ∧ content'.argumentTypes = content.argumentTypes

/-! ## Changes of contexts -/

theorem KeepsArguments.refl (ctx : Context) : KeepsArguments ctx ctx :=
  fun _ content found => .inr ⟨content, found, rfl⟩

theorem KeepsArguments.trans (first : KeepsArguments ctx between)
    (second : KeepsArguments between ctx') : KeepsArguments ctx ctx' := by
  intro b content' found
  rcases second b content' found with none | ⟨content, found, same⟩
  · exact .inl none
  · rw [same]
    exact first b content found

theorem keepsArguments_of_blocks (same : ctx'.blocks = ctx.blocks) : KeepsArguments ctx ctx' := by
  intro b content' found
  refine .inr ⟨content', ?_, rfl⟩
  rw [block_eq_ok] at found ⊢
  rwa [same] at found

theorem SameContents.keepsArguments (same : SameContents ctx ctx') : KeepsArguments ctx ctx' := by
  intro b content' found
  have contents := same.block b
  rw [found, Except.map_ok] at contents
  obtain ⟨content, before, eq⟩ := Except.map_eq_ok.mp contents.symm
  exact .inr ⟨content, before, (congrArg Block.argumentTypes eq).symm⟩

theorem Freed.keepsArguments {xs : List Object} (gone : Freed ctx ctx' xs) :
    KeepsArguments ctx ctx' := by
  intro b content' found
  rw [gone.block, if_freed_eq_ok] at found
  exact .inr ⟨content', found.2, rfl⟩

theorem newBlock_keepsArguments (ctx : Context) (label : Option Identifier) :
    KeepsArguments ctx (ctx.newBlock label []).2 := by
  intro b content' found
  rw [block_newBlock] at found
  by_cases new : b = (ctx.newBlock label []).1
  · rw [if_pos new] at found
    cases found
    exact .inl rfl
  · rw [if_neg new] at found
    exact .inr ⟨content', found, rfl⟩

theorem addBodies_keepsArguments {rs : List RegionRef} (added : ctx.addBodies rs = .ok ctx') :
    KeepsArguments ctx ctx' := by
  induction rs generalizing ctx with
  | nil =>
    cases added
    exact .refl _
  | cons r rs ih =>
    obtain ⟨between, pushed, added⟩ := Except.bind_eq_ok.mp added
    have linked : (ctx.newBlock none []).2.link .blocks (ctx.newBlock none []).1 (.back r) =
        .ok between := pushed
    have first := (ctx.newBlock_keepsArguments none).trans (link_sameContents linked).keepsArguments
    exact first.trans (ih added)

theorem insert_keepsArguments {point : InsertionPoint}
    (inserted : point.insert ctx op = .ok ctx') : KeepsArguments ctx ctx' := by
  obtain ⟨place, -, linked⟩ := InsertionPoint.insert_eq_ok.mp inserted
  exact (link_sameContents linked).keepsArguments

theorem place_keepsArguments (ctx : Context) (point : InsertionPoint) (op : OpRef) :
    KeepsArguments ctx (ctx.place point op).1 := by
  unfold place
  cases inserted : point.insert ctx op with
  | ok ctx' => exact insert_keepsArguments inserted
  | error fault => exact .refl ctx

theorem materialize_keepsArguments (ctx : Context) (dialect : Identifier) (point : InsertionPoint)
    (value : Attribute) (type : TypeRef) (location : Location) :
    KeepsArguments ctx (ctx.materialize dialect point value type location).context := by
  by_cases hooked : (ctx.registry.dialects.get? dialect).bind Dialect.materializer = some .arc
  · rw [materialize_of_hooked hooked]
    cases decided : (ctx.plan point value type).result with
    | error fault =>
      rw [materializeArc_of_error decided]
      exact .refl ctx
    | ok plan =>
      rw [materializeArc_of_plan decided]
      cases makes : plan.operation? type location with
      | none =>
        rw [carryOut_of_none makes]
        exact .refl ctx
      | some o =>
        obtain ⟨op, between, added, -, same⟩ := ctx.exists_carryOut point makes
        rw [same]
        exact (keepsArguments_of_blocks added.blocks).trans (between.place_keepsArguments point op)
  · rw [materialize_of_not_hooked hooked]
    exact .refl ctx

/-- Blocks that are kept have arguments with known types if types are kept. -/
theorem ArgumentsInterned.of_keeps (interned : ctx.ArgumentsInterned)
    (keeps : KeepsArguments ctx ctx') (types : ctx'.types = ctx.types) :
    ctx'.ArgumentsInterned := by
  intro b content' found ty mem
  rw [types]
  rcases keeps b content' found with none | ⟨content, before, same⟩
  · rw [none] at mem
    cases mem
  · exact interned b content before ty (same ▸ mem)

end Context

/-! ## Calls -/

namespace Call

open Context (KeepsArguments)

variable {ctx : Context}

theorem edited_keepsArguments {result : Except Fault Context}
    (keeps : ∀ ctx', result = .ok ctx' → KeepsArguments ctx ctx') :
    KeepsArguments ctx (edited ctx result).1 := by
  cases result with
  | ok ctx' => exact keeps ctx' rfl
  | error fault => exact .refl ctx

theorem newWithBodies_keepsArguments (ctx : Context) (id : QualifiedName)
    (resultTypes : List TypeRef) (operands : List Value) (regionCount : Nat)
    (attributes : AttributeDict) :
    KeepsArguments ctx
      (made ctx (ctx.newWithBodies id resultTypes operands regionCount attributes)).1 := by
  cases result : ctx.newWithBodies id resultTypes operands regionCount attributes with
  | error fault => exact .refl ctx
  | ok outcome =>
    obtain ⟨o, -, result⟩ := Except.bind_eq_ok.mp result
    obtain ⟨between, bodies, same⟩ := Except.bind_eq_ok.mp result
    cases same
    obtain ⟨_, -, added⟩ :=
      ctx.newOperation_added id resultTypes operands regionCount attributes .unknown
    exact (Context.keepsArguments_of_blocks added.blocks).trans
      (Context.addBodies_keepsArguments bodies)

/-- A call that does not make a block for itself keeps the arguments of all blocks. -/
theorem run_keepsArguments (call : Call)
    (other : ∀ label argumentTypes, call ≠ newBlock label argumentTypes) :
    KeepsArguments ctx (call.run ctx).1 := by
  cases call with
  | newBlock label argumentTypes => exact absurd rfl (other label argumentTypes)
  | newOperation id resultTypes operands regionCount =>
    obtain ⟨_, -, added⟩ := ctx.newOperation_added id resultTypes operands regionCount ∅ .unknown
    exact Context.keepsArguments_of_blocks added.blocks
  | newModule name =>
    rw [run, Context.newModule]
    exact newWithBodies_keepsArguments ctx _ _ _ _ _
  | newHwModule name declarations =>
    rw [run, Context.newHwModule]
    exact newWithBodies_keepsArguments ctx _ _ _ _ _
  | newConstant type literalType literal =>
    exact Context.keepsArguments_of_blocks
      (ctx.newConstant_added type literalType literal .unknown).blocks
  | newParamValue type value =>
    exact Context.keepsArguments_of_blocks (ctx.newParamValue_added type value .unknown).blocks
  | newCatalogued index resultTypes operands =>
    rw [run, Context.newCatalogued]
    exact newWithBodies_keepsArguments ctx _ _ _ _ _
  | materialize dialect point value type location =>
    exact ctx.materialize_keepsArguments dialect point value type location
  | link l x place =>
    exact edited_keepsArguments fun _ linked => (Context.link_sameContents linked).keepsArguments
  | unlink l x =>
    show KeepsArguments ctx (run ctx (unlink l x)).1
    rw [run]
    cases unlinked : ctx.unlink l x with
    | ok ctx' => exact (Context.unlink_sameContents unlinked).keepsArguments
    | error fault => exact (ctx.modifyLinks_sameContents l x _).keepsArguments
  | insert point op =>
    exact edited_keepsArguments fun _ inserted => Context.insert_keepsArguments inserted
  | erase op =>
    refine edited_keepsArguments fun ctx' erased => ?_
    obtain ⟨between, xs, same, gone⟩ := Context.erase_frame erased
    exact same.keepsArguments.trans gone.keepsArguments
  | setAttribute op key value =>
    refine edited_keepsArguments fun ctx' set => ?_
    obtain ⟨o, -, same⟩ := Except.bind_eq_ok.mp set
    cases same
    exact Context.keepsArguments_of_blocks rfl
  | setLocation op location =>
    refine edited_keepsArguments fun ctx' set => ?_
    obtain ⟨o, -, same⟩ := Except.bind_eq_ok.mp set
    cases same
    exact Context.keepsArguments_of_blocks rfl
  -- What is left does not touch the objects.
  | requestType _ | registerKind _ _ | install _ | registerBuiltin | registerHw | registerArc =>
    exact Context.keepsArguments_of_blocks rfl

theorem run_argumentsInterned (wf : ctx.WellFormed) (interned : ctx.ArgumentsInterned)
    (call : Call) (has : ∀ ty ∈ call.typeRefs, ctx.types.Has ty) :
    (call.run ctx).1.ArgumentsInterned := by
  have types := (run_environment wf call).types
  cases call with
  | newBlock label argumentTypes =>
    intro b content found ty mem
    change ctx.types.Has ty
    change (ctx.newBlock label argumentTypes).2.block b = .ok content at found
    rw [Context.block_newBlock] at found
    by_cases new : b = (ctx.newBlock label argumentTypes).1
    · rw [if_pos new] at found
      cases found
      exact has ty mem
    · rw [if_neg new] at found
      exact interned b content found ty mem
  | requestType type =>
    intro b content found ty mem
    obtain ⟨t, known⟩ := interned b content found ty mem
    exact ⟨t, TypeStore.get_request known type⟩
  | _ => exact interned.of_keeps (run_keepsArguments _ nofun) types

end Call

theorem Context.Reachable.argumentsInterned {ctx : Context} (reachable : ctx.Reachable) :
    ctx.ArgumentsInterned := by
  induction reachable with
  | empty =>
    intro b content found
    cases found
  | call call reachable has ih => exact call.run_argumentsInterned reachable.sound.wellFormed ih has

end HardwareIR
