import HardwareIR.Proofs.Context.Erased
import HardwareIR.Proofs.Session.Standard

/-! # Erasure in sessions

Contexts go on with every call, so that in a session a handle to a freed object is never good again,
whatever takes its slot.  Erasing an operation frees exactly what is nested in it, and that for the
rest of the session.
-/

namespace HardwareIR

open Relation (ReflTransGen)

namespace Context

variable {ctx ctx' : Context} {op : OpRef} {o : Operation}

/-! ## Insertions -/

theorem insert_later {point : InsertionPoint} (inserted : point.insert ctx op = .ok ctx') :
    Later ctx ctx' := by
  obtain ⟨place, -, linked⟩ := InsertionPoint.insert_eq_ok.mp inserted
  exact link_later linked

theorem place_later (ctx : Context) (point : InsertionPoint) (op : OpRef) :
    Later ctx (ctx.place point op).1 := by
  unfold place
  cases inserted : point.insert ctx op with
  | ok ctx' => exact insert_later inserted
  | error fault => exact .refl ctx

theorem carryOut_later (ctx : Context) (point : InsertionPoint) (type : TypeRef)
    (location : Location) (plan : Plan) :
    Later ctx (ctx.carryOut point type location plan).1 := by
  cases plan with
  | decline => exact .refl ctx
  | constant literalType literal =>
    exact (ctx.newConstant_later type literalType literal location).trans (place_later _ point _)
  | paramValue value =>
    exact (ctx.newParamValue_later type value location).trans (place_later _ point _)

theorem materialize_later (ctx : Context) (dialect : Identifier) (point : InsertionPoint)
    (value : Attribute) (type : TypeRef) (location : Location) :
    Later ctx (ctx.materialize dialect point value type location).context := by
  by_cases hooked : (ctx.registry.dialects.get? dialect).bind Dialect.materializer = some .arc
  · rw [materialize_of_hooked hooked]
    cases decided : (ctx.plan point value type).result with
    | ok plan =>
      rw [materializeArc_of_plan decided]
      exact ctx.carryOut_later point type location plan
    | error fault =>
      rw [materializeArc_of_error decided]
      exact .refl ctx
  · rw [materialize_of_not_hooked hooked]
    exact .refl ctx

end Context

/-! ## Calls -/

namespace Call

open Context (Later)

variable {ctx : Context}

theorem edited_later {result : Except Fault Context}
    (later : ∀ ctx', result = .ok ctx' → Later ctx ctx') : Later ctx (edited ctx result).1 := by
  cases result with
  | ok ctx' => exact later ctx' rfl
  | error fault => exact .refl ctx

theorem newWithBodies_later (ctx : Context) (id : QualifiedName) (resultTypes : List TypeRef)
    (operands : List Value) (regionCount : Nat) (attributes : AttributeDict) :
    Later ctx
      (made ctx (ctx.newWithBodies id resultTypes operands regionCount attributes)).1 := by
  cases done : ctx.newWithBodies id resultTypes operands regionCount attributes with
  | ok new => exact Context.newWithBodies_later done
  | error fault => exact .refl ctx

/-- No call goes back to an earlier generation of a slot. -/
theorem run_later (ctx : Context) (call : Call) : Later ctx (call.run ctx).1 := by
  cases call with
  | newBlock label argumentTypes => exact ctx.newBlock_later label argumentTypes
  | newOperation id resultTypes operands regionCount =>
    exact ctx.newOperation_later id resultTypes operands regionCount _ _
  | newModule name =>
    rw [run, Context.newModule]
    exact newWithBodies_later ctx _ _ _ _ _
  | newHwModule name declarations =>
    rw [run, Context.newHwModule]
    exact newWithBodies_later ctx _ _ _ _ _
  | newConstant type literalType literal => exact ctx.newConstant_later type literalType literal _
  | newParamValue type value => exact ctx.newParamValue_later type value _
  | newCatalogued index resultTypes operands =>
    rw [run, Context.newCatalogued]
    exact newWithBodies_later ctx _ _ _ _ _
  | materialize dialect point value type location =>
    exact ctx.materialize_later dialect point value type location
  | link l x place => exact edited_later fun _ linked => Context.link_later linked
  | unlink l x =>
    show Later ctx (run ctx (unlink l x)).1
    rw [run]
    cases unlinked : ctx.unlink l x with
    | ok ctx' => exact Context.unlink_later unlinked
    | error fault => exact ctx.modifyLinks_later l x _
  | insert point op => exact edited_later fun _ inserted => Context.insert_later inserted
  | erase op => exact edited_later fun _ erased => Context.erase_later erased
  | setAttribute op key value =>
    refine edited_later fun ctx' set => ?_
    obtain ⟨o, -, same⟩ := Except.bind_eq_ok.mp set
    cases same
    exact ctx.modifyOperation_later op _
  | setLocation op location =>
    refine edited_later fun ctx' set => ?_
    obtain ⟨o, -, same⟩ := Except.bind_eq_ok.mp set
    cases same
    exact ctx.modifyOperation_later op _
  -- What is left does not touch the objects.
  | requestType _ | registerKind _ _ | install _ | registerBuiltin | registerHw | registerArc =>
    exact ⟨.refl _, .refl _, .refl _⟩

end Call

namespace Context

variable {ctx : Context} {op : OpRef} {o : Operation}

theorem after_later (ctx : Context) (calls : List Call) : Later ctx (ctx.after calls) := by
  induction calls generalizing ctx with
  | nil => exact .refl ctx
  | cons call calls ih => exact (call.run_later ctx).trans (ih _)

/-! ## Erasing -/

/-- Erasing a live operation works, frees exactly what is nested in it at any depth, and leaves
everything else as it is but for the gap, which it closes.  What is freed is never live again. -/
theorem erase_frees_nested (reachable : ctx.Reachable) (acyclic : ctx.Acyclic)
    (live : ctx.operation op = .ok o) :
    ∃ ctx', ctx.erase op = .ok ctx' ∧ Erased ctx ctx' op o ∧
      ∀ x, ReflTransGen ctx.Holds (.operation op) x → ∀ calls, ¬ (ctx'.after calls).Live x := by
  obtain ⟨ctx', erased, left, retired⟩ := reachable.sound.wellFormed.exists_erased acyclic live
  refine ⟨ctx', erased, left, fun x nested calls => ?_⟩
  exact ((retired x nested).later (ctx'.after_later calls)).not_live

/-- The body of an erased definition is stale, even when another block has its slot. -/
theorem erase_frees_nested_body :
    ∃ ctx', nestedModule.erase ⟨1, 0⟩ = .ok ctx' ∧ ctx'.members .ops ⟨0, 0⟩ = .ok [⟨2, 0⟩] ∧
      (ctx'.after [.newBlock none []]).Live (.block ⟨1, 1⟩) ∧
      ¬ (ctx'.after [.newBlock none []]).Live (.block ⟨1, 0⟩) := by
  have wf := standard_nestedModule.reachable.sound.wellFormed
  have body : nestedModule.Listed .blocks ⟨1, 0⟩ [⟨1, 0⟩] := wf.listed_of_members rfl
  have inside : ReflTransGen nestedModule.Holds (.operation ⟨1, 0⟩) (.block ⟨1, 0⟩) :=
    .tail (.single (.region rfl List.mem_cons_self)) (.block body List.mem_cons_self)
  have live : nestedModule.operation ⟨1, 0⟩ = .ok _ := rfl
  obtain ⟨ctx', erased, -, stale⟩ :=
    erase_frees_nested standard_nestedModule.reachable acyclic_nestedModule live
  have gone := stale _ inside [.newBlock none []]
  cases erased
  exact ⟨_, rfl, rfl, ⟨_, rfl⟩, gone⟩

end Context

end HardwareIR
