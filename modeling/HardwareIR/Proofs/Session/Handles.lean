import HardwareIR.Proofs.Context.Makings
import HardwareIR.Proofs.Session.Erasure
import HardwareIR.Proofs.Session.History
import HardwareIR.Proofs.Session.Materialization

/-! # Handles in sessions

A call allocates the object that it returns, with everything that is in it, and an erasure frees the
operation and everything that is in it; no other call makes or frees objects, but for a constant
that is made and cannot be inserted (`Call.run_changes`).
-/

namespace HardwareIR

open Relation (ReflTransGen)

/-- The object that an answer gives out. -/
def Answer.object? : Answer → Option Object
  | .object x => some x
  | .constant op => op.map .operation
  | .done | .type _ | .dialect _ => none

namespace Call

open Context (Changes)

/-- Can the call give out an object? -/
def makes : Call → Bool
  | newBlock .. | newOperation .. | newModule _ | newHwModule .. | newConstant ..
  | newParamValue .. | newCatalogued .. | materialize .. => true
  | _ => false

def erases : Call → Bool
  | erase _ => true
  | _ => false

/-- A call makes an object. -/
inductive Allocates (x : Object) (ctx : Context) (call : Call) : Prop where
  /-- The object is given out, or is in the one that is. -/
  | returned {answer : Answer} {root : Object} (answered : (call.run ctx).2 = .ok answer)
      (given : answer.object? = some root) (nested : ReflTransGen (call.run ctx).1.Holds root x)
  /-- An integer constant that could not be inserted is there all the same. -/
  | stranded {dialect : Identifier} {point : InsertionPoint} {value : Attribute} {type : TypeRef}
      {location : Location} {literalType : TypeRef} {literal : Literal} {fault : Fault}
      (asked : call = materialize dialect point value type location)
      (failed : (call.run ctx).2 = .error fault)
      (decided : (ctx.plan point value type).result = .ok (.constant literalType literal))
      (same : x = .operation (ctx.newConstant type literalType literal location).1)

/-- A call frees an object: it erases a live operation that is the object or that it is in. -/
def Frees (x : Object) (ctx : Context) (call : Call) : Prop :=
  ∃ op, call = erase op ∧ ctx.Live (.operation op) ∧ ReflTransGen ctx.Holds (.operation op) x

variable {ctx : Context} {call : Call} {x root : Object} {answer : Answer} {op : OpRef}

/-! ## Answers -/

theorem allocates_iff (answered : (call.run ctx).2 = .ok answer)
    (given : answer.object? = some root) :
    call.Allocates x ctx ↔ ReflTransGen (call.run ctx).1.Holds root x := by
  constructor
  · rintro (⟨answered', given', nested⟩ | ⟨-, failed, -, -⟩)
    · cases answered.symm.trans answered'
      cases given.symm.trans given'
      exact nested
    · cases answered.symm.trans failed
  · exact fun nested => .returned answered given nested

theorem not_frees (other : call.erases = false) : ¬ call.Frees x ctx := by
  rintro ⟨op, rfl, -⟩
  cases other

theorem edited_object? {result : Except Fault Context}
    (answered : (edited ctx result).2 = .ok answer) : answer.object? = none := by
  cases result <;> cases answered
  rfl

theorem registered_object? {outcome : Registry × Report Unit}
    (answered : (registered ctx outcome).2 = .ok answer) : answer.object? = none := by
  obtain ⟨-, -, rfl⟩ := Except.map_eq_ok.mp answered
  rfl

theorem object?_of_not_makes (other : call.makes = false)
    (answered : (call.run ctx).2 = .ok answer) : answer.object? = none := by
  cases call with
  | newBlock | newOperation | newModule | newHwModule | newConstant | newParamValue
  | newCatalogued | materialize => cases other
  | link | insert | erase | setAttribute | setLocation => exact edited_object? answered
  | registerBuiltin | registerHw | registerArc => exact registered_object? answered
  | unlink l n =>
    simp only [run] at answered
    split at answered <;> cases answered
    rfl
  | registerKind kind d =>
    obtain ⟨d', -, rfl⟩ := Except.map_eq_ok.mp answered
    rfl
  | requestType type =>
    obtain rfl := Except.ok.inj answered
    rfl
  | install d =>
    obtain rfl := Except.ok.inj answered
    rfl

theorem not_allocates (other : call.makes = false) : ¬ call.Allocates x ctx := by
  rintro (⟨answered, given, -⟩ | ⟨rfl, -, -, -⟩)
  · cases (object?_of_not_makes other answered).symm.trans given
  · cases other

/-! ## What calls make and free -/

/-- What a call allocates is new, what it frees is gone for good, and all other objects are what
they were made as. -/
abbrev Accounted (ctx : Context) (call : Call) : Prop :=
  Changes ctx (call.run ctx).1 (call.Allocates · ctx) (call.Frees · ctx)

/-- A call that gives out an object makes what is in it. -/
theorem changes_of_returned (answered : (call.run ctx).2 = .ok answer)
    (given : answer.object? = some root) (other : call.erases = false)
    (changes : Changes ctx (call.run ctx).1 (ReflTransGen (call.run ctx).1.Holds root)
      (fun _ => False)) : call.Accounted ctx :=
  changes.congr (fun _ => allocates_iff answered given) fun _ =>
    iff_of_false (not_frees other) not_false

/-- A call that gives out nothing and keeps all objects changes nothing. -/
theorem changes_of_kept (kept : ∀ x, (call.run ctx).1.makings x = ctx.makings x)
    (nothing : call.makes = false) (other : call.erases = false) : call.Accounted ctx :=
  Context.changes_of_same kept (fun _ => not_allocates nothing) fun _ => not_frees other

theorem edited_makings {result : Except Fault Context}
    (same : ∀ ctx', result = .ok ctx' → ctx'.makings x = ctx.makings x) :
    (edited ctx result).1.makings x = ctx.makings x := by
  cases result with
  | ok ctx' => exact same ctx' rfl
  | error fault => rfl

theorem changes_of_newWithBodies (wf : ctx.WellFormed) {id : QualifiedName}
    {resultTypes : List TypeRef} {operands : List Value} {regionCount : Nat}
    {attributes : AttributeDict}
    (runs : call.run ctx =
      made ctx (ctx.newWithBodies id resultTypes operands regionCount attributes))
    (other : call.erases = false) : call.Accounted ctx := by
  obtain ⟨ctx', done, -, -⟩ := wf.newWithBodies id resultTypes operands regionCount attributes
  rw [done] at runs
  refine changes_of_returned (by rw [runs]; rfl) rfl other ?_
  rw [runs]
  exact wf.newWithBodies_changes done

section Materialize

variable {between ctx' : Context} {o : Operation} {dialect : Identifier} {point : InsertionPoint}
  {value : Attribute} {type literalType : TypeRef} {literal : Literal} {location : Location}
  {fault : Fault}

/-- A new operation that is inserted is given out. -/
theorem changes_of_inserted (wf : ctx.WellFormed) (added : Context.OperationAdded ctx between op o)
    (plain : o.regions = []) (inserted : point.insert between op = .ok ctx')
    (runs : (materialize dialect point value type location).run ctx =
      (ctx', .ok (.constant (some op)))) :
    (materialize dialect point value type location).Accounted ctx := by
  obtain ⟨place, -, linked⟩ := InsertionPoint.insert_eq_ok.mp inserted
  have same := Context.link_sameContents linked
  have regions : ctx'.regionsOf op = .ok [] := by
    rw [same.regionsOf, Context.regionsOf_of_operation added.live, plain]
  have given : (Answer.constant (some op)).object? = some (.operation op) := rfl
  refine changes_of_returned (by rw [runs]) given rfl ?_
  rw [runs]
  refine (added.changes_of_plain plain wf same).congr (fun x => ?_) fun _ => Iff.rfl
  exact Context.below_iff_of_plain regions

/-- A new constant that cannot be inserted is there. -/
theorem changes_of_stranded (wf : ctx.WellFormed)
    (decided : (ctx.plan point value type).result = .ok (.constant literalType literal))
    (runs : (materialize dialect point value type location).run ctx =
      ((ctx.newConstant type literalType literal location).2, .error fault)) :
    (materialize dialect point value type location).Accounted ctx := by
  have added := ctx.newConstant_added type literalType literal location
  rw [Accounted, runs]
  refine (added.changes_of_plain rfl wf (.refl _)).congr (fun x => ?_) fun _ =>
    iff_of_false (not_frees rfl) not_false
  constructor
  · rintro (⟨answered, -, -⟩ | ⟨asked, -, decided', same⟩)
    · cases congrArg Prod.snd runs ▸ answered
    · cases asked
      cases decided.symm.trans decided'
      exact same
  · exact .stranded rfl (congrArg Prod.snd runs) decided

theorem changes_of_declined
    (runs : (materialize dialect point value type location).run ctx = (ctx, .ok (.constant none))) :
    (materialize dialect point value type location).Accounted ctx := by
  refine Context.changes_of_same (fun x => by rw [runs]) ?_ fun _ => not_frees rfl
  rintro x (⟨answered, given, -⟩ | ⟨-, failed, -, -⟩)
  · cases (congrArg Prod.snd runs).symm.trans answered
    cases given
  · cases (congrArg Prod.snd runs).symm.trans failed

/-- A materialization that fails before it has decided makes nothing. -/
theorem changes_of_undecided (undecided : (ctx.plan point value type).result = .error fault)
    (runs : (materialize dialect point value type location).run ctx = (ctx, .error fault)) :
    (materialize dialect point value type location).Accounted ctx := by
  refine Context.changes_of_same (fun x => by rw [runs]) ?_ fun _ => not_frees rfl
  rintro x (⟨answered, -, -⟩ | ⟨asked, -, decided, -⟩)
  · cases (congrArg Prod.snd runs).symm.trans answered
  · cases asked
    cases undecided.symm.trans decided

theorem materialize_changes (wf : ctx.WellFormed) (dialect : Identifier) (point : InsertionPoint)
    (value : Attribute) (type : TypeRef) (location : Location) :
    (materialize dialect point value type location).Accounted ctx := by
  have runs : (materialize dialect point value type location).run ctx =
      ((ctx.materialize dialect point value type location).context,
        (ctx.materialize dialect point value type location).outcome.result.map .constant) := rfl
  by_cases hooked : (ctx.registry.dialects.get? dialect).bind Dialect.materializer = some .arc
  · rw [Context.materialize_of_hooked hooked] at runs
    cases decided : (ctx.plan point value type).result with
    | error fault =>
      rw [Context.materializeArc_of_error decided] at runs
      exact changes_of_undecided decided runs
    | ok plan =>
      rw [Context.materializeArc_of_plan decided] at runs
      cases plan with
      | decline => exact changes_of_declined runs
      | constant literalType literal =>
        have added := ctx.newConstant_added type literalType literal location
        simp only [Context.carryOut, Context.place] at runs
        cases inserted : point.insert (ctx.newConstant type literalType literal location).2
            (ctx.newConstant type literalType literal location).1 with
        | ok ctx' =>
          rw [inserted] at runs
          exact changes_of_inserted wf added rfl inserted runs
        | error fault =>
          rw [inserted] at runs
          exact changes_of_stranded wf decided runs
      | paramValue value' =>
        have added := ctx.newParamValue_added type value' location
        -- The search for a module has looked at the block, so that there is no failure here.
        obtain ⟨b, block, decidedIn⟩ := Context.block_of_plan decided (by simp)
        obtain ⟨-, hwModule, ⟨start, owner, -⟩, -⟩ := Context.planIn_eq_paramValue decidedIn
        obtain ⟨content, live, -⟩ := Except.bind_eq_ok.mp owner
        obtain ⟨ctx', inserted⟩ := wf.exists_insert_added added block ⟨content, live⟩
        simp only [Context.carryOut, Context.place] at runs
        rw [inserted] at runs
        exact changes_of_inserted wf added rfl inserted runs
  · rw [Context.materialize_of_not_hooked hooked] at runs
    exact changes_of_declined runs

end Materialize

/-- All that a call does to objects is to allocate and to free. -/
theorem run_changes (wf : ctx.WellFormed) (call : Call) : call.Accounted ctx := by
  cases call with
  | newBlock label argumentTypes =>
    exact changes_of_returned rfl rfl rfl (wf.newBlock_changes label argumentTypes)
  | newOperation id resultTypes operands regionCount =>
    exact changes_of_returned rfl rfl rfl (wf.newOperation_changes id resultTypes operands _ _ _)
  | newModule name => exact changes_of_newWithBodies wf (by rw [run, Context.newModule]) rfl
  | newHwModule name declarations =>
    exact changes_of_newWithBodies wf (by rw [run, Context.newHwModule]) rfl
  | newConstant type literalType literal =>
    have added := ctx.newConstant_added type literalType literal .unknown
    exact changes_of_returned rfl rfl rfl
      (added.changes wf ((wf.of_grown added.grown).bodied_self _))
  | newParamValue type value =>
    have added := ctx.newParamValue_added type value .unknown
    exact changes_of_returned rfl rfl rfl
      (added.changes wf ((wf.of_grown added.grown).bodied_self _))
  | newCatalogued index resultTypes operands =>
    exact changes_of_newWithBodies wf (by rw [run, Context.newCatalogued]) rfl
  | materialize dialect point value type location =>
    exact materialize_changes wf dialect point value type location
  | link l n place =>
    refine changes_of_kept (fun x => edited_makings fun _ linked => ?_) rfl rfl
    exact (Context.link_sameContents linked).makings x
  | unlink l n =>
    refine changes_of_kept (fun x => ?_) rfl rfl
    simp only [run]
    split
    next unlinked => exact (Context.unlink_sameContents unlinked).makings x
    next => exact (ctx.modifyLinks_sameContents l n _).makings x
  | insert point op =>
    refine changes_of_kept (fun x => edited_makings fun _ inserted => ?_) rfl rfl
    obtain ⟨place, -, linked⟩ := InsertionPoint.insert_eq_ok.mp inserted
    exact (Context.link_sameContents linked).makings x
  | erase op =>
    cases live : ctx.operation op with
    | ok o =>
      obtain ⟨ctx', erased, changes⟩ := wf.erase_changes live
      have runs : (erase op).run ctx = (ctx', .ok .done) := by simp only [run, edited, erased]
      rw [Accounted, runs]
      refine changes.congr (fun x => iff_of_false (not_allocates rfl) not_false) fun x => ?_
      constructor
      · rintro ⟨op', same, -, nested⟩
        cases same
        exact nested
      · exact fun nested => ⟨op, rfl, ⟨o, live⟩, nested⟩
    | error fault =>
      have failed : ctx.erase op = .error fault := by
        simp [Context.erase, Context.isLinked, Context.links, live]
      refine Context.changes_of_same (fun x => edited_makings fun ctx' erased => ?_)
        (fun _ => not_allocates rfl) ?_
      · cases failed.symm.trans erased
      · rintro x ⟨op', same, ⟨o, live'⟩, -⟩
        cases same
        cases live.symm.trans live'
  | setAttribute op key value =>
    refine changes_of_kept (fun x => edited_makings fun _ set => ?_) rfl rfl
    obtain ⟨o, -, same⟩ := Except.bind_eq_ok.mp set
    cases same
    exact ctx.modifyOperation_makings op (by exact fun _ => rfl) x
  | setLocation op location =>
    refine changes_of_kept (fun x => edited_makings fun _ set => ?_) rfl rfl
    obtain ⟨o, -, same⟩ := Except.bind_eq_ok.mp set
    cases same
    exact ctx.modifyOperation_makings op (by exact fun _ => rfl) x
  -- What is left does not touch the objects.
  | requestType _ | registerKind _ _ | install _ | registerBuiltin | registerHw | registerArc =>
    exact changes_of_kept (fun _ => rfl) rfl rfl

end Call

end HardwareIR
