import HardwareIR.Proofs.Registry.Commutation
import HardwareIR.Proofs.Session.Sound

/-! # Types and dialects in sessions

The types of a context change only when a type is asked for, and what is known about dialects only
when something is registered.  Both evolve by themselves, whatever else happens in a session:
`Call.typesAfter` and `Call.registryAfter` say how, without a context.

The calls that register something are the registrations of registries without foreign hooks
(`Registration.call`), and on a context they do what these do on its registry.
-/

namespace HardwareIR

namespace Call

/-- The types after a call. -/
def typesAfter (types : TypeStore) : Call → TypeStore
  | requestType type => (types.request type).2
  | _ => types

/-- The registration that a call is. -/
def registration? : Call → Option Registration
  | registerKind kind dialect => some (.kind kind dialect)
  | install dialect => some (.install dialect)
  | registerBuiltin => some .builtin
  | registerHw => some .hw
  | registerArc => some .arc
  | _ => none

/-- What is known about dialects after a call. -/
def registryAfter (registry : Registry) (call : Call) : Registry :=
  match call.registration? with
  | some x => (x.run registry).1
  | none => registry

end Call

/-! ## Registrations as calls -/

namespace Registration

/-- The call that makes a registration. -/
def call : Registration → Call
  | kind k d => .registerKind k d
  | install d => .install d
  | builtin => .registerBuiltin
  | hw => .registerHw
  | arc => .registerArc

theorem registration?_eq_some_iff {call : Call} {x : Registration} :
    call.registration? = some x ↔ call = x.call := by
  constructor
  · intro found
    cases call <;> cases found <;> rfl
  · rintro rfl
    cases x <;> rfl

/-- What the call of a registration gives back. -/
def answer : Option Dialect → Answer
  | some d => .dialect d
  | none => .done

theorem run_call (x : Registration) (ctx : Context) :
    x.call.run ctx = ({ ctx with registry := (x.run ctx.registry).1 },
      (x.run ctx.registry).2.map answer) := by
  cases x with
  | kind k d => simp only [call, Call.run, run, Except.map_map, answer]
  | install d => rfl
  | builtin | hw | arc => simp only [call, Call.run, Call.registered, run, Except.map_map, answer]

end Registration

namespace Context

variable {ctx ctx' : Context}

/-- What the types are, and what is known about dialects. -/
structure Environment (ctx : Context) (types : TypeStore) (registry : Registry) : Prop where
  types : ctx.types = types
  registry : ctx.registry = registry

/-! ## Changes of neither -/

theorem Environment.refl (ctx : Context) : ctx.Environment ctx.types ctx.registry := ⟨rfl, rfl⟩

theorem Environment.trans {types : TypeStore} {registry : Registry}
    (first : ctx.Environment types registry) (second : ctx'.Environment ctx.types ctx.registry) :
    ctx'.Environment types registry :=
  ⟨second.types.trans first.types, second.registry.trans first.registry⟩

theorem SameContents.environment (same : SameContents ctx ctx') :
    ctx'.Environment ctx.types ctx.registry :=
  ⟨same.types, same.registry⟩

theorem OperationAdded.environment {op : OpRef} {o : Operation}
    (added : OperationAdded ctx ctx' op o) : ctx'.Environment ctx.types ctx.registry :=
  ⟨added.types, added.registry⟩

theorem newOperation_environment (ctx : Context) (id : QualifiedName) (resultTypes : List TypeRef)
    (operands : List Value) (regionCount : Nat) (attributes : AttributeDict) :
    (ctx.newOperation id resultTypes operands regionCount attributes).2.Environment ctx.types
      ctx.registry := by
  obtain ⟨_, -, added⟩ :=
    ctx.newOperation_added id resultTypes operands regionCount attributes .unknown
  exact added.environment

theorem insert_environment {point : InsertionPoint} {op : OpRef}
    (inserted : point.insert ctx op = .ok ctx') : ctx'.Environment ctx.types ctx.registry := by
  obtain ⟨place, -, linked⟩ := InsertionPoint.insert_eq_ok.mp inserted
  exact (link_sameContents linked).environment

theorem place_environment (ctx : Context) (point : InsertionPoint) (op : OpRef) :
    (ctx.place point op).1.Environment ctx.types ctx.registry := by
  unfold place
  cases inserted : point.insert ctx op with
  | ok ctx' => exact insert_environment inserted
  | error fault => exact .refl ctx

theorem materialize_environment (ctx : Context) (dialect : Identifier) (point : InsertionPoint)
    (value : Attribute) (type : TypeRef) (location : Location) :
    (ctx.materialize dialect point value type location).context.Environment ctx.types
      ctx.registry := by
  by_cases hooked : (ctx.registry.dialects.get? dialect).bind Dialect.materializer = some .arc
  · rw [materialize_of_hooked hooked]
    cases decided : (ctx.plan point value type).result with
    | error fault =>
      rw [materializeArc_of_error decided]
      exact .refl ctx
    | ok plan =>
      rw [materializeArc_of_plan decided]
      cases makes : plan.operation? type location with
      | none =>
        rw [carryOut_of_none makes]
        exact .refl ctx
      | some o =>
        obtain ⟨op, between, added, -, same⟩ := ctx.exists_carryOut point makes
        rw [same]
        exact added.environment.trans (between.place_environment point op)
  · rw [materialize_of_not_hooked hooked]
    exact .refl ctx

end Context

/-! ## Calls -/

namespace Call

variable {ctx : Context}

theorem edited_environment {result : Except Fault Context}
    (same : ∀ ctx', result = .ok ctx' → ctx'.Environment ctx.types ctx.registry) :
    (edited ctx result).1.Environment ctx.types ctx.registry := by
  cases result with
  | ok ctx' => exact same ctx' rfl
  | error fault => exact .refl ctx

theorem newWithBodies_environment (wf : ctx.WellFormed) {id : QualifiedName}
    {resultTypes : List TypeRef} {operands : List Value} {regionCount : Nat}
    {attributes : AttributeDict} :
    (made ctx (ctx.newWithBodies id resultTypes operands regionCount attributes)).1.Environment
      ctx.types ctx.registry := by
  obtain ⟨ctx', done, -, same⟩ := wf.newWithBodies id resultTypes operands regionCount attributes
  have first := ctx.newOperation_environment id resultTypes operands regionCount attributes
  rw [done]
  exact first.trans ⟨same.types, same.registry⟩

/-- What a call does to the types and to what is known about dialects. -/
theorem run_environment (wf : ctx.WellFormed) (call : Call) :
    (call.run ctx).1.Environment (call.typesAfter ctx.types)
      (call.registryAfter ctx.registry) := by
  cases call with
  | newBlock label argumentTypes => exact ⟨rfl, rfl⟩
  | newOperation id resultTypes operands regionCount =>
    exact ctx.newOperation_environment id resultTypes operands regionCount ∅
  | newModule name =>
    rw [run, Context.newModule]
    exact newWithBodies_environment wf
  | newHwModule name declarations =>
    rw [run, Context.newHwModule]
    exact newWithBodies_environment wf
  | newConstant type literalType literal =>
    exact (ctx.newConstant_added type literalType literal .unknown).environment
  | newParamValue type value => exact (ctx.newParamValue_added type value .unknown).environment
  | newCatalogued index resultTypes operands =>
    rw [run, Context.newCatalogued]
    exact newWithBodies_environment wf
  | materialize dialect point value type location =>
    exact ctx.materialize_environment dialect point value type location
  | link l x place =>
    exact edited_environment fun _ linked => (Context.link_sameContents linked).environment
  | unlink l x =>
    show (run ctx (unlink l x)).1.Environment ctx.types ctx.registry
    rw [run]
    cases unlinked : ctx.unlink l x with
    | ok ctx' => exact (Context.unlink_sameContents unlinked).environment
    | error fault =>
      -- An object that cannot be unlinked loses its links all the same.
      exact (ctx.modifyLinks_sameContents l x _).environment
  | insert point op =>
    exact edited_environment fun _ inserted => Context.insert_environment inserted
  | erase op =>
    refine edited_environment fun ctx' erased => ?_
    obtain ⟨between, xs, same, gone⟩ := Context.erase_frame erased
    exact same.environment.trans ⟨gone.types, gone.registry⟩
  | setAttribute op key value =>
    refine edited_environment fun ctx' set => ?_
    obtain ⟨o, -, same⟩ := Except.bind_eq_ok.mp set
    cases same
    exact ⟨rfl, rfl⟩
  | setLocation op location =>
    refine edited_environment fun ctx' set => ?_
    obtain ⟨o, -, same⟩ := Except.bind_eq_ok.mp set
    cases same
    exact ⟨rfl, rfl⟩
  | requestType type => exact ⟨rfl, rfl⟩
  | registerKind kind dialect => exact ⟨rfl, rfl⟩
  | install dialect => exact ⟨rfl, rfl⟩
  | registerBuiltin => exact ⟨rfl, rfl⟩
  | registerHw => exact ⟨rfl, rfl⟩
  | registerArc => exact ⟨rfl, rfl⟩

theorem registryAfter_of_stable {Q : Registry → Prop} (stable : Registry.Stable Q)
    {registry : Registry} (holds : Q registry) (call : Call) : Q (call.registryAfter registry) := by
  unfold registryAfter
  cases call.registration? with
  | some x => exact x.run_of_stable stable holds
  | none => exact holds

end Call

end HardwareIR
