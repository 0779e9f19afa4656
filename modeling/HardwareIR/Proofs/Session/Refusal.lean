import HardwareIR.Proofs.Registry.Refusal
import HardwareIR.Proofs.Session.Commutation
import HardwareIR.Proofs.Session.History

/-! # Registrations that are refused in a session

Calls list operations and are refused like the registrations that they make.  So in a session, an
operation becomes known together with being listed by the dialect that it is registered with, or by
being refused by it (`Context.known_iff_listed_or_refused`).
-/

namespace HardwareIR

/-! ## Calls that list and calls that are refused -/

namespace Call

/-- A call lists an operation: with the dialect that it registers a kind with, or with a dialect
that it installs. -/
inductive Lists (id : QualifiedName) (ctx : Context) : Call → Prop where
  | kind {kind : OpKind} {d d' : Dialect} (called : kind.id = id)
      (taken : ((registerKind kind d).run ctx).2 = .ok (.dialect d'))
      (listed : d'.operations.contains id = true) : Lists id ctx (registerKind kind d)
  | standard {call : Call} {name : Identifier} {d : Dialect} (registers : call.RegistersStandard)
      (absent : ctx.registry.dialects.contains name = false)
      (installed : (call.run ctx).1.registry.dialects.get? name = some d)
      (listed : d.operations.contains id = true) : Lists id ctx call

/-- A call is refused by the dialect that it is to register an operation with. -/
inductive Refused (id : QualifiedName) (ctx : Context) : Call → Prop where
  | kind {kind : OpKind} {d : Dialect} (called : kind.id = id)
      (refused : ((registerKind kind d).run ctx).2 = .error (.misuse (.foreignName id d.name))) :
      Refused id ctx (registerKind kind d)

variable {call : Call} {ctx : Context} {id : QualifiedName} {x : Registration}

theorem registersStandard_call_iff : x.call.RegistersStandard ↔ x.Standard := by
  constructor
  · intro registers
    cases x with
    | kind | install => cases registers
    | builtin => exact .builtin
    | hw => exact .hw
    | arc => exact .arc
  · rintro (_ | _ | _)
    · exact .builtin
    · exact .hw
    · exact .arc

/-- Registering a kind by a call comes out as it does on the registry. -/
theorem registerKind_result (k : OpKind) (d : Dialect) (ctx : Context) :
    ((registerKind k d).run ctx).2 =
      ((Registration.kind k d).run ctx.registry).2.map Registration.answer :=
  congrArg Prod.snd (Registration.run_call (.kind k d) ctx)

/-- The call of a registration lists what the registration lists. -/
theorem lists_call_iff : x.call.Lists id ctx ↔ x.Lists id ctx.registry := by
  constructor
  · intro lists
    generalize made : x.call = call at lists
    cases lists with
    | kind called taken listed =>
      obtain rfl := Option.some.inj (Registration.registration?_eq_some_iff.mpr made.symm)
      rw [registerKind_result] at taken
      obtain ⟨given, taken, same⟩ := Except.map_eq_ok.mp taken
      cases given <;> cases same
      exact .kind called taken listed
    | standard registers absent installed listed =>
      subst made
      rw [Registration.run_call] at installed
      exact .standard (registersStandard_call_iff.mp registers) absent installed listed
  · intro lists
    cases lists with
    | kind called taken listed =>
      refine .kind called ?_ listed
      rw [registerKind_result, taken]
      rfl
    | standard standard absent installed listed =>
      refine .standard (registersStandard_call_iff.mpr standard) absent ?_ listed
      rw [Registration.run_call]
      exact installed

/-- The call of a registration is refused when the registration is. -/
theorem refused_call_iff : x.call.Refused id ctx ↔ x.Refused id ctx.registry := by
  constructor
  · intro refused
    generalize made : x.call = call at refused
    cases refused with
    | kind called failed =>
      obtain rfl := Option.some.inj (Registration.registration?_eq_some_iff.mpr made.symm)
      rw [registerKind_result] at failed
      exact .kind called (Except.map_eq_error.mp failed)
  · intro refused
    cases refused with
    | kind called failed =>
      refine .kind called ?_
      rw [registerKind_result, failed]
      rfl

/-- A call that registers nothing neither lists nor is refused. -/
theorem not_registers (other : call.registration? = none) :
    ¬ (call.Lists id ctx ∨ call.Refused id ctx) := by
  rintro (lists | refused)
  · cases lists with
    | kind => cases other
    | standard registers =>
      obtain ⟨x, -, rfl⟩ := registers.exists_registration
      cases other.symm.trans (Registration.registration?_eq_some_iff.mpr rfl)
  · cases refused
    cases other

/-- What is known stays known, and an operation that is new becomes known by being listed, or by
being refused. -/
theorem registryAfter_contains_iff (call : Call) :
    (call.registryAfter ctx.registry).known.contains id = true ↔
      ctx.registry.known.contains id = true ∨
        ctx.registry.known.contains id = false ∧ (call.Lists id ctx ∨ call.Refused id ctx) := by
  unfold registryAfter
  cases made : call.registration? with
  | none => simp [not_registers made]
  | some x =>
    obtain rfl := Registration.registration?_eq_some_iff.mp made
    rw [lists_call_iff, refused_call_iff]
    cases new : ctx.registry.known.contains id with
    | true => simpa using x.run_contains new
    | false => simpa using x.run_contains_iff new

end Call

/-! ## Sessions -/

namespace Context

/-- A registration is refused exactly if the kind is new and belongs to another dialect, and leaves
one trace then: the kind is known.  In a session, an operation becomes known only together with
being listed by the dialect that it is registered with, or by being refused. -/
theorem known_iff_listed_or_refused (ctx : Context) (kind : OpKind) (d : Dialect)
    (hash : Digest → UInt64) (calls : List Call) (id : QualifiedName) :
    (∀ fault, ((Call.registerKind kind d).run ctx).2 = .error fault ↔
      ctx.registry.known.contains kind.id = false ∧ kind.id.dialect ≠ d.name ∧
        fault = .misuse (.foreignName kind.id d.name)) ∧
    (∀ fault, ((Call.registerKind kind d).run ctx).2 = .error fault →
      ((Call.registerKind kind d).run ctx).1 =
        { ctx with registry :=
          { ctx.registry with known := ctx.registry.known.insert kind.id kind } }) ∧
    (((Context.empty hash).after calls).registry.known.contains id = true ↔
      Sometime (fun ctx call => ctx.registry.known.contains id = false ∧
        (call.Lists id ctx ∨ call.Refused id ctx)) (.empty hash) calls) := by
  have refused : ∀ fault, ((Call.registerKind kind d).run ctx).2 = .error fault ↔
      ctx.registry.known.contains kind.id = false ∧ kind.id.dialect ≠ d.name ∧
        fault = .misuse (.foreignName kind.id d.name) := by
    intro fault
    rw [← OpKind.register_eq_error_iff]
    exact Except.map_eq_error
  refine ⟨refused, fun fault failed => ?_, ?_⟩
  · obtain ⟨new, foreign, -⟩ := (refused fault).mp failed
    simp only [Call.run, OpKind.register_of_foreign new foreign]
  · rw [(empty_wellFormed hash).after_iff_sometime (Q := fun ctx =>
      ctx.registry.known.contains id = true) (P := fun ctx call =>
      ctx.registry.known.contains id = false ∧ (call.Lists id ctx ∨ call.Refused id ctx))]
    · exact or_iff_right (by exact Bool.false_ne_true)
    · intro ctx call wf
      rw [(Call.run_environment wf call).registry]
      exact call.registryAfter_contains_iff

/-- A dialect of one's own refuses integer constants, and they are known then. -/
theorem known_iff_listed_or_refused_constant :
    let refused := (Call.registerKind .constant (.empty { text := "x" })).run .empty
    refused.2 = .error (.misuse (.foreignName OpKind.constant.id { text := "x" })) ∧
      refused.1 = { Context.empty with registry :=
        { Registry.empty with known := (∅ : KnownKinds).insert OpKind.constant.id .constant } } ∧
      refused.1.registry.known.contains OpKind.constant.id = true := by
  intro refused
  obtain ⟨refusal, trace, known⟩ := known_iff_listed_or_refused .empty .constant
    (.empty { text := "x" }) Digest.coarseHash [.registerKind .constant (.empty { text := "x" })]
    OpKind.constant.id
  have failed := (refusal _).mpr ⟨rfl, by decide, rfl⟩
  exact ⟨failed, trace _ failed, known.mpr (.now ⟨rfl, .inr (.kind rfl failed)⟩)⟩

end Context

end HardwareIR
