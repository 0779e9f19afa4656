import HardwareIR.Proofs.Materialization.Effect

/-! # What is logged about a decision

On the way to a decision about a constant only traces are logged, of the search for a hardware
module and of the references that are resolved.  The decision itself is one record of its own
(`Context.plan_decisions`), which has a wording for each of the ways to decide (`Plan.Tells`).
-/

namespace HardwareIR

/-! ## Decisions in a log -/

namespace Report

variable {α β : Type}

/-- What a report logged besides traces. -/
def decisions (x : Report α) : List LogRecord :=
  x.log.filter fun r => r.level ≠ .trace

/-- Nothing but traces is logged. -/
def Silent (x : Report α) : Prop :=
  x.decisions = []

theorem decisions_bind {x : Report α} {a : α} (ok : x.result = .ok a) (next : α → Report β) :
    (x >>= next).decisions = x.decisions ++ (next a).decisions := by
  simp only [decisions, bind_log, ok, List.filter_append]

/-- Only what comes after a silent report tells. -/
theorem Silent.decisions_bind {x : Report α} (silent : x.Silent) {a : α} (ok : x.result = .ok a)
    (next : α → Report β) : (x >>= next).decisions = (next a).decisions := by
  rw [Report.decisions_bind ok, silent, List.nil_append]

theorem Silent.bind {x : Report α} {next : α → Report β} (first : x.Silent)
    (rest : ∀ a, (next a).Silent) : (x >>= next).Silent := by
  cases outcome : x.result with
  | ok a =>
    rw [Silent, first.decisions_bind outcome]
    exact rest a
  | error fault =>
    rw [Silent, decisions, bind_log, outcome, List.append_nil]
    exact first

theorem silent_lift (result : Except Fault α) : (result : Report α).Silent := rfl

theorem silent_pure (value : α) : (Pure.pure value : Report α).Silent := rfl

theorem silent_reject (error : Error) : (reject error : Report α).Silent := rfl

theorem silent_trace (text : String) : (emit .trace text).Silent := rfl

/-- A silent check tells why it failed, when it is asked whether it passed, and nothing else. -/
theorem Silent.decisions_accepted {x : Report Unit} (silent : x.Silent) {text : Error → String}
    {verdict : Bool} (known : (x.accepted text).result = .ok verdict) :
    (verdict = true → (x.accepted text).Silent) ∧
      (verdict = false → ∃ error, (x.accepted text).decisions = [⟨.debug, text error⟩]) := by
  unfold accepted at known ⊢
  cases outcome : x.result with
  | ok _ =>
    simp only [outcome] at known ⊢
    cases known
    exact ⟨fun _ => silent, nofun⟩
  | error fault =>
    simp only [outcome] at known ⊢
    cases fault with
    | rejected error =>
      cases known
      refine ⟨nofun, fun _ => ⟨error, ?_⟩⟩
      have nothing : x.log.filter (fun r => r.level ≠ .trace) = [] := silent
      rw [decisions, List.filter_append, nothing]
      rfl
    | misuse m => cases known

end Report

/-! ## Checks of parameter values -/

namespace ParameterScope

theorem silent_checkReference (scope : ParameterScope) (name : Identifier) (type : TypeRef) :
    (scope.checkReference name type).Silent := by
  unfold checkReference
  split
  · cases scope.find? name with
    | none => exact Report.silent_reject _
    | some d =>
      simp only
      split
      · exact Report.silent_trace _
      · exact (Report.silent_lift _).bind fun _ => (Report.silent_lift _).bind fun _ =>
          Report.silent_reject _
  · exact Report.silent_reject _

theorem silent_rejectValue (scope : ParameterScope) (value : Attribute) :
    (scope.rejectValue value).Silent :=
  (Report.silent_lift _).bind fun _ => Report.silent_reject _

end ParameterScope

namespace Attribute

mutual
/-- However many references are resolved, only traces are logged. -/
theorem silent_checkParameter (scope : ParameterScope) :
    ∀ value : Attribute, (value.checkParameter scope).Silent
  | .integer .. | .float _ | .string _ | .verbatim .. => Report.silent_pure ()
  | .paramExpr op operands _ => by
    rw [checkParameter]
    split
    · exact silent_checkParameters scope operands
    · exact Report.silent_reject _
  | .paramRef name ty => scope.silent_checkReference name ty
  | .type _ | .array _ | .paramDecl .. | .zeroCount _ => scope.silent_rejectValue _

theorem silent_checkParameters (scope : ParameterScope) :
    ∀ values : List Attribute, (checkParameters scope values).Silent
  | [] => Report.silent_pure ()
  | value :: rest =>
    (silent_checkParameter scope value).bind fun _ => silent_checkParameters scope rest
end

end Attribute

/-! ## Plans -/

/-- The record that announces an operation of a kind. -/
def announcement (text : String) (kind : OpKind) : LogRecord :=
  ⟨.debug, s!"Materializing {text} as {kind.id}"⟩

theorem announcement_constant (text : String) :
    announcement text .constant = ⟨.debug, s!"Materializing {text} as hw.constant"⟩ :=
  congrArg (LogRecord.mk .debug) (String.append_assoc ..)

theorem announcement_paramValue (text : String) :
    announcement text .paramValue = ⟨.debug, s!"Materializing {text} as hw.param.value"⟩ :=
  congrArg (LogRecord.mk .debug) (String.append_assoc ..)

/-- The record that tells a plan for an attribute with this text. -/
inductive Plan.Tells (text : String) : Plan → LogRecord → Prop where
  | noBlock : Tells text .decline ⟨.debug, s!"No insertion block, cannot materialize {text}"⟩
  | constant (literalType : TypeRef) (literal : Literal) :
      Tells text (.constant literalType literal) (announcement text .constant)
  | noModule : Tells text .decline ⟨.debug, s!"No enclosing hw.module for {text}"⟩
  | rejected (reason : String) :
      Tells text .decline ⟨.debug, s!"Not a valid parameter expression: {reason}"⟩
  | paramValue (value : Attribute) :
      Tells text (.paramValue value) (announcement text .paramValue)

namespace Plan.Tells

variable {text : String} {plan : Plan} {record : LogRecord} {type : TypeRef} {location : Location}
  {o : Operation}

theorem level_eq (tells : plan.Tells text record) : record.level = .debug := by
  cases tells <;> rfl

/-- The operation that is made is announced. -/
theorem announces (tells : plan.Tells text record)
    (makes : plan.operation? type location = some o) :
    ∃ kind, o.id = kind.id ∧ (kind = .constant ∨ kind = .paramValue) ∧
      record = announcement text kind := by
  cases tells with
  | noBlock | noModule | rejected reason => cases makes
  | constant literalType literal =>
    cases makes
    exact ⟨.constant, rfl, .inl rfl, rfl⟩
  | paramValue value =>
    cases makes
    exact ⟨.paramValue, rfl, .inr rfl, rfl⟩

/-- Where nothing is made, nothing is announced. -/
theorem ne_announcement (tells : plan.Tells text record)
    (nothing : plan.operation? type location = none) (text' : String) (kind : OpKind) :
    record ≠ announcement text' kind := by
  intro same
  have first := congrArg (fun r => r.text.toList.head?) same
  cases tells with
  | noBlock | noModule | rejected reason => simp [announcement, toString] at first
  | constant literalType literal => cases nothing
  | paramValue value => cases nothing

end Plan.Tells

namespace Context

variable {ctx : Context} {point : InsertionPoint} {value : Attribute} {type : TypeRef} {plan : Plan}
  {b : BlockRef}

theorem silent_enclosingHwModule (ctx : Context) (b : BlockRef) :
    (ctx.enclosingHwModule b).Silent := by
  refine (Report.silent_lift _).bind fun owner => ?_
  cases owner with
  | none => exact Report.silent_pure none
  | some p =>
    refine (Report.silent_lift _).bind fun o => (Report.silent_trace _).bind fun _ =>
      (Report.silent_lift _).bind fun ops => (Report.silent_lift _).bind fun found => ?_
    cases found with
    | none => exact Report.silent_pure none
    | some q => exact (Report.silent_lift _).bind fun _ => Report.silent_pure _

/-- Only why a value is not accepted is told. -/
theorem decisions_acceptsParameter {hwModule : OpRef} {verdict : Bool}
    (known : (ctx.acceptsParameter hwModule value).result = .ok verdict) :
    (verdict = true → (ctx.acceptsParameter hwModule value).Silent) ∧
      (verdict = false → ∃ reason : String, (ctx.acceptsParameter hwModule value).decisions =
        [⟨.debug, s!"Not a valid parameter expression: {reason}"⟩]) := by
  obtain ⟨declarations, found, checked⟩ := Report.bind_eq_ok.mp known
  obtain ⟨accepted, refused⟩ := (value.silent_checkParameter _).decisions_accepted checked
  have rest := (Report.silent_lift (ctx.parameters hwModule)).decisions_bind found
    fun declarations => (value.checkParameter (ctx.scope declarations .unknown)).accepted
      fun error => s!"Not a valid parameter expression: {error.cause.message}"
  refine ⟨fun passed => rest.trans (accepted passed), fun failed => ?_⟩
  obtain ⟨error, told⟩ := refused failed
  exact ⟨_, rest.trans told⟩

/-- One record tells what is planned about an attribute that is no literal for an integer. -/
theorem planParamValue_decisions (decided : (ctx.planParamValue b value).result = .ok plan) :
    ∃ text record, ctx.types.printAttribute value = .ok text ∧
      (ctx.planParamValue b value).decisions = [record] ∧ plan.Tells text record := by
  obtain ⟨text, printed, decided⟩ := Report.bind_eq_ok.mp decided
  obtain ⟨found, enclosing, decided⟩ := Report.bind_eq_ok.mp decided
  refine ⟨text, ?_⟩
  rw [planParamValue, (Report.silent_lift _).decisions_bind printed,
    (ctx.silent_enclosingHwModule b).decisions_bind enclosing]
  cases found with
  | none =>
    cases decided
    exact ⟨_, printed, rfl, .noModule⟩
  | some hwModule =>
    obtain ⟨verdict, known, decided⟩ := Report.bind_eq_ok.mp decided
    obtain ⟨accepted, refused⟩ := decisions_acceptsParameter known
    simp only
    cases verdict with
    | true =>
      cases decided
      rw [(accepted rfl).decisions_bind known]
      exact ⟨_, printed, rfl, announcement_paramValue text ▸ .paramValue value⟩
    | false =>
      cases decided
      obtain ⟨reason, told⟩ := refused rfl
      rw [Report.decisions_bind known, told]
      exact ⟨_, printed, rfl, .rejected reason⟩

/-- One record tells what is planned. -/
theorem plan_decisions (decided : (ctx.plan point value type).result = .ok plan) :
    ∃ text record, ctx.types.printAttribute value = .ok text ∧
      (ctx.plan point value type).decisions = [record] ∧ plan.Tells text record := by
  obtain ⟨block, found, decided⟩ := Report.bind_eq_ok.mp decided
  rw [Context.plan, (Report.silent_lift _).decisions_bind found]
  cases block with
  | none =>
    obtain ⟨text, printed, decided⟩ := Report.bind_eq_ok.mp decided
    cases decided
    simp only
    rw [(Report.silent_lift _).decisions_bind printed]
    exact ⟨text, _, printed, rfl, .noBlock⟩
  | some b =>
    obtain ⟨t, typed, decided⟩ := Report.bind_eq_ok.mp decided
    simp only
    rw [planIn, (Report.silent_lift _).decisions_bind typed]
    split at decided
    next =>
      obtain ⟨text, printed, decided⟩ := Report.bind_eq_ok.mp decided
      cases decided
      rw [(Report.silent_lift _).decisions_bind printed]
      exact ⟨text, _, printed, rfl, announcement_constant text ▸ .constant _ _⟩
    next => exact planParamValue_decisions decided

end Context

end HardwareIR
