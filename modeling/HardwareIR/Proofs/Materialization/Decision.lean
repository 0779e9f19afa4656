import HardwareIR.Proofs.Context.Enclosure
import HardwareIR.Proofs.Inserter

/-! # How it is decided what becomes of a constant

`Context.Decides` is the ordered list of rules: without a block there is nothing to do; an integer
literal that is wanted as an integer becomes a constant; what the innermost hardware module around
the block accepts becomes a parameter value; anything else is declined.

In a sound context exactly one plan is decided on, and it is the one that `Context.plan` comes up
with (`Context.Sound.exists_decides`, `Context.Sound.plan_of_decides`).
-/

namespace HardwareIR

namespace Context

variable {ctx : Context} {point : InsertionPoint} {value : Attribute} {type : TypeRef}
  {plan : Plan} {b : BlockRef} {found : Option OpRef}

/-! ## The rules -/

/-- An integer literal is wanted as an integer. -/
def WantsConstant (ctx : Context) (value : Attribute) (type : TypeRef) : Prop :=
  (∃ t, ctx.types.get type = .ok t ∧ t.isInteger = true) ∧
    ∃ literalType literal, value = .integer literalType literal

/-- What is decided about an attribute at an insertion point, where a value of type `type` is
wanted. -/
inductive Decides (ctx : Context) (point : InsertionPoint) (value : Attribute) (type : TypeRef) :
    Plan → Prop where
  | noBlock : point.block? ctx = .ok none → Decides ctx point value type .decline
  | constant {b : BlockRef} {literalType : TypeRef} {literal : Literal} :
      point.block? ctx = .ok (some b) → ctx.WantsConstant value type →
        value = .integer literalType literal →
        Decides ctx point value type (.constant literalType literal)
  | noModule {b : BlockRef} :
      point.block? ctx = .ok (some b) → ¬ ctx.WantsConstant value type →
        ctx.InnermostModule b none → Decides ctx point value type .decline
  | rejected {b : BlockRef} {hwModule : OpRef} :
      point.block? ctx = .ok (some b) → ¬ ctx.WantsConstant value type →
        ctx.InnermostModule b (some hwModule) → ¬ ctx.Accepts hwModule value →
        Decides ctx point value type .decline
  | paramValue {b : BlockRef} {hwModule : OpRef} :
      point.block? ctx = .ok (some b) → ¬ ctx.WantsConstant value type →
        ctx.InnermostModule b (some hwModule) → ctx.Accepts hwModule value →
        Decides ctx point value type (.paramValue value)

/-! ## Modules -/

theorem Sound.exists_innermostModule (sound : ctx.Sound) (acyclic : ctx.Acyclic)
    (live : ctx.Live (.block b)) : ∃ found, ctx.InnermostModule b found := by
  obtain ⟨content, live⟩ := live
  obtain ⟨start, ops, found, owner, -, -, inner⟩ := sound.wellFormed.innermost_around acyclic live
  exact ⟨found, start, owner, inner⟩

theorem Sound.enclosingHwModule_of_innermost (sound : ctx.Sound) (acyclic : ctx.Acyclic)
    (registered : (ctx.registry.kind? OpKind.hwModule.id).isSome)
    (inner : ctx.InnermostModule b found) : (ctx.enclosingHwModule b).result = .ok found := by
  obtain ⟨start, owner, inner⟩ := inner
  obtain ⟨content, live, -⟩ := Except.bind_eq_ok.mp owner
  obtain ⟨start', ops, found', owner', around, first, inner'⟩ :=
    sound.wellFormed.innermost_around acyclic live
  cases owner.symm.trans owner'
  cases inner.unique inner'
  rw [sound.wellFormed.enclosingHwModule_result, around, Except.bind_ok]
  exact sound.firstOfKind_of_innermost registered first inner

/-! ## The procedure -/

theorem plan_of_block (block : point.block? ctx = .ok (some b)) :
    (ctx.plan point value type).result = (ctx.planIn b value type).result := by
  rw [plan, Report.lift_bind block]

theorem Sound.plan_of_wanted (sound : ctx.Sound) (has : ∀ ty ∈ value.typeRefs, ctx.types.Has ty)
    (block : point.block? ctx = .ok (some b)) (wanted : ctx.WantsConstant value type)
    {literalType : TypeRef} {literal : Literal} (same : value = .integer literalType literal) :
    (ctx.plan point value type).result = .ok (.constant literalType literal) := by
  subst same
  obtain ⟨text, printed⟩ := sound.types.printAttribute_ok has
  obtain ⟨⟨t, typed, integer⟩, -⟩ := wanted
  rw [plan_of_block block, planIn, Report.lift_bind typed, integer]
  simp only
  rw [Report.lift_bind printed]
  rfl

theorem planIn_of_not_wanted {t : IRType} (typed : ctx.types.get type = .ok t)
    (other : ¬ ctx.WantsConstant value type) :
    (ctx.planIn b value type).result = (ctx.planParamValue b value).result := by
  rw [planIn, Report.lift_bind typed]
  split
  next literalType literal integer => exact absurd ⟨⟨t, typed, integer⟩, _, _, rfl⟩ other
  next => rfl

theorem Sound.planParamValue_of_innermost (sound : ctx.Sound) (acyclic : ctx.Acyclic)
    (registered : (ctx.registry.kind? OpKind.hwModule.id).isSome)
    (has : ∀ ty ∈ value.typeRefs, ctx.types.Has ty) (inner : ctx.InnermostModule b found) :
    ∃ plan, (ctx.planParamValue b value).result = .ok plan ∧
      match found with
      | none => plan = .decline
      | some hwModule =>
        ctx.Accepts hwModule value ∧ plan = .paramValue value ∨
          ¬ ctx.Accepts hwModule value ∧ plan = .decline := by
  obtain ⟨text, printed⟩ := sound.types.printAttribute_ok has
  have enclosing := sound.enclosingHwModule_of_innermost acyclic registered inner
  rw [planParamValue, Report.lift_bind printed, Report.bind_of_ok enclosing]
  cases found with
  | none => exact ⟨.decline, rfl, rfl⟩
  | some hwModule =>
    obtain ⟨start, -, inner⟩ := inner
    obtain ⟨o, live, -⟩ := inner.called
    obtain ⟨verdict, known, accepted⟩ := sound.acceptsParameter live has
    simp only
    rw [Report.bind_of_ok known]
    cases verdict with
    | true => exact ⟨.paramValue value, rfl, .inl ⟨accepted.mp rfl, rfl⟩⟩
    | false => exact ⟨.decline, rfl, .inr ⟨fun h => (by cases accepted.mpr h), rfl⟩⟩

/-- What is decided on is what the procedure comes up with. -/
theorem Sound.plan_of_decides (sound : ctx.Sound) (acyclic : ctx.Acyclic)
    (registered : (ctx.registry.kind? OpKind.hwModule.id).isSome) (typed : ctx.types.Has type)
    (has : ∀ ty ∈ value.typeRefs, ctx.types.Has ty) (decided : ctx.Decides point value type plan) :
    (ctx.plan point value type).result = .ok plan := by
  obtain ⟨t, typed⟩ := typed
  obtain ⟨text, printed⟩ := sound.types.printAttribute_ok has
  cases decided with
  | noBlock none =>
    rw [Context.plan, Report.lift_bind none]
    simp only
    rw [Report.lift_bind printed]
    rfl
  | constant block wanted same => exact sound.plan_of_wanted has block wanted same
  | noModule block other inner =>
    obtain ⟨plan, result, same⟩ :=
      sound.planParamValue_of_innermost acyclic registered has inner
    rw [plan_of_block block, planIn_of_not_wanted typed other, result, same]
  | rejected block other inner refused =>
    obtain ⟨plan, result, ⟨accepted, -⟩ | ⟨-, same⟩⟩ :=
      sound.planParamValue_of_innermost acyclic registered has inner
    · exact absurd accepted refused
    · rw [plan_of_block block, planIn_of_not_wanted typed other, result, same]
  | paramValue block other inner accepted =>
    obtain ⟨plan, result, ⟨-, same⟩ | ⟨refused, -⟩⟩ :=
      sound.planParamValue_of_innermost acyclic registered has inner
    · rw [plan_of_block block, planIn_of_not_wanted typed other, result, same]
    · exact absurd accepted refused

/-- Something is decided on at every live point. -/
theorem Sound.exists_decides (sound : ctx.Sound) (acyclic : ctx.Acyclic) (live : point.Live ctx)
    (value : Attribute) (type : TypeRef) : ∃ plan, ctx.Decides point value type plan := by
  rcases sound.wellFormed.block?_of_live live with none | ⟨b, block, live⟩
  · exact ⟨.decline, .noBlock none⟩
  · by_cases wanted : ctx.WantsConstant value type
    · obtain ⟨literalType, literal, same⟩ := wanted.2
      exact ⟨_, .constant block wanted same⟩
    · obtain ⟨found, inner⟩ := sound.exists_innermostModule acyclic live
      cases found with
      | none => exact ⟨.decline, .noModule block wanted inner⟩
      | some hwModule =>
        by_cases accepted : ctx.Accepts hwModule value
        · exact ⟨_, .paramValue block wanted inner accepted⟩
        · exact ⟨_, .rejected block wanted inner accepted⟩

/-! ## What a plan tells -/

/-- A plan to make something has a block for it, and is about the value. -/
theorem block_of_plan (decided : (ctx.plan point value type).result = .ok plan)
    (something : plan ≠ .decline) :
    ∃ b, point.block? ctx = .ok (some b) ∧ (ctx.planIn b value type).result = .ok plan := by
  obtain ⟨block, found, decided⟩ := Report.bind_eq_ok.mp decided
  cases block with
  | some b => exact ⟨b, found, decided⟩
  | none =>
    obtain ⟨text, -, decided⟩ := Report.bind_eq_ok.mp decided
    cases decided
    exact absurd rfl something

theorem enclosingHwModule_eq_some {hwModule : OpRef}
    (found : (ctx.enclosingHwModule b).result = .ok (some hwModule)) :
    ctx.InnermostModule b (some hwModule) := by
  obtain ⟨start, owner, found⟩ := Report.bind_eq_ok.mp found
  cases start with
  | none => cases found
  | some p =>
    obtain ⟨o, -, found⟩ := Report.bind_eq_ok.mp found
    obtain ⟨-, -, found⟩ := Report.bind_eq_ok.mp found
    obtain ⟨ops, around, found⟩ := Report.bind_eq_ok.mp found
    obtain ⟨first, called, found⟩ := Report.bind_eq_ok.mp found
    obtain ⟨start, owner', walk⟩ := Except.bind_eq_ok.mp around
    cases owner'.symm.trans owner
    have innermost := innermost_of_outward walk called
    cases first with
    | none => cases found
    | some op =>
      obtain ⟨kind, -, found⟩ := Report.bind_eq_ok.mp found
      by_cases same : kind = .hwModule
      · rw [if_pos same] at found
        cases found
        exact ⟨some p, owner, innermost⟩
      · rw [if_neg same] at found
        cases found

theorem accepts_of_acceptsParameter {hwModule : OpRef}
    (accepted : (ctx.acceptsParameter hwModule value).result = .ok true) :
    ctx.Accepts hwModule value := by
  obtain ⟨declarations, found, accepted⟩ := Report.bind_eq_ok.mp accepted
  exact ⟨declarations, found, Report.result_of_accepted accepted⟩

/-- What is planned as a parameter value is one in the innermost hardware module around. -/
theorem planIn_eq_paramValue {value' : Attribute}
    (decided : (ctx.planIn b value type).result = .ok (.paramValue value')) :
    value' = value ∧ ∃ hwModule, ctx.InnermostModule b (some hwModule) ∧
      ctx.Accepts hwModule value := by
  obtain ⟨t, -, decided⟩ := Report.bind_eq_ok.mp decided
  split at decided
  next =>
    obtain ⟨text, -, decided⟩ := Report.bind_eq_ok.mp decided
    cases decided
  next =>
    obtain ⟨text, -, decided⟩ := Report.bind_eq_ok.mp decided
    obtain ⟨found, enclosing, decided⟩ := Report.bind_eq_ok.mp decided
    cases found with
    | none => cases decided
    | some hwModule =>
      obtain ⟨verdict, known, decided⟩ := Report.bind_eq_ok.mp decided
      cases verdict with
      | false => cases decided
      | true =>
        cases decided
        exact ⟨rfl, hwModule, enclosingHwModule_eq_some enclosing,
          accepts_of_acceptsParameter known⟩

/-- What is planned as an integer constant is an integer literal that is wanted as an integer. -/
theorem planIn_eq_constant {literalType : TypeRef} {literal : Literal}
    (decided : (ctx.planIn b value type).result = .ok (.constant literalType literal)) :
    ctx.WantsConstant value type ∧ value = .integer literalType literal := by
  obtain ⟨t, typed, decided⟩ := Report.bind_eq_ok.mp decided
  split at decided
  next literalType' literal' integer _ =>
    obtain ⟨text, -, decided⟩ := Report.bind_eq_ok.mp decided
    cases decided
    exact ⟨⟨⟨t, typed, integer⟩, _, _, rfl⟩, rfl⟩
  next =>
    obtain ⟨text, -, decided⟩ := Report.bind_eq_ok.mp decided
    obtain ⟨found, -, decided⟩ := Report.bind_eq_ok.mp decided
    cases found with
    | none => cases decided
    | some hwModule =>
      obtain ⟨verdict, -, decided⟩ := Report.bind_eq_ok.mp decided
      cases verdict <;> cases decided

/-- Unless an integer constant is wanted, the block is looked at. -/
theorem wanted_or_live_of_planIn (decided : (ctx.planIn b value type).result = .ok plan) :
    ctx.WantsConstant value type ∨ ∃ content, ctx.block b = .ok content := by
  obtain ⟨t, typed, decided⟩ := Report.bind_eq_ok.mp decided
  split at decided
  next literalType literal integer _ => exact .inl ⟨⟨t, typed, integer⟩, _, _, rfl⟩
  next =>
    obtain ⟨text, -, decided⟩ := Report.bind_eq_ok.mp decided
    obtain ⟨found, enclosing, -⟩ := Report.bind_eq_ok.mp decided
    -- The search for a hardware module has looked at the block.
    obtain ⟨owner, around, -⟩ := Report.bind_eq_ok.mp enclosing
    obtain ⟨content, live, -⟩ := Except.bind_eq_ok.mp around
    exact .inr ⟨content, live⟩

end Context

end HardwareIR
