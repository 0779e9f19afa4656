import HardwareIR.Proofs.Materialization.Log
import HardwareIR.Proofs.Materialization.Surroundings
import HardwareIR.Proofs.Session.Materialization

/-! # What a session logs about constants

Whenever a constant is asked for at a live point, one record besides traces tells what was decided:
which operation is made of it, or why none is (`Context.materializeArc_logs_once`).
-/

namespace HardwareIR

namespace Context

variable {ctx : Context} {point : InsertionPoint} {value : Attribute} {type : TypeRef} {plan : Plan}
  {o : Operation}

/-- What is planned at a live point is made. -/
theorem WellFormed.exists_made (wf : ctx.WellFormed) (live : point.Live ctx)
    (decided : (ctx.plan point value type).result = .ok plan) {location : Location}
    (makes : plan.operation? type location = some o) :
    ∃ op, (ctx.materializeArc point value type location).outcome.result = .ok (some op) ∧
      Inserted ctx (ctx.materializeArc point value type location).context point op o := by
  obtain ⟨op, between, added, plain, placed⟩ := ctx.exists_carryOut point makes
  obtain ⟨b, block, -⟩ := block_of_plan decided (by rintro rfl; cases makes)
  rcases wf.block?_of_live live with none | ⟨b', block', live'⟩
  · cases block.symm.trans none
  · obtain ⟨ctx', inserted⟩ := wf.exists_insert_added added block' live'
    rw [materializeArc_of_plan decided]
    simp only [placed, Context.place, inserted]
    exact ⟨op, rfl, wf.inserted_of_insert added plain inserted⟩

theorem materializeArc_decisions (decided : (ctx.plan point value type).result = .ok plan)
    (location : Location) :
    (ctx.materializeArc point value type location).outcome.decisions =
      (ctx.plan point value type).decisions := by
  rw [materializeArc_of_plan decided]
  rfl

/-- What is logged besides traces is one record, which announces the operation that is made, if one
is. -/
theorem materializeArc_logs_once (reachable : ctx.Reachable)
    (registered : (ctx.registry.kind? OpKind.hwModule.id).isSome) (acyclic : ctx.Acyclic)
    (live : point.Live ctx) (typed : ctx.types.Has type)
    (has : ∀ ty ∈ value.typeRefs, ctx.types.Has ty) (location : Location) :
    let m := ctx.materializeArc point value type location
    ∃ text record made, ctx.types.printAttribute value = .ok text ∧
      m.outcome.result = .ok made ∧
      m.outcome.log.filter (fun r => r.level ≠ .trace) = [record] ∧ record.level = .debug ∧
      match made with
      | some op => ∃ o kind, m.context.operation op = .ok o ∧ o.id = kind.id ∧
          (kind = .constant ∨ kind = .paramValue) ∧ record = announcement text kind
      | none => ∀ text' kind, record ≠ announcement text' kind := by
  have sound := reachable.sound
  obtain ⟨plan, decides⟩ := sound.exists_decides acyclic live value type
  have decided := sound.plan_of_decides acyclic registered typed has decides
  obtain ⟨text, record, printed, told, tells⟩ := plan_decisions decided
  have logged := (materializeArc_decisions decided location).trans told
  cases makes : plan.operation? type location with
  | none =>
    have result : (ctx.materializeArc point value type location).outcome.result = .ok none := by
      rw [materializeArc_of_plan decided, carryOut_of_none makes]
    exact ⟨text, record, none, printed, result, logged, tells.level_eq,
      tells.ne_announcement makes⟩
  | some o =>
    obtain ⟨op, result, inserted⟩ := sound.wellFormed.exists_made live decided makes
    obtain ⟨b, k, -, placed, -⟩ := inserted.live
    obtain ⟨kind, called, constant, announced⟩ := tells.announces makes
    exact ⟨text, record, some op, printed, result, logged, tells.level_eq, _, kind, placed, called,
      constant, announced⟩

/-- Behind two traces, a parameter of a module is announced. -/
theorem materializeArc_logs_once_parameter :
    let m := oneModule.materializeArc (.blockEnd ⟨0, 0⟩) wReference ⟨0⟩ .unknown
    m.outcome.log.length = 3 ∧ ∃ text kind, oneModule.types.printAttribute wReference = .ok text ∧
      m.outcome.log.filter (fun r => r.level ≠ .trace) = [announcement text kind] := by
  have typed : oneModule.types.Has ⟨0⟩ := ⟨.integer 8 .signless, rfl⟩
  have has : ∀ ty ∈ wReference.typeRefs, oneModule.types.Has ty := by
    intro ty mem
    obtain rfl := List.mem_singleton.mp mem
    exact typed
  have live : (InsertionPoint.blockEnd ⟨0, 0⟩).Live oneModule := ⟨_, rfl⟩
  obtain ⟨text, record, made, printed, result, logged, -, outcome⟩ :=
    materializeArc_logs_once reachable_oneModule rfl acyclic_oneModule live typed has .unknown
  cases result
  obtain ⟨o, kind, -, -, -, rfl⟩ := outcome
  exact ⟨rfl, text, kind, printed, logged⟩

end Context

end HardwareIR
