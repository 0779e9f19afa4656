import HardwareIR.Proofs.Session.Materialization
import HardwareIR.Proofs.Session.Registration

/-! # Standard dialects in any order

Calls that register standard dialects do on a context what the registrations do on its registry, and
change nothing else.  So standard dialects can be registered in any order and as often as one likes
(`Context.registrations_commute`).
-/

namespace HardwareIR

namespace Call

/-- The calls that register a standard dialect. -/
inductive RegistersStandard : Call → Prop where
  | builtin : RegistersStandard registerBuiltin
  | hw : RegistersStandard registerHw
  | arc : RegistersStandard registerArc

theorem RegistersStandard.exists_registration {call : Call} (registers : call.RegistersStandard) :
    ∃ x : Registration, x.Standard ∧ call = x.call := by
  cases registers with
  | builtin => exact ⟨.builtin, .builtin, rfl⟩
  | hw => exact ⟨.hw, .hw, rfl⟩
  | arc => exact ⟨.arc, .arc, rfl⟩

end Call

namespace Context

variable {ctx : Context} {call call' : Call}

/-- Registering standard dialects succeeds in every context, does nothing the second time, and can
be done in any order.  It changes nothing that is registered, and nor does installing a dialect. -/
theorem registrations_commute (ctx : Context) (registers : call.RegistersStandard)
    (registers' : call'.RegistersStandard) :
    (call.run ctx).2 = .ok .done ∧
      (call.run (call.run ctx).1).1 = (call.run ctx).1 ∧
      (call'.run (call.run ctx).1).1 = (call.run (call'.run ctx).1).1 ∧
      ctx.registry.Within (call.run ctx).1.registry ∧
      ∀ d, ctx.registry.Within ((Call.install d).run ctx).1.registry := by
  obtain ⟨x, standard, rfl⟩ := registers.exists_registration
  obtain ⟨x', standard', rfl⟩ := registers'.exists_registration
  obtain ⟨result, again, exchange, within⟩ :=
    Registration.standard_commute ctx.registry standard standard'
  simp only [Registration.run_call, result, again, exchange, true_and]
  exact ⟨rfl, within x, fun d => within (.install d)⟩

/-- An `arc` dialect of one's own, with a hook and nothing in it, where hardware modules were made
known for the sake of a dialect that was dropped. -/
def arcOccupied : Context :=
  Context.empty.after [.registerKind .hwModule (.empty StandardDialect.hw.name),
    .install arcHooked]

/-- Then registering `arc` and `hw` in either order leaves both as they are. -/
theorem registrations_commute_occupied :
    (Call.registerHw.run (Call.registerArc.run arcOccupied).1).1 =
        (Call.registerArc.run (Call.registerHw.run arcOccupied).1).1 ∧
      (Call.registerArc.run arcOccupied).1.registry.dialects.get? arcHooked.name =
        some arcHooked ∧
      (Call.registerArc.run arcOccupied).1.registry.kind? OpKind.hwModule.id =
        some .hwModule := by
  obtain ⟨-, -, exchange, within, -⟩ := registrations_commute arcOccupied .arc .hw
  exact ⟨exchange, within.dialects _ _ rfl, within.kinds _ _ rfl⟩

end Context

end HardwareIR
