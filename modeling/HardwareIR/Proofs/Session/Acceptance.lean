import HardwareIR.Proofs.Context.Verdict
import HardwareIR.Proofs.Parameter.Substitution
import HardwareIR.Proofs.Session.Materialization

/-! # What the check of parameter values goes on accepting

What is accepted stays accepted where more is declared, where references are allowed that were not
before, and where a part of it is replaced by something else that is accepted.  In particular the
default values of a hardware module that passes are parameter values in every hardware module.
-/

namespace HardwareIR

namespace Context

variable {ctx : Context} {op : OpRef} {o : Operation} {value : Attribute}

/-- A value is the default of a parameter of a hardware module that passes. -/
def VerifiedDefault (ctx : Context) (value : Attribute) : Prop :=
  ∃ op o declarations d, ctx.operation op = .ok o ∧ o.id = OpKind.hwModule.id ∧
    (ctx.verify (.operation op)).result = .ok () ∧ ctx.parameters op = .ok declarations ∧
    d ∈ declarations ∧ d.default? = some value

theorem Sound.closed_of_verifiedDefault (sound : ctx.Sound) (default : ctx.VerifiedDefault value) :
    ParameterValue [] false value := by
  obtain ⟨op, o, declarations, d, live, called, verified, found, mem, stands⟩ := default
  obtain ⟨⟨kind, known, -, passed⟩, -⟩ :=
    (sound.wellFormed.verify_eq_ok_iff_of_live live).mp verified
  obtain rfl : kind = .hwModule := OpKind.eq_of_id ((sound.id_of_kindOf live known).trans called)
  obtain ⟨declarations', stored, closed⟩ := (sound.verifyHwModule_eq_ok_iff live).mp passed
  cases found.symm.trans (parameters_of_stored live stored)
  exact closed d mem value stands

/-- What is a value without references is accepted in every hardware module. -/
theorem acceptsParameter_of_closed (closed : ParameterValue [] false value)
    (live : ctx.operation op = .ok o) : (ctx.acceptsParameter op value).result = .ok true := by
  obtain ⟨declarations, found⟩ := exists_parameters live
  have accepts : (ctx.scope declarations .unknown).Accepts value :=
    ParameterScope.accepts_iff.mpr (closed.of_closed declarations true)
  obtain ⟨verdict, known, passed⟩ := (Report.sensible_of_ok accepts).accepted fun error =>
    s!"Not a valid parameter expression: {error.cause.message}"
  rw [acceptsParameter, Report.lift_bind found]
  exact known.trans (congrArg Except.ok (passed.mpr accepts))

/-- What is accepted is accepted where more is declared.  What is accepted without references is
accepted everywhere, so that default values are accepted in every hardware module.  All parts of
what is accepted can be replaced by what is accepted in the same scope. -/
theorem acceptance_kept (value : Attribute) :
    (∀ (scope : ParameterScope) (more : List ParamDecl), scope.Accepts value →
      { scope with declarations := scope.declarations ++ more }.Accepts value) ∧
    (∀ scope : ParameterScope, scope.allowReferences = false → scope.Accepts value →
      ∀ declarations allowReferences, { scope with declarations, allowReferences }.Accepts value) ∧
    (∀ ctx : Context, ctx.Reachable → ctx.VerifiedDefault value →
      ∀ (ctx' : Context) (hwModule : OpRef), ctx'.Live (.operation hwModule) →
        (ctx'.acceptsParameter hwModule value).result = .ok true) ∧
    (∀ part ∈ value.parts, ∃ path, value.partAt? path = some part) ∧
    ∀ path part new, value.partAt? path = some part →
      (value.replaceAt path new).partAt? path = some new ∧
      ∀ scope : ParameterScope, scope.Accepts value → scope.Accepts new →
        scope.Accepts (value.replaceAt path new) := by
  simp only [ParameterScope.accepts_iff]
  refine ⟨fun scope more valid => valid.append more, ?_, ?_, ?_, ?_⟩
  · intro scope forbidden closed declarations allowReferences
    rw [forbidden] at closed
    exact closed.of_closed declarations allowReferences
  · rintro ctx reachable default ctx' hwModule ⟨o, live⟩
    exact acceptsParameter_of_closed (reachable.sound.closed_of_verifiedDefault default) live
  · exact fun part mem => Attribute.exists_partAt? mem
  · intro path part new found
    exact ⟨Attribute.partAt?_replaceAt found, fun scope valid valid' => valid.replaceAt valid' path⟩

/-- Five plus the logarithm of five. -/
def fivePlus : Attribute :=
  .paramExpr .add [five, .paramExpr .clog2 [five] ⟨0⟩] ⟨0⟩

/-- There are two hardware modules, the first of which has a default value for its parameter. -/
def defaultModules : Context :=
  Context.empty.after [.registerKind .hwModule (.empty { text := "hw" }),
    .requestType (.integer 8 .signless),
    .newHwModule "m" [⟨{ text := "w" }, ⟨0⟩, some fivePlus⟩], .newHwModule "n" []]

theorem reachable_defaultModules : defaultModules.Reachable := by
  refine .call (.newHwModule "n" []) (.call (.newHwModule "m" _) (.call (.requestType _)
    (.call (.registerKind .hwModule _) .empty ?_) ?_) ?_) ?_
  · exact fun _ mem => absurd mem List.not_mem_nil
  · exact fun _ mem => absurd mem List.not_mem_nil
  · intro ty mem
    have same : ty = ⟨0⟩ := by
      simpa [Call.typeRefs, Attribute.typeRefsAll, ParamDecl.toAttribute, Attribute.typeRefs,
        Attribute.typeRefsDefault, fivePlus, five] using mem
    exact same ▸ ⟨.integer 8 .signless, rfl⟩
  · exact fun _ mem => absurd mem List.not_mem_nil

theorem verifiedDefault_fivePlus : defaultModules.VerifiedDefault fivePlus :=
  ⟨⟨0, 0⟩, _, _, _, rfl, rfl, rfl, rfl, List.mem_cons_self, rfl⟩

/-- The default value of the first module is accepted in the second one.  With a reference in the
place of the five in the logarithm it is accepted where the parameter and another one are
declared. -/
theorem acceptance_kept_default :
    (defaultModules.acceptsParameter ⟨1, 0⟩ fivePlus).result = .ok true ∧
      (defaultModules.scope [⟨{ text := "w" }, ⟨0⟩, none⟩, ⟨{ text := "v" }, ⟨0⟩, none⟩]
        .unknown).Accepts (.paramExpr .add [five, .paramExpr .clog2 [wReference] ⟨0⟩] ⟨0⟩) := by
  obtain ⟨-, everywhere, default, -, replaced⟩ := acceptance_kept fivePlus
  refine ⟨default _ reachable_defaultModules verifiedDefault_fivePlus _ _ ⟨_, rfl⟩, ?_⟩
  have closed : (defaultModules.scope [⟨{ text := "w" }, ⟨0⟩, none⟩] .unknown).Accepts fivePlus :=
    everywhere (defaultModules.defaultScope .unknown) rfl rfl _ true
  have referring := (replaced [1, 0] five wReference rfl).2 _ closed rfl
  exact (acceptance_kept _).1 _ [⟨{ text := "v" }, ⟨0⟩, none⟩] referring

end Context

end HardwareIR
