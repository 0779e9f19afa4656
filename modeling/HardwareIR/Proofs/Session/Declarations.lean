import HardwareIR.Proofs.Parameter.Order
import HardwareIR.Proofs.Parameter.References
import HardwareIR.Proofs.Session.Verdict

/-! # Declarations of hardware modules

A hardware module that passes its check declares parameters whose default values mention no
parameter.  Nothing is demanded of two declarations together, so that a module can declare a name
with two types and pass.  What is a parameter value in it depends on the order of the declarations
then, and only then.
-/

namespace HardwareIR

open Relation (ReflTransGen TransGen)

namespace Context

variable {ctx : Context} {op : OpRef} {o : Operation}

/-- What is a parameter value where `declarations` are in scope is one where they are in scope in
another order. -/
def OrderFree (ctx : Context) (declarations : List ParamDecl) : Prop :=
  ∀ declarations', declarations'.Perm declarations →
    ∀ value : Attribute, (∀ ty ∈ value.typeRefs, ctx.types.Has ty) → ∀ location,
      ((value.checkParameter (ctx.scope declarations' location)).result = .ok () ↔
        (value.checkParameter (ctx.scope declarations location)).result = .ok ())

theorem Sound.orderFree_iff (sound : ctx.Sound) {declarations : List ParamDecl}
    (has : ∀ d ∈ declarations, ctx.types.Has d.type) :
    ctx.OrderFree declarations ↔ Unambiguous declarations := by
  have checked : ∀ {declarations' : List ParamDecl}, declarations'.Perm declarations →
      ∀ {value : Attribute}, (∀ ty ∈ value.typeRefs, ctx.types.Has ty) → ∀ location,
      ((value.checkParameter (ctx.scope declarations' location)).result = .ok () ↔
        ParameterValue declarations' true value) := by
    intro declarations' perm value known location
    have grounded : (ctx.scope declarations' location).Grounded :=
      ⟨sound.types, fun d mem => has d (perm.mem_iff.mp mem)⟩
    exact Attribute.checkParameter_eq_ok_iff grounded known
  constructor
  · -- References to the declarations are enough to tell which of them count.
    refine fun free => unambiguous_of_perm fun declarations' perm d mem declares => ?_
    have known : ∀ ty ∈ (Attribute.paramRef d.name d.type).typeRefs, ctx.types.Has ty := by
      intro ty mem'
      obtain rfl := List.mem_singleton.mp mem'
      exact has d mem
    have valid := (checked perm known .unknown).mpr (.reference rfl declares)
    rw [free declarations' perm _ known .unknown, checked .rfl known .unknown] at valid
    exact valid.declares .reference
  · intro unambiguous declarations' perm value known location
    rw [checked perm known location, checked .rfl known location]
    exact unambiguous.parameterValue_of_perm perm

/-- A hardware module passes if it has the shape of one and declares parameters, whose default
values mention no parameter, and all that is nested in it passes.  The order of the
declarations makes no difference if no name is declared with two types, and makes one otherwise. -/
theorem verified_order_iff (reachable : ctx.Reachable)
    (registered : (ctx.registry.kind? OpKind.hwModule.id).isSome)
    (live : ctx.operation op = .ok o) (called : o.id = OpKind.hwModule.id) :
    ((ctx.verify (.operation op)).result = .ok () ↔
      ((∀ interface ∈ OpKind.hwModule.interfaces, ctx.verifyInterface op interface = .ok ()) ∧
        ∃ declarations : List ParamDecl,
          AttributeDict.getArray? o.attributes AttributeDict.parameters =
            some (declarations.map ParamDecl.toAttribute) ∧
          ∀ d ∈ declarations, ∀ value ∈ d.default?, ParameterValue [] false value) ∧
      (∀ x, ReflTransGen ctx.Holds (.operation op) x → ¬ TransGen ctx.Holds x x) ∧
      ∀ p, TransGen ctx.Holds (.operation op) (.operation p) → ctx.Passes p) ∧
    ∃ declarations, ctx.parameters op = .ok declarations ∧
      (ctx.OrderFree declarations ↔ Unambiguous declarations) := by
  have sound := reachable.sound
  constructor
  · rw [sound.wellFormed.verify_eq_ok_iff_of_live live,
      passes_iff_of_kind (sound.kindOf_hwModule registered live called),
      ← sound.verifyHwModule_eq_ok_iff live]
    rfl
  · obtain ⟨declarations, found⟩ := exists_parameters live
    exact ⟨declarations, found, sound.orderFree_iff (sound.has_of_parameters found)⟩

/-- A hardware module that declares a parameter with two types. -/
def ambiguousModule : Context :=
  Context.empty.after [.registerArc, .requestType (.integer 8 .signless),
    .requestType (.integer 16 .signless),
    .newHwModule "m" [⟨{ text := "w" }, ⟨0⟩, none⟩, ⟨{ text := "w" }, ⟨1⟩, none⟩]]

theorem standard_ambiguousModule : ambiguousModule.Standard := by
  refine .call (.newHwModule "m" _) (.call (.requestType _) (.call (.requestType _)
    (.register .empty rfl) ?_) ?_) ?_
  · exact fun _ mem => absurd mem List.not_mem_nil
  · exact fun _ mem => absurd mem List.not_mem_nil
  · intro ty mem
    have typed : ty = ⟨0⟩ ∨ ty = ⟨1⟩ := by
      simpa [Call.typeRefs, Attribute.typeRefsAll, ParamDecl.toAttribute, Attribute.typeRefs,
        Attribute.typeRefsDefault] using mem
    rcases typed with rfl | rfl
    · exact ⟨.integer 8 .signless, rfl⟩
    · exact ⟨.integer 16 .signless, rfl⟩

theorem acyclic_ambiguousModule : ambiguousModule.Acyclic :=
  acyclic_of_free (by decide)

/-- The module passes, and which of the two types a reference may have depends on the order. -/
theorem verified_order_iff_ambiguous :
    (ambiguousModule.verify (.operation ⟨0, 0⟩)).result = .ok () ∧
    ∃ declarations, ambiguousModule.parameters ⟨0, 0⟩ = .ok declarations ∧
      ¬ ambiguousModule.OrderFree declarations := by
  have standard := standard_ambiguousModule
  have acyclic := acyclic_ambiguousModule
  have live : ambiguousModule.operation ⟨0, 0⟩ = .ok _ := rfl
  obtain ⟨passes, declarations, found, free⟩ :=
    verified_order_iff standard.reachable (standard.registered _) live rfl
  have tree : ambiguousModule.tree (.operation ⟨0, 0⟩) = .ok _ := rfl
  have alone : ambiguousModule.Preorder [.operation ⟨0, 0⟩] [⟨0, 0⟩] := preorder_of_tree tree
  refine ⟨passes.mpr ⟨⟨?_, _, rfl, ?_⟩, fun x _ => acyclic.irreflexive x, fun p inside => ?_⟩,
    declarations, found, ?_⟩
  · exact verifyInterfaces_eq_ok_iff.mp rfl
  · simp
  · exact absurd inside (alone.nothing_nested standard.reachable.sound.wellFormed acyclic)
  · rw [free]
    cases found
    intro unambiguous
    have same := unambiguous _ List.mem_cons_self _ (List.mem_cons_of_mem _ List.mem_cons_self) rfl
    cases same

end Context

end HardwareIR
