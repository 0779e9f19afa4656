import HardwareIR.Proofs.Registry.Standard
import HardwareIR.Proofs.Session.Environment

/-! # Sessions with the standard dialects

A session is standard if the first thing that is registered in it is the `arc` dialect.  From then
on every kind of operations is known by its name, and the `arc` dialect builds constants.
-/

namespace HardwareIR

namespace Context

variable {ctx : Context}

/-- The contexts of sessions in which `arc` was the first that was registered. -/
inductive Standard : Context → Prop where
  | register {ctx : Context} (reachable : ctx.Reachable) (nothing : ctx.registry = .empty) :
      Standard (Call.registerArc.run ctx).1
  | call {ctx : Context} (call : Call) (standard : Standard ctx)
      (has : ∀ ty ∈ call.typeRefs, ctx.types.Has ty) : Standard (call.run ctx).1

theorem Standard.reachable (standard : ctx.Standard) : ctx.Reachable := by
  induction standard with
  | register reachable _ =>
    exact .call .registerArc reachable fun _ mem => absurd mem List.not_mem_nil
  | call call _ has ih => exact .call call ih has

/-- What registering `arc` brings about stays. -/
theorem Standard.of_stable {Q : Registry → Prop} (stable : Registry.Stable Q)
    (registered : Q Registry.empty.registerArc.1) (standard : ctx.Standard) : Q ctx.registry := by
  induction standard with
  | @register ctx reachable nothing =>
    show Q ctx.registry.registerArc.1
    rw [nothing]
    exact registered
  | call call standard _ ih =>
    rw [(Call.run_environment standard.reachable.sound.wellFormed call).registry]
    exact Call.registryAfter_of_stable stable ih call

/-- Calls that name no types go on with a standard session. -/
theorem Standard.after (standard : ctx.Standard) (calls : List Call)
    (untyped : ∀ call ∈ calls, call.typeRefs = []) : (ctx.after calls).Standard := by
  induction calls generalizing ctx with
  | nil => exact standard
  | cons call calls ih =>
    have next : (call.run ctx).1.Standard := by
      refine .call call standard ?_
      rw [untyped call List.mem_cons_self]
      exact fun _ mem => absurd mem List.not_mem_nil
    exact ih next fun call' mem => untyped call' (List.mem_cons_of_mem call mem)

/-- Every kind is known by its name. -/
theorem Standard.kind?_eq (standard : ctx.Standard) (kind : OpKind) :
    ctx.registry.kind? kind.id = some kind :=
  standard.of_stable (Registry.kind?_stable _ _)
    (Registry.kind?_registerArc (r := .empty) nofun (fun _ _ => rfl) kind)

theorem Standard.registered (standard : ctx.Standard) (kind : OpKind) :
    (ctx.registry.kind? kind.id).isSome := by
  rw [standard.kind?_eq]
  rfl

/-- Asking the `arc` dialect for a constant makes it the way that the dialect does. -/
theorem Standard.materialize_eq (standard : ctx.Standard) (point : InsertionPoint)
    (value : Attribute) (type : TypeRef) (location : Location) :
    ctx.materialize StandardDialect.arc.name point value type location =
      ctx.materializeArc point value type location := by
  obtain ⟨d, installed, builds⟩ := Registry.materializer_registerArc_empty
  have found := standard.of_stable (Registry.dialect_stable _ _) installed
  apply materialize_of_hooked
  rw [found, Option.bind_some, builds]

/-! ## Sessions about a hardware module -/

/-- A hardware module with one parameter, among the standard dialects. -/
def standardModule : Context :=
  Context.empty.after [.registerArc, .requestType (.integer 8 .signless),
    .newHwModule "m" [⟨{ text := "w" }, ⟨0⟩, none⟩]]

theorem standard_standardModule : standardModule.Standard := by
  refine .call (.newHwModule "m" _) (.call (.requestType _) (.register .empty rfl) ?_) ?_
  · exact fun _ mem => absurd mem List.not_mem_nil
  · intro ty mem
    obtain rfl := List.mem_singleton.mp mem
    exact ⟨.integer 8 .signless, rfl⟩

theorem acyclic_standardModule : standardModule.Acyclic :=
  acyclic_of_free (by decide)

def arcDefine : Fin catalog.length := ⟨0, by decide⟩

def arcOutput : Fin catalog.length := ⟨1, by decide⟩

/-- The module has an arc definition and a terminator in its body now, and the definition has a
terminator in its own body. -/
def nestedModule : Context :=
  standardModule.after [.newCatalogued arcDefine [] [], .newCatalogued arcOutput [] [],
    .newCatalogued arcOutput [] [], .link .ops ⟨1, 0⟩ (.back ⟨0, 0⟩),
    .link .ops ⟨2, 0⟩ (.back ⟨0, 0⟩), .link .ops ⟨3, 0⟩ (.back ⟨1, 0⟩)]

theorem standard_nestedModule : nestedModule.Standard :=
  standard_standardModule.after _ (by simp [Call.typeRefs])

theorem acyclic_nestedModule : nestedModule.Acyclic :=
  standard_nestedModule.reachable.sound.wellFormed.acyclic_of_slots (by decide +kernel)

end Context

end HardwareIR
