import HardwareIR.Context.Verification
import HardwareIR.Proofs.Context.Ancestor
import HardwareIR.Proofs.Context.Frame
import HardwareIR.Proofs.Parameter.Check
import HardwareIR.Proofs.Registry.Known

/-! # Sound contexts

A sound context is well-formed, its operations mention types of its own store only, and the store
is grounded.  Questions to the live operations of a sound context have answers.
-/

namespace HardwareIR

/-! ## Interned operations -/

theorem AttributeDict.get?_of_getArray? {d : AttributeDict} {key : String}
    {elements : List Attribute} (found : d.getArray? key = some elements) :
    d.get? key = some (.array elements) := by
  unfold getArray? at found
  split at found
  next array =>
    cases found
    exact array
  next => cases found

theorem AttributeDict.get?_of_getString? {d : AttributeDict} {key text : String}
    (found : d.getString? key = some text) : d.get? key = some (.string text) := by
  unfold getString? at found
  split at found
  next string =>
    cases found
    exact string
  next => cases found

/-- The types that attributes mention are in the store. -/
def AttributeDict.Interned (d : AttributeDict) (types : TypeStore) : Prop :=
  ∀ key a, d.get? key = some a → ∀ ty ∈ a.typeRefs, types.Has ty

/-- The types that an operation mentions are in the store. -/
structure Operation.Interned (o : Operation) (types : TypeStore) : Prop where
  results : ∀ ty ∈ o.resultTypes, types.Has ty
  attributes : AttributeDict.Interned o.attributes types

section Interned

variable {types types' : TypeStore}

theorem AttributeDict.interned_empty : AttributeDict.Interned ∅ types := by
  intro key a found
  cases found

theorem AttributeDict.Interned.insert {d : AttributeDict} (interned : d.Interned types)
    (key : String) {value : Attribute} (has : ∀ ty ∈ value.typeRefs, types.Has ty) :
    AttributeDict.Interned (SortedMap.insert d key value) types := by
  intro key' a found
  rw [SortedMap.get?_insert] at found
  by_cases same : key' = key
  · rw [if_pos same] at found
    cases found
    exact has
  · rw [if_neg same] at found
    exact interned key' a found

theorem Operation.Interned.mono {o : Operation} (interned : o.Interned types)
    (grows : ∀ ty, types.Has ty → types'.Has ty) : o.Interned types' where
  results ty mem := grows ty (interned.results ty mem)
  attributes key a found ty mem := grows ty (interned.attributes key a found ty mem)

theorem Operation.Interned.of_contents {o o' : Operation} (interned : o.Interned types)
    (same : o'.contents = o.contents) : o'.Interned types where
  results := by
    have results : o'.contents.resultTypes = o.contents.resultTypes := by rw [same]
    change o'.resultTypes = o.resultTypes at results
    rw [results]
    exact interned.results
  attributes := by
    have attributes : o'.contents.attributes = o.contents.attributes := by rw [same]
    change o'.attributes = o.attributes at attributes
    rw [attributes]
    exact interned.attributes

end Interned

namespace Context

variable {ctx : Context} {op : OpRef} {o : Operation} {b : BlockRef}

structure Sound (ctx : Context) : Prop where
  wellFormed : ctx.WellFormed
  types : ctx.types.Grounded
  operations : ∀ op o, ctx.operation op = .ok o → o.Interned ctx.types
  known : ctx.registry.known.Faithful

/-- A change that brings in no operation with unknown types keeps a context sound. -/
theorem Sound.of_operations {ctx' : Context} (sound : ctx.Sound) (wf : ctx'.WellFormed)
    (types : ctx'.types = ctx.types) (registry : ctx'.registry = ctx.registry)
    (operations : ∀ op o', ctx'.operation op = .ok o' → o'.Interned ctx.types ∨
      ∃ o, ctx.operation op = .ok o ∧ o'.contents = o.contents) : ctx'.Sound where
  wellFormed := wf
  types := types ▸ sound.types
  operations op o' live := by
    rw [types]
    rcases operations op o' live with new | ⟨o, before, same⟩
    · exact new
    · exact (sound.operations op o before).of_contents same
  known := registry ▸ sound.known

/-! ## Kinds -/

theorem kindOf_of_known (live : ctx.operation op = .ok o) {kind : OpKind}
    (known : ctx.registry.kind? o.id = some kind) : ctx.kindOf op = .ok kind := by
  simp [kindOf, live, known]

/-- An operation is called like the kind that it is of. -/
theorem Sound.id_of_kindOf (sound : ctx.Sound) (live : ctx.operation op = .ok o) {kind : OpKind}
    (known : ctx.kindOf op = .ok kind) : kind.id = o.id := by
  rw [kindOf, live, Except.bind_ok] at known
  split at known
  next found =>
    cases known
    exact sound.known _ _ found
  next => cases known

/-- Where a kind is known, what is called like it is of it. -/
theorem Sound.kindOf_of_called (sound : ctx.Sound) {kind : OpKind}
    (registered : (ctx.registry.kind? kind.id).isSome) (live : ctx.operation op = .ok o)
    (called : o.id = kind.id) : ctx.kindOf op = .ok kind := by
  obtain ⟨kind', found⟩ := Option.isSome_iff_exists.mp registered
  have same := sound.known _ _ found
  rw [OpKind.eq_of_id same, ← called] at found
  exact kindOf_of_known live found

/-- Where hardware modules are known, what is called like one is one. -/
theorem Sound.kindOf_hwModule (sound : ctx.Sound)
    (registered : (ctx.registry.kind? OpKind.hwModule.id).isSome)
    (live : ctx.operation op = .ok o) (called : o.id = OpKind.hwModule.id) :
    ctx.kindOf op = .ok .hwModule :=
  sound.kindOf_of_called registered live called

/-- The innermost hardware module around a block. -/
def InnermostModule (ctx : Context) (b : BlockRef) (found : Option OpRef) : Prop :=
  ∃ start, ctx.blockOwner b = .ok start ∧ ctx.Innermost OpKind.hwModule.id start found

/-! ## Parameters -/

theorem exists_parameters (live : ctx.operation op = .ok o) :
    ∃ declarations, ctx.parameters op = .ok declarations := by
  unfold parameters
  rw [live, Except.bind_ok]
  split <;> exact ⟨_, rfl⟩

theorem Sound.has_of_parameters (sound : ctx.Sound) {declarations : List ParamDecl}
    (found : ctx.parameters op = .ok declarations) :
    ∀ d ∈ declarations, ctx.types.Has d.type := by
  obtain ⟨o, live, found⟩ := Except.bind_eq_ok.mp found
  split at found
  next elements stored =>
    cases found
    intro d mem
    obtain ⟨a, listed, decl⟩ := List.mem_filterMap.mp mem
    have array := AttributeDict.get?_of_getArray? stored
    refine (sound.operations op o live).attributes _ _ array d.type ?_
    refine Attribute.mem_typeRefsAll.mpr ⟨a, listed, ?_⟩
    cases a <;> cases decl
    exact List.mem_cons_self
  next =>
    cases found
    intro d mem
    cases mem

/-- Inside a module, the check of parameter values accepts them wherever errors are reported. -/
theorem Sound.checkParameter_eq_ok_iff (sound : ctx.Sound) {declarations : List ParamDecl}
    (found : ctx.parameters op = .ok declarations) {value : Attribute}
    (has : ∀ ty ∈ value.typeRefs, ctx.types.Has ty) (location : Location) :
    (value.checkParameter (ctx.scope declarations location)).result = .ok () ↔
      ParameterValue declarations true value := by
  have grounded : (ctx.scope declarations location).Grounded :=
    ⟨sound.types, sound.has_of_parameters found⟩
  exact Attribute.checkParameter_eq_ok_iff grounded has

/-- Inside a hardware module, an attribute can be the value of a parameter. -/
def Accepts (ctx : Context) (hwModule : OpRef) (value : Attribute) : Prop :=
  ∃ declarations, ctx.parameters hwModule = .ok declarations ∧
    (value.checkParameter (ctx.scope declarations .unknown)).result = .ok ()

/-- In a live operation it is always known whether an attribute is a parameter value. -/
theorem Sound.acceptsParameter (sound : ctx.Sound) (live : ctx.operation op = .ok o)
    {value : Attribute} (has : ∀ ty ∈ value.typeRefs, ctx.types.Has ty) :
    ∃ verdict, (ctx.acceptsParameter op value).result = .ok verdict ∧
      (verdict = true ↔ ctx.Accepts op value) := by
  obtain ⟨declarations, found⟩ := exists_parameters live
  have grounded : (ctx.scope declarations .unknown).Grounded :=
    ⟨sound.types, sound.has_of_parameters found⟩
  obtain ⟨verdict, known, passed⟩ :=
    (Attribute.checkParameter_sensible grounded has).accepted fun error =>
      s!"Not a valid parameter expression: {error.cause.message}"
  refine ⟨verdict, ?_, ?_⟩
  · rw [Context.acceptsParameter, Report.lift_bind found]
    exact known
  · rw [passed]
    constructor
    · exact fun ok => ⟨declarations, found, ok⟩
    · rintro ⟨declarations', found', ok⟩
      rw [found] at found'
      cases found'
      exact ok

end Context

end HardwareIR
