import HardwareIR.Proofs.Materialization.Decision
import HardwareIR.Proofs.Session.WellFormed

/-! # Reachable contexts are sound

A call that names only types of the store keeps a sound context sound, so that every reachable
context is.
-/

namespace HardwareIR

namespace Context

variable {ctx ctx' : Context}

/-! ## Changes of contents -/

theorem Sound.of_sameContents (sound : ctx.Sound) (wf : ctx'.WellFormed)
    (same : SameContents ctx ctx') : ctx'.Sound :=
  sound.of_operations wf same.types same.registry fun _ _ live => .inr (same.operation_eq_ok live)

theorem Sound.of_added {op : OpRef} {o : Operation} (sound : ctx.Sound) (wf : ctx'.WellFormed)
    (added : OperationAdded ctx ctx' op o) (interned : o.Interned ctx.types) : ctx'.Sound := by
  refine sound.of_operations wf added.types added.registry fun op' o' live => ?_
  rw [added.operation] at live
  by_cases new : op' = op
  · rw [if_pos new] at live
    cases live
    exact .inl interned
  · rw [if_neg new] at live
    exact .inr ⟨o', live, rfl⟩

theorem Sound.modifyOperation {op : OpRef} {f : Operation → Operation} (sound : ctx.Sound)
    (wf : (ctx.modifyOperation op f).WellFormed)
    (keeps : ∀ o, o.Interned ctx.types → (f o).Interned ctx.types) :
    (ctx.modifyOperation op f).Sound := by
  refine sound.of_operations wf rfl rfl fun op' o' live => ?_
  rw [operation_modifyOperation] at live
  by_cases here : op' = op
  · rw [if_pos here] at live
    obtain ⟨o, before, rfl⟩ := Except.map_eq_ok.mp live
    exact .inl (keeps o (sound.operations op o before))
  · rw [if_neg here] at live
    exact .inr ⟨o', live, rfl⟩

/-! ## New operations -/

theorem Sound.newOperation (sound : ctx.Sound) (id : QualifiedName) {resultTypes : List TypeRef}
    (operands : List Value) (regionCount : Nat) {attributes : AttributeDict} (location : Location)
    (results : ∀ ty ∈ resultTypes, ctx.types.Has ty) (interned : attributes.Interned ctx.types) :
    (ctx.newOperation id resultTypes operands regionCount attributes location).2.Sound := by
  obtain ⟨regions, -, added⟩ :=
    ctx.newOperation_added id resultTypes operands regionCount attributes location
  exact sound.of_added (sound.wellFormed.of_grown added.grown) added ⟨results, interned⟩

theorem Sound.newWithBodies (sound : ctx.Sound) {id : QualifiedName} {resultTypes : List TypeRef}
    {operands : List Value} {regionCount : Nat} {attributes : AttributeDict}
    (results : ∀ ty ∈ resultTypes, ctx.types.Has ty) (interned : attributes.Interned ctx.types) :
    (Call.made ctx (ctx.newWithBodies id resultTypes operands regionCount attributes)).1.Sound := by
  have between := sound.newOperation id operands regionCount .unknown results interned
  obtain ⟨ctx', done, wf, same⟩ :=
    sound.wellFormed.newWithBodies id resultTypes operands regionCount attributes
  rw [done]
  refine between.of_operations wf same.types same.registry fun op o' live => ?_
  refine .inr ⟨o', ?_, rfl⟩
  change ctx'.operation op = .ok o' at live
  rw [operation_eq_ok] at live ⊢
  rwa [same.operations] at live

theorem Sound.newConstant (sound : ctx.Sound) {type literalType : TypeRef} {literal : Literal}
    (location : Location) (has : ∀ ty ∈ [type, literalType], ctx.types.Has ty) :
    (ctx.newConstant type literalType literal location).2.Sound := by
  unfold Context.newConstant
  refine sound.newOperation _ [] 0 location ?_ ?_
  · exact fun ty mem => has ty (List.mem_append_left [literalType] mem)
  · exact AttributeDict.interned_empty.insert _ fun ty mem => has ty (List.mem_cons_of_mem type mem)

theorem Sound.newParamValue (sound : ctx.Sound) {type : TypeRef} {value : Attribute}
    (location : Location) (has : ∀ ty ∈ type :: value.typeRefs, ctx.types.Has ty) :
    (ctx.newParamValue type value location).2.Sound := by
  unfold Context.newParamValue
  refine sound.newOperation _ [] 0 location ?_ ?_
  · exact fun ty mem => has ty (List.mem_append_left value.typeRefs mem)
  · exact AttributeDict.interned_empty.insert _ fun ty mem => has ty (List.mem_cons_of_mem type mem)

/-! ## Materialization -/

theorem Sound.insert (sound : ctx.Sound) {point : InsertionPoint} {op : OpRef}
    (inserted : point.insert ctx op = .ok ctx') : ctx'.Sound := by
  obtain ⟨place, -, linked⟩ := InsertionPoint.insert_eq_ok.mp inserted
  exact sound.of_sameContents (sound.wellFormed.link linked) (link_sameContents linked)

theorem Sound.place (sound : ctx.Sound) (point : InsertionPoint) (op : OpRef) :
    (ctx.place point op).1.Sound := by
  unfold Context.place
  cases inserted : point.insert ctx op with
  | ok ctx' => exact sound.insert inserted
  | error fault => exact sound

theorem Sound.materializeArc (sound : ctx.Sound) (point : InsertionPoint) {value : Attribute}
    {type : TypeRef} (location : Location)
    (has : ∀ ty ∈ type :: value.typeRefs, ctx.types.Has ty) :
    (ctx.materializeArc point value type location).context.Sound := by
  cases decided : (ctx.plan point value type).result with
  | error fault =>
    rw [materializeArc_of_error decided]
    exact sound
  | ok plan =>
    rw [materializeArc_of_plan decided]
    cases plan with
    | decline => exact sound
    | constant literalType literal =>
      -- The types of the literal are those of the value, which the plan is about.
      obtain ⟨b, -, decided⟩ := block_of_plan decided (by simp)
      obtain ⟨-, rfl⟩ := planIn_eq_constant decided
      exact (sound.newConstant location has).place point _
    | paramValue value' =>
      obtain ⟨b, -, decided⟩ := block_of_plan decided (by simp)
      obtain ⟨rfl, -⟩ := planIn_eq_paramValue decided
      exact (sound.newParamValue location has).place point _

theorem Sound.materialize (sound : ctx.Sound) (dialect : Identifier) (point : InsertionPoint)
    {value : Attribute} {type : TypeRef} (location : Location)
    (has : ∀ ty ∈ type :: value.typeRefs, ctx.types.Has ty) :
    (ctx.materialize dialect point value type location).context.Sound := by
  by_cases hooked : (ctx.registry.dialects.get? dialect).bind Dialect.materializer = some .arc
  · rw [materialize_of_hooked hooked]
    exact sound.materializeArc point location has
  · rw [materialize_of_not_hooked hooked]
    exact sound

end Context

/-! ## Calls -/

namespace Call

variable {ctx : Context}

theorem edited_sound (sound : ctx.Sound) {result : Except Fault Context}
    (keeps : ∀ ctx', result = .ok ctx' → ctx'.Sound) : (edited ctx result).1.Sound := by
  cases result with
  | ok ctx' => exact keeps ctx' rfl
  | error fault => exact sound

theorem registered_sound (sound : ctx.Sound) {outcome : Registry × Report Unit}
    (faithful : outcome.1.known.Faithful) : (registered ctx outcome).1.Sound where
  wellFormed := sound.wellFormed.of_sameObjects ctx.types outcome.1
  types := sound.types
  operations := sound.operations
  known := faithful

/-- Every call that names only types of the store keeps a context sound. -/
theorem run_sound (sound : ctx.Sound) (call : Call)
    (has : ∀ ty ∈ call.typeRefs, ctx.types.Has ty) : (call.run ctx).1.Sound := by
  have wf := run_wellFormed sound.wellFormed call
  cases call with
  | newBlock label argumentTypes =>
    exact sound.of_operations wf rfl rfl fun op o live => .inr ⟨o, live, rfl⟩
  | newOperation id resultTypes operands regionCount =>
    exact sound.newOperation id operands regionCount .unknown has AttributeDict.interned_empty
  | newModule name =>
    rw [run, Context.newModule]
    refine sound.newWithBodies (fun _ mem => absurd mem List.not_mem_nil) ?_
    exact AttributeDict.interned_empty.insert _ fun _ mem => absurd mem List.not_mem_nil
  | newHwModule name declarations =>
    rw [run, Context.newHwModule]
    refine sound.newWithBodies (fun _ mem => absurd mem List.not_mem_nil) ?_
    refine AttributeDict.Interned.insert (AttributeDict.interned_empty.insert _ ?_) _ fun _ mem =>
      absurd mem List.not_mem_nil
    exact has
  | newConstant type literalType literal => exact sound.newConstant .unknown has
  | newParamValue type value => exact sound.newParamValue .unknown has
  | newCatalogued index resultTypes operands =>
    rw [run, Context.newCatalogued]
    exact sound.newWithBodies has AttributeDict.interned_empty
  | materialize dialect point value type location =>
    exact sound.materialize dialect point location has
  | link l x place =>
    refine edited_sound sound fun ctx' linked => ?_
    exact sound.of_sameContents (sound.wellFormed.link linked) (Context.link_sameContents linked)
  | unlink l x =>
    simp only [run] at wf ⊢
    cases unlinked : ctx.unlink l x with
    | ok ctx' =>
      rw [unlinked] at wf
      exact sound.of_sameContents wf (Context.unlink_sameContents unlinked)
    | error fault =>
      rw [unlinked] at wf
      exact sound.of_sameContents wf (ctx.modifyLinks_sameContents l x _)
  | insert point op => exact edited_sound sound fun _ inserted => sound.insert inserted
  | erase op =>
    refine edited_sound sound fun ctx' erased => ?_
    obtain ⟨between, xs, same, gone⟩ := Context.erase_frame erased
    refine sound.of_operations (sound.wellFormed.erase erased) (gone.types.trans same.types)
      (gone.registry.trans same.registry) fun op' o' live => ?_
    rw [gone.operation, Context.if_freed_eq_ok] at live
    exact .inr (same.operation_eq_ok live.2)
  | setAttribute op key value =>
    refine edited_sound sound fun ctx' set => ?_
    obtain ⟨o, -, same⟩ := Except.bind_eq_ok.mp set
    cases same
    have shape := ctx.modifyOperation_sameShape op
      (f := fun o => { o with attributes := o.attributes.insert key value }) (fun _ => rfl)
      fun _ => rfl
    refine sound.modifyOperation (sound.wellFormed.of_sameShape shape) fun o interned => ?_
    exact ⟨interned.results, interned.attributes.insert key has⟩
  | setLocation op location =>
    refine edited_sound sound fun ctx' set => ?_
    obtain ⟨o, -, same⟩ := Except.bind_eq_ok.mp set
    cases same
    have shape := ctx.modifyOperation_sameShape op (f := fun o => { o with location })
      (fun _ => rfl) fun _ => rfl
    refine sound.modifyOperation (sound.wellFormed.of_sameShape shape) fun o interned => ?_
    exact ⟨interned.results, interned.attributes⟩
  | requestType type =>
    refine ⟨wf, sound.types.request has, fun op o live => ?_, sound.known⟩
    refine (sound.operations op o live).mono ?_
    rintro ty ⟨t, found⟩
    exact ⟨t, TypeStore.get_request found type⟩
  | registerKind kind dialect =>
    exact ⟨wf, sound.types, sound.operations,
      Registry.faithful_stable.register _ kind dialect sound.known⟩
  | install dialect =>
    refine ⟨wf, sound.types, sound.operations, ?_⟩
    change (ctx.registry.install dialect).known.Faithful
    rw [Registry.install_known]
    exact sound.known
  | registerBuiltin =>
    exact registered_sound sound
      (Registry.registerBuiltin_of_stable Registry.faithful_stable sound.known)
  | registerHw =>
    exact registered_sound sound
      (Registry.registerHw_of_stable Registry.faithful_stable sound.known)
  | registerArc =>
    exact registered_sound sound
      (Registry.registerArc_of_stable Registry.faithful_stable sound.known)

end Call

/-! ## Reachable contexts -/

theorem Context.empty_sound (hash : Digest → UInt64) : (Context.empty hash).Sound where
  wellFormed := empty_wellFormed hash
  types := TypeStore.empty_grounded hash
  operations op o live := by cases live
  known id kind found := by cases found

theorem Context.Reachable.sound {ctx : Context} (reachable : ctx.Reachable) : ctx.Sound := by
  induction reachable with
  | empty => exact empty_sound _
  | call call _ has ih => exact call.run_sound ih has

end HardwareIR
