import HardwareIR.Proofs.Context.Names
import HardwareIR.Proofs.Session.Handles

/-! # Lifetimes in sessions

What a call gives out is what it was asked for (`Call.exists_makings_of_given`).  After a session
the live objects are those that were allocated and not freed, a handle stands for the object that it
was given out for until that object is freed and for nothing afterwards, even if the slot is taken
again, and names tell live objects of a kind apart (`Context.handles_sound`).
-/

namespace HardwareIR

open Relation (ReflTransGen)

/-- An operation of that name, with those results and operands and so many regions. -/
def Makings.IsOperation (id : QualifiedName) (resultTypes : List TypeRef) (operands : List Value)
    (regionCount : Nat) (m : Makings) : Prop :=
  ∃ regions, regions.length = regionCount ∧ m = .operation id resultTypes operands regions

namespace Call

/-- What the object that is given out has to be made with. -/
def AsksFor : Call → Makings → Prop
  | newBlock label argumentTypes, m => m = .block label argumentTypes
  | newOperation id resultTypes operands regionCount, m =>
    m.IsOperation id resultTypes operands regionCount
  | newModule _, m => m.IsOperation OpKind.module.id [] [] 1
  | newHwModule _ _, m => m.IsOperation OpKind.hwModule.id [] [] 1
  | newConstant type _ _, m => m.IsOperation OpKind.constant.id [type] [] 0
  | newParamValue type _, m => m.IsOperation OpKind.paramValue.id [type] [] 0
  | newCatalogued index resultTypes operands, m =>
    m.IsOperation (OpKind.arc index).id resultTypes operands (catalog.get index).regions
  | materialize _ _ _ type _, m =>
    m.IsOperation OpKind.constant.id [type] [] 0 ∨ m.IsOperation OpKind.paramValue.id [type] [] 0
  | _, _ => False

variable {ctx : Context} {call : Call} {x root : Object} {answer : Answer}

theorem exists_makings_newOperation (ctx : Context) (id : QualifiedName)
    (resultTypes : List TypeRef) (operands : List Value) (regionCount : Nat)
    (attributes : AttributeDict) (location : Location) :
    let new := ctx.newOperation id resultTypes operands regionCount attributes location
    ∃ m, new.2.makings (.operation new.1) = some m ∧
      m.IsOperation id resultTypes operands regionCount := by
  obtain ⟨regions, length, added⟩ :=
    ctx.newOperation_added id resultTypes operands regionCount attributes location
  exact ⟨_, Context.makings_of_operation added.live, regions, length, rfl⟩

theorem exists_makings_newWithBodies (wf : ctx.WellFormed) {id : QualifiedName}
    {resultTypes : List TypeRef} {operands : List Value} {regionCount : Nat}
    {attributes : AttributeDict}
    (runs : call.run ctx =
      made ctx (ctx.newWithBodies id resultTypes operands regionCount attributes))
    (answered : (call.run ctx).2 = .ok answer) (given : answer.object? = some root) :
    ∃ m, (call.run ctx).1.makings root = some m ∧
      m.IsOperation id resultTypes operands regionCount := by
  obtain ⟨ctx', done, -, same⟩ := wf.newWithBodies id resultTypes operands regionCount attributes
  rw [done] at runs
  rw [runs] at answered ⊢
  obtain rfl := Except.ok.inj answered
  obtain rfl := Option.some.inj given
  -- The bodies do not change the operation.
  rw [made, Context.makings, Context.operation, same.operations]
  exact exists_makings_newOperation ctx id resultTypes operands regionCount attributes .unknown

theorem eq_of_given (answered : (call.run ctx).2 = .ok answer)
    (given : answer.object? = some root) (gives : (call.run ctx).2 = .ok (.object x)) :
    root = x := by
  cases answered.symm.trans gives
  exact (Option.some.inj given).symm

/-- An object that is given out is what the call was asked for. -/
theorem exists_makings_of_given (wf : ctx.WellFormed) (answered : (call.run ctx).2 = .ok answer)
    (given : answer.object? = some root) :
    ∃ m, (call.run ctx).1.makings root = some m ∧ call.AsksFor m := by
  cases call with
  | newBlock label argumentTypes =>
    obtain rfl := eq_of_given (x := .block (ctx.newBlock label argumentTypes).1) answered given rfl
    refine ⟨.block label argumentTypes, ?_, rfl⟩
    have live := ctx.block_newBlock label argumentTypes (ctx.newBlock label argumentTypes).1
    rw [if_pos rfl] at live
    change (ctx.newBlock label argumentTypes).2.makings _ = _
    rw [Context.makings, live]
    rfl
  | newOperation id resultTypes operands regionCount =>
    obtain rfl := eq_of_given answered given rfl
    exact exists_makings_newOperation ctx id resultTypes operands regionCount _ _
  | newModule name =>
    exact exists_makings_newWithBodies wf (by rw [run, Context.newModule]) answered given
  | newHwModule name declarations =>
    exact exists_makings_newWithBodies wf (by rw [run, Context.newHwModule]) answered given
  | newConstant type literalType literal =>
    obtain rfl := eq_of_given answered given rfl
    exact exists_makings_newOperation ctx OpKind.constant.id [type] [] 0 _ _
  | newParamValue type value =>
    obtain rfl := eq_of_given answered given rfl
    exact exists_makings_newOperation ctx OpKind.paramValue.id [type] [] 0 _ _
  | newCatalogued index resultTypes operands =>
    exact exists_makings_newWithBodies wf (by rw [run, Context.newCatalogued]) answered given
  | materialize dialect point value type location =>
    obtain ⟨op, made, rfl⟩ := Except.map_eq_ok.mp answered
    obtain ⟨op, rfl, rfl⟩ := Option.map_eq_some_iff.mp given
    have same := Context.materialize_of_made made
    rw [same] at made
    rw [run, same]
    rcases wf.made_cases made with ⟨_, literal, -, -, inserted⟩ | ⟨_, _, -, -, -, inserted⟩
    · obtain ⟨_, _, _, _, -, -, -, -, -, live, -⟩ := inserted.list
      exact ⟨_, Context.makings_of_operation live, .inl ⟨[], rfl, rfl⟩⟩
    · obtain ⟨_, _, _, _, -, -, -, -, -, live, -⟩ := inserted.list
      exact ⟨_, Context.makings_of_operation live, .inr ⟨[], rfl, rfl⟩⟩
  | link | unlink | insert | erase | setAttribute | setLocation | requestType | registerKind
  | install | registerBuiltin | registerHw | registerArc =>
    cases (object?_of_not_makes rfl answered).symm.trans given

end Call

namespace Context

variable {ctx : Context} {call : Call} {x : Object}

/-! ## Handles that were given out -/

/-- The object of a handle is there, or it was there and is gone. -/
def Issued (ctx : Context) (x : Object) : Prop :=
  ctx.Live x ∨ ctx.Retired x

theorem Issued.run (issued : ctx.Issued x) (wf : ctx.WellFormed) (call : Call) :
    (call.run ctx).1.Issued x := by
  have changes := Call.run_changes wf call
  rcases issued with live | retired
  · by_cases freed : call.Frees x ctx
    · exact .inr (changes.gone x freed).2
    · exact .inl ((changes.live_iff x).mpr (.inr ⟨live, freed⟩))
  · exact .inr (retired.later (call.run_later ctx))

theorem Issued.after (issued : ctx.Issued x) (wf : ctx.WellFormed) (calls : List Call) :
    (ctx.after calls).Issued x := by
  induction calls generalizing ctx with
  | nil => exact issued
  | cons call calls ih => exact ih (issued.run wf call) (Call.run_wellFormed wf call)

/-- A handle is not given out again. -/
theorem Issued.not_allocates (issued : ctx.Issued x) (wf : ctx.WellFormed) :
    ¬ call.Allocates x ctx := by
  intro allocated
  obtain ⟨fresh, live⟩ := (Call.run_changes wf call).new x allocated
  rcases issued with old | retired
  · exact fresh old
  · exact (retired.later (call.run_later ctx)).not_live live

theorem Issued.not_sometime_allocates (issued : ctx.Issued x) (wf : ctx.WellFormed)
    (calls : List Call) : ¬ Sometime (Call.Allocates x) ctx calls := by
  induction calls generalizing ctx with
  | nil => exact not_sometime_nil
  | cons call calls ih =>
    rw [sometime_cons, not_or]
    exact ⟨issued.not_allocates wf, ih (issued.run wf call) (Call.run_wellFormed wf call)⟩

theorem WellFormed.issued_of_allocates (wf : ctx.WellFormed) (allocated : call.Allocates x ctx) :
    (call.run ctx).1.Issued x :=
  .inl ((Call.run_changes wf call).new x allocated).2

theorem WellFormed.issued_of_sometime (wf : ctx.WellFormed) {calls : List Call}
    (allocated : Sometime (Call.Allocates x) ctx calls) : (ctx.after calls).Issued x := by
  induction allocated with
  | now here => exact (wf.issued_of_allocates here).after (Call.run_wellFormed wf _) _
  | later _ ih => exact ih (Call.run_wellFormed wf _)

/-! ## What is live after a session -/

/-- After a session the objects are there that were there before it or allocated in it, and not
freed in it. -/
theorem WellFormed.live_after_iff (wf : ctx.WellFormed) (calls : List Call) (x : Object) :
    (ctx.after calls).Live x ↔
      (ctx.Live x ∨ Sometime (Call.Allocates x) ctx calls) ∧
        ¬ Sometime (Call.Frees x) ctx calls := by
  induction calls generalizing ctx with
  | nil => simp [Context.after]
  | cons call calls ih =>
    have changes := Call.run_changes wf call
    have wf' := Call.run_wellFormed wf call
    rw [Context.after, ih wf', changes.live_iff, sometime_cons, sometime_cons, not_or]
    by_cases freed : call.Frees x ctx
    · -- It is stale from here on.
      have gone : (call.run ctx).1.Issued x := .inr (changes.gone x freed).2
      have never := gone.not_sometime_allocates wf' calls
      have old : ¬ call.Allocates x ctx := fun allocated =>
        (changes.new x allocated).1 (changes.gone x freed).1
      simp [freed, never, old]
    · tauto

/-- An object that is not freed in a session is after it what it was before. -/
theorem WellFormed.makings_after (wf : ctx.WellFormed) {calls : List Call} (live : ctx.Live x)
    (kept : ¬ Sometime (Call.Frees x) ctx calls) : (ctx.after calls).makings x = ctx.makings x := by
  induction calls generalizing ctx with
  | nil => rfl
  | cons call calls ih =>
    rw [sometime_cons, not_or] at kept
    have changes := Call.run_changes wf call
    have old : ¬ call.Allocates x ctx := fun allocated => (changes.new x allocated).1 live
    have live' := (changes.live_iff x).mpr (.inr ⟨live, kept.1⟩)
    rw [Context.after, ih (Call.run_wellFormed wf call) live' kept.2, changes.kept x old kept.1]

/-! ## Sessions from the beginning -/

theorem not_live_empty (hash : Digest → UInt64) (x : Object) : ¬ (Context.empty hash).Live x := by
  cases x <;> exact nofun

/-- The live objects are those that were allocated and not freed.  A handle is given out once, for
an object that is made as it was asked for; it stands for that object until the object is freed,
and for nothing from then on.  Live operations have different names, and so have live blocks. -/
theorem handles_sound (hash : Digest → UInt64) (calls : List Call) :
    (∀ x, ((Context.empty hash).after calls).Live x ↔
      Sometime (Call.Allocates x) (.empty hash) calls ∧
        ¬ Sometime (Call.Frees x) (.empty hash) calls) ∧
    (∀ x earlier call later, calls = earlier ++ call :: later →
      call.Allocates x ((Context.empty hash).after earlier) →
      ¬ Sometime (Call.Allocates x) (.empty hash) earlier ∧
      ¬ Sometime (Call.Allocates x) ((Context.empty hash).after (earlier ++ [call])) later ∧
      ∃ m, ((Context.empty hash).after (earlier ++ [call])).makings x = some m ∧
        (∀ answer, (call.run ((Context.empty hash).after earlier)).2 = .ok answer →
          answer.object? = some x → call.AsksFor m) ∧
        (¬ Sometime (Call.Frees x) ((Context.empty hash).after (earlier ++ [call])) later →
          ((Context.empty hash).after calls).makings x = some m) ∧
        (Sometime (Call.Frees x) ((Context.empty hash).after (earlier ++ [call])) later →
          ((Context.empty hash).after calls).makings x = none)) ∧
    (∀ op op', ((Context.empty hash).after calls).Live (.operation op) →
      ((Context.empty hash).after calls).Live (.operation op') → op.name = op'.name → op = op') ∧
    ∀ b b', ((Context.empty hash).after calls).Live (.block b) →
      ((Context.empty hash).after calls).Live (.block b') → b.name = b'.name → b = b' := by
  have start := empty_wellFormed hash
  refine ⟨fun x => ?_, fun x earlier call later split allocated => ?_,
    fun _ _ => operation_eq_of_name, fun _ _ => block_eq_of_name⟩
  · rw [start.live_after_iff, or_iff_right (not_live_empty hash x)]
  · subst split
    have before := start.after earlier
    have wf := Call.run_wellFormed before call
    have now : (Context.empty hash).after (earlier ++ [call]) =
      (call.run ((Context.empty hash).after earlier)).1 := after_append _ _ _
    have whole : (Context.empty hash).after (earlier ++ call :: later) =
      (call.run ((Context.empty hash).after earlier)).1.after later := after_append _ _ _
    have live := ((Call.run_changes before call).new x allocated).2
    rw [now, whole]
    refine ⟨fun again => ?_, (before.issued_of_allocates allocated).not_sometime_allocates wf later,
      ?_⟩
    · exact (start.issued_of_sometime again).not_allocates before allocated
    · obtain ⟨m, made⟩ := Option.isSome_iff_exists.mp (live_iff_makings.mp live)
      refine ⟨m, made, fun answer answered given => ?_, fun kept => ?_, fun freed => ?_⟩
      · obtain ⟨m', made', asked⟩ := Call.exists_makings_of_given before answered given
        cases made.symm.trans made'
        exact asked
      · rw [wf.makings_after live kept, made]
      · refine makings_of_not_live fun left => ?_
        exact ((wf.live_after_iff later x).mp left).2 freed

/-- A module that is erased before another one is made. -/
def rebuiltModule : List Call :=
  [.newModule "m", .erase ⟨0, 0⟩, .newModule "n"]

/-- The body of the first module is gone, although that of the second one has its slot and its
name. -/
theorem handles_sound_rebuilt :
    (Context.empty.after rebuiltModule).makings (.block ⟨0, 0⟩) = none ∧
      (Context.empty.after rebuiltModule).makings (.block ⟨0, 1⟩) = some (.block none []) ∧
      (⟨0, 0⟩ : BlockRef).name = (⟨0, 1⟩ : BlockRef).name := by
  let first := ((Call.newModule "m").run .empty).1
  have wf : first.WellFormed := Call.run_wellFormed (empty_wellFormed _) _
  have bodies : first.Listed .blocks ⟨0, 0⟩ [⟨0, 0⟩] := wf.listed_of_members rfl
  have inside : ReflTransGen first.Holds (.operation ⟨0, 0⟩) (.block ⟨0, 0⟩) :=
    .tail (.single (.region rfl List.mem_cons_self)) (.block bodies List.mem_cons_self)
  have allocated : (Call.newModule "m").Allocates (.block ⟨0, 0⟩) .empty :=
    .returned rfl rfl inside
  have freed : (Call.erase ⟨0, 0⟩).Frees (.block ⟨0, 0⟩) first := ⟨⟨0, 0⟩, rfl, ⟨_, rfl⟩, inside⟩
  obtain ⟨-, lifetimes, -, -⟩ := handles_sound Digest.coarseHash rebuiltModule
  obtain ⟨-, -, m, -, -, -, gone⟩ := lifetimes _ [] _ _ rfl allocated
  exact ⟨gone (.now freed), rfl, rfl⟩

end Context

end HardwareIR
