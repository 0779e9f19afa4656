import HardwareIR.Proofs.Session.Environment
import HardwareIR.Proofs.TypeStore.Unfolding
import Mathlib.Data.Set.Card

/-! # Interning in sessions

Whatever else happens in a session, handles of types are equal exactly if the types that were asked
for are equal with all handles in them unfolded.  Each request is recorded with what it described at
that time; `TypeStore.Recorded` is the invariant that ties the records to the store.
-/

namespace HardwareIR

/-- A type that was asked for. -/
structure TypeRequest where
  type : IRType
  /-- The type without handles, as it was when it was asked for. -/
  described : TypeTree
  answer : TypeRef

namespace Call

/-- The request for a type that a call is, with its answer. -/
def typeRequest? (ctx : Context) (call : Call) : Option TypeRequest :=
  match call, (call.run ctx).2 with
  | requestType type, .ok (.type ty) => some ⟨type, ctx.types.describe type, ty⟩
  | _, _ => none

end Call

namespace Context

/-- The types that are asked for in a session. -/
def typeRequests (ctx : Context) : List Call → List TypeRequest
  | [] => []
  | call :: calls => (call.typeRequest? ctx).toList ++ (call.run ctx).1.typeRequests calls

/-- Every call of a session names only types that were asked for before. -/
def Admits (ctx : Context) : List Call → Prop
  | [] => True
  | call :: calls => (∀ ty ∈ call.typeRefs, ctx.types.Has ty) ∧ (call.run ctx).1.Admits calls

end Context

/-! ## Records -/

namespace TypeStore

variable {s : TypeStore} {past : List TypeRequest} {r r' : TypeRequest}

/-- The store is what came of the requests of the past. -/
structure Recorded (s : TypeStore) (past : List TypeRequest) : Prop where
  grounded : s.Grounded
  unique : s.Unique
  answered : ∀ r ∈ past, s.get r.answer = .ok r.type.folded ∧ s.unfold r.answer = r.described
  requested : ∀ ty, s.Has ty → ∃ r ∈ past, r.answer = ty

theorem empty_recorded (hash : Digest → UInt64) : Recorded { hash } [] where
  grounded := empty_grounded hash
  unique := empty_unique hash
  answered _ mem := absurd mem List.not_mem_nil
  requested _ has := absurd (has_iff.mp has) (Nat.not_lt_zero _)

theorem Recorded.request (recorded : s.Recorded past) {t : IRType}
    (parts : ∀ part ∈ t.typeRefs, s.Has part) :
    (s.request t).2.Recorded (past ++ [⟨t, s.describe t, (s.request t).1⟩]) := by
  have interned : ∀ part ∈ t.folded.typeRefs, s.Has part := fun part mem =>
    parts part (IRType.mem_typeRefs_of_folded mem)
  have grounded := recorded.grounded.add interned
  have found := s.get_add_self t.folded
  have kept {ty : TypeRef} (has : s.Has ty) :
      (s.add t.folded).2.unfold ty = s.unfold ty :=
    recorded.grounded.unfold_of_grown (fun _ _ before => get_add before _) has
  rw [request_eq]
  refine ⟨grounded, recorded.unique.add t.folded, ?_, ?_⟩
  · intro r mem
    rcases List.mem_append.mp mem with old | new
    · obtain ⟨before, described⟩ := recorded.answered r old
      exact ⟨get_add before _, (kept ⟨_, before⟩).trans described⟩
    · rw [List.mem_singleton.mp new]
      refine ⟨found, ?_⟩
      show (s.add t.folded).2.unfold (s.add t.folded).1 = t.folded.unfold s.unfold
      rw [grounded.unfold_eq found]
      exact IRType.unfold_congr fun part mem => kept (interned part mem)
  · intro ty has
    rcases has_add has with old | rfl
    · obtain ⟨r, mem, answer⟩ := recorded.requested ty old
      exact ⟨r, List.mem_append_left _ mem, answer⟩
    · exact ⟨_, List.mem_append_right _ List.mem_cons_self, rfl⟩

/-! ## What the records say -/

theorem Recorded.has (recorded : s.Recorded past) (mem : r ∈ past) : s.Has r.answer :=
  ⟨_, (recorded.answered r mem).1⟩

theorem Recorded.answer_eq_iff (recorded : s.Recorded past) (mem : r ∈ past) (mem' : r' ∈ past) :
    r.answer = r'.answer ↔ r.described = r'.described := by
  rw [← (recorded.answered r mem).2, ← (recorded.answered r' mem').2]
  constructor
  · exact congrArg s.unfold
  · exact unfold_injective recorded.grounded recorded.unique (recorded.has mem) (recorded.has mem')

/-- There are as many types as there were different requests. -/
theorem Recorded.size_eq (recorded : s.Recorded past) :
    s.size = {d | ∃ r ∈ past, r.described = d}.ncard := by
  -- The handles are the numbers below the size, and what they stand for was described.
  have described : {d | ∃ r ∈ past, r.described = d} =
      (fun index => s.unfold ⟨index⟩) '' Finset.range s.size := by
    ext d
    simp only [Set.mem_ofPred_eq, Set.mem_image, Finset.coe_range, Set.mem_Iio]
    constructor
    · rintro ⟨r, mem, rfl⟩
      exact ⟨r.answer.index, has_iff.mp (recorded.has mem), (recorded.answered r mem).2⟩
    · rintro ⟨index, bound, rfl⟩
      obtain ⟨r, mem, answer⟩ := recorded.requested ⟨index⟩ (has_iff.mpr bound)
      exact ⟨r, mem, by rw [← (recorded.answered r mem).2, answer]⟩
  have injective : Set.InjOn (fun index => s.unfold ⟨index⟩) (Finset.range s.size) := by
    intro index mem index' mem' same
    rw [Finset.coe_range, Set.mem_Iio] at mem mem'
    exact congrArg TypeRef.index (unfold_injective recorded.grounded recorded.unique
      (has_iff.mpr mem) (has_iff.mpr mem') same)
  rw [described, injective.ncard_image, Set.ncard_coe_finset, Finset.card_range]

theorem Recorded.find?_integer_iff (recorded : s.Recorded past) {width : UInt32}
    {sign : Signedness} {ty : TypeRef} :
    s.find? (.integer width sign) = some ty ↔
      ∃ r ∈ past, r.answer = ty ∧ r.described = .integer width sign := by
  rw [recorded.unique.find?_eq_some_iff]
  constructor
  · intro found
    obtain ⟨r, mem, rfl⟩ := recorded.requested ty ⟨_, found⟩
    refine ⟨r, mem, rfl, ?_⟩
    rw [← (recorded.answered r mem).2, recorded.grounded.unfold_eq found]
    rfl
  · rintro ⟨r, mem, rfl, described⟩
    obtain ⟨found, unfolded⟩ := recorded.answered r mem
    rw [recorded.grounded.unfold_eq found, described] at unfolded
    rw [found, IRType.eq_integer_of_unfold unfolded]

end TypeStore

/-! ## Sessions -/

namespace Call

variable {ctx : Context} {past : List TypeRequest}

theorem run_recorded (wf : ctx.WellFormed) (recorded : ctx.types.Recorded past) (call : Call)
    (has : ∀ ty ∈ call.typeRefs, ctx.types.Has ty) :
    (call.run ctx).1.types.Recorded (past ++ (call.typeRequest? ctx).toList) := by
  rw [(run_environment wf call).types]
  cases call with
  | requestType type => exact recorded.request has
  | _ =>
    show ctx.types.Recorded (past ++ [])
    rw [List.append_nil]
    exact recorded

end Call

namespace Context

variable {ctx : Context} {past : List TypeRequest}

theorem recorded_after (wf : ctx.WellFormed) (recorded : ctx.types.Recorded past)
    {calls : List Call} (admitted : ctx.Admits calls) :
    (ctx.after calls).types.Recorded (past ++ ctx.typeRequests calls) := by
  induction calls generalizing ctx past with
  | nil =>
    rw [typeRequests, List.append_nil]
    exact recorded
  | cons call calls ih =>
    obtain ⟨has, admitted⟩ := admitted
    rw [typeRequests, ← List.append_assoc]
    exact ih (call.run_wellFormed wf) (call.run_recorded wf recorded has) admitted

/-- Handles are equal exactly if the types that were asked for are equal to any depth, by whatever
hash they are filed: types that have a hash in common are told apart all the same. -/
theorem interning_exact {hash : Digest → UInt64} {calls : List Call}
    (admitted : (Context.empty hash).Admits calls) :
    let types := ((Context.empty hash).after calls).types
    let requests := (Context.empty hash).typeRequests calls
    (∀ r ∈ requests, types.get r.answer = .ok r.type.folded ∧
      types.unfold r.answer = r.described) ∧
    (∀ r ∈ requests, ∀ r' ∈ requests, r.answer = r'.answer ↔ r.described = r'.described) ∧
    types.size = {d | ∃ r ∈ requests, r.described = d}.ncard ∧
    (∀ width sign ty, types.find? (.integer width sign) = some ty ↔
      ∃ r ∈ requests, r.answer = ty ∧ r.described = .integer width sign) ∧
    ∀ ty t, types.get ty = .ok t → types.find? t = some ty := by
  have recorded : ((Context.empty hash).after calls).types.Recorded
      ((Context.empty hash).typeRequests calls) :=
    recorded_after (empty_wellFormed hash) (TypeStore.empty_recorded hash) admitted
  refine ⟨recorded.answered, ?_, recorded.size_eq, ?_, ?_⟩
  · exact fun r mem r' mem' => recorded.answer_eq_iff mem mem'
  · exact fun width sign ty => recorded.find?_integer_iff
  · exact fun ty t found => recorded.unique.find?_eq_some_iff.mpr found

/-- A fixed width, the same width by a literal, a state of it, and a width that is a parameter. -/
def fourRequests : List Call :=
  [.requestType (.integer 16 .signless),
    .requestType (.parametric (.integer ⟨0⟩ ⟨16, 16, by decide⟩)),
    .requestType (.state ⟨0⟩), .requestType (.parametric (.paramRef { text := "w" } ⟨0⟩))]

/-- All types have one hash. -/
def oneHash : Context :=
  .empty fun _ => 0

theorem interning_exact_folded :
    (oneHash.typeRequests fourRequests).map TypeRequest.answer = [⟨0⟩, ⟨0⟩, ⟨1⟩, ⟨2⟩] ∧
      {d | ∃ r ∈ oneHash.typeRequests fourRequests, r.described = d}.ncard = 3 := by
  have admitted : oneHash.Admits fourRequests := by
    refine ⟨fun _ mem => absurd mem List.not_mem_nil, fun ty mem => ?_, fun ty mem => ?_,
      fun ty mem => ?_, trivial⟩
    all_goals
      obtain rfl := List.mem_singleton.mp mem
      exact ⟨.integer 16 .signless, rfl⟩
  obtain ⟨-, -, size, -⟩ := interning_exact admitted
  exact ⟨rfl, size.symm⟩

end Context

end HardwareIR
