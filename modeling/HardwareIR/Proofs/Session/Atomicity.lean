import HardwareIR.Proofs.Context.Deallocation
import HardwareIR.Proofs.Session.WellFormed

/-! # Failing list edits in sessions

An edit of lists that fails changes nothing, although it works on the design in place: at the first
write nothing can go wrong any more.  It fails for handles to freed objects, for nodes that are in a
list where they may not be or are in none where they have to be, and for nothing else
(`ListEdit.Impossible`).
-/

namespace HardwareIR

/-- The edits that put objects into lists or take them out. -/
inductive ListEdit where
  | link (l : Level) (x : Handle l.node) (place : Place l)
  | unlink (l : Level) (x : Handle l.node)
  | insert (point : InsertionPoint) (op : OpRef)
  | erase (op : OpRef)

/-- There is nothing at a place that a node could be put next to or into. -/
def Place.Missing {l : Level} (ctx : Context) : Place l → Prop
  | .front container | .back container => ¬ ctx.Live (.ofContainer l container)
  | .before mark | .after mark =>
    ¬ ctx.Live (.ofNode l mark) ∨ ctx.isLinked l mark = .ok false

namespace ListEdit

def call : ListEdit → Call
  | link l x place => .link l x place
  | unlink l x => .unlink l x
  | insert point op => .insert point op
  | erase op => .erase op

/-- The context after an edit, if there is one. -/
def apply (ctx : Context) : ListEdit → Except Fault Context
  | link l x place => ctx.link l x place
  | unlink l x => ctx.unlink l x
  | insert point op => point.insert ctx op
  | erase op => ctx.erase op

/-- An edit as a program on a design in place. -/
def program : ListEdit → Stepwise Unit
  | link l x place => Stepwise.link l x place
  | unlink l x => Stepwise.unlink l x
  | insert point op => Stepwise.insert point op
  | erase op => Stepwise.erase op

/-- An edit asks for what cannot be done. -/
def Impossible (ctx : Context) : ListEdit → Prop
  | link l x place =>
    ¬ ctx.Live (.ofNode l x) ∨ ctx.isLinked l x = .ok true ∨ place.Missing ctx
  | unlink l x => ¬ ctx.Live (.ofNode l x) ∨ ctx.isLinked l x = .ok false
  | insert point op =>
    match point.place? with
    | some place =>
      ¬ ctx.Live (.operation op) ∨ ctx.isLinked .ops op = .ok true ∨ place.Missing ctx
    | none => True
  | erase op => ¬ ctx.Live (.operation op)

end ListEdit

namespace Context

variable {ctx : Context} {l : Level} {x : Handle l.node}

/-! ## What can be edited -/

theorem isLinked_eq_ok {linked : Bool} :
    ctx.isLinked l x = .ok linked ↔
      ∃ k, ctx.links l x = .ok k ∧ k.container.isSome = linked := by
  simp only [isLinked, Except.bind_eq_ok, Except.pure_eq_ok, Except.ok.injEq]

/-- The free nodes are the live ones that are in no list. -/
theorem WellFormed.free_iff (wf : ctx.WellFormed) :
    ctx.links l x = .ok {} ↔ ctx.Live (.ofNode l x) ∧ ctx.isLinked l x ≠ .ok true := by
  rw [live_ofNode, ne_eq, isLinked_eq_ok]
  constructor
  · intro free
    refine ⟨⟨_, free⟩, ?_⟩
    rintro ⟨k, live, linked⟩
    cases free.symm.trans live
    cases linked
  · rintro ⟨⟨k, live⟩, apart⟩
    cases container : k.container with
    | none => rw [live, wf.unlinked live container]
    | some c => exact absurd ⟨k, live, by rw [container]; rfl⟩ apart

/-- The nodes of lists are the live ones that are not in no list. -/
theorem WellFormed.listed_iff (wf : ctx.WellFormed) :
    (∃ c ys zs, ctx.Listed l c (ys ++ x :: zs)) ↔
      ctx.Live (.ofNode l x) ∧ ctx.isLinked l x ≠ .ok false := by
  rw [live_ofNode, ne_eq, isLinked_eq_ok]
  constructor
  · rintro ⟨c, ys, zs, listed⟩
    refine ⟨⟨_, listed.links ys x zs rfl⟩, ?_⟩
    rintro ⟨k, live, apart⟩
    cases live.symm.trans (listed.links ys x zs rfl)
    cases apart
  · rintro ⟨⟨k, live⟩, linked⟩
    cases container : k.container with
    | none => exact absurd ⟨k, live, by rw [container]; rfl⟩ linked
    | some c =>
      obtain ⟨xs, listed, mem⟩ := wf.linked live container
      obtain ⟨ys, zs, rfl⟩ := List.append_of_mem mem
      exact ⟨c, ys, zs, listed⟩

theorem WellFormed.exists_listed (wf : ctx.WellFormed) {c : Handle l.container} :
    (∃ xs, ctx.Listed l c xs) ↔ ctx.Live (.ofContainer l c) := by
  rw [live_ofContainer]
  constructor
  · rintro ⟨xs, listed⟩
    exact ⟨_, listed.ends⟩
  · rintro ⟨e, live⟩
    exact wf.listed live

/-- A place that is not missing is between two parts of a list. -/
theorem WellFormed.splits_iff (wf : ctx.WellFormed) (place : Place l) :
    (∃ c ys zs, place.Splits c ys zs ∧ ctx.Listed l c (ys ++ zs)) ↔ ¬ place.Missing ctx := by
  cases place with
  | front container =>
    rw [Place.Missing, not_not, ← wf.exists_listed]
    constructor
    · rintro ⟨c, ys, zs, ⟨rfl, rfl⟩, listed⟩
      exact ⟨zs, listed⟩
    · rintro ⟨xs, listed⟩
      exact ⟨container, [], xs, ⟨rfl, rfl⟩, listed⟩
  | back container =>
    rw [Place.Missing, not_not, ← wf.exists_listed]
    constructor
    · rintro ⟨c, ys, zs, ⟨rfl, rfl⟩, listed⟩
      exact ⟨ys, List.append_nil ys ▸ listed⟩
    · rintro ⟨xs, listed⟩
      exact ⟨container, xs, [], ⟨rfl, rfl⟩, (List.append_nil xs).symm ▸ listed⟩
  | before mark =>
    rw [Place.Missing, not_or, not_not, ← ne_eq, ← wf.listed_iff]
    constructor
    · rintro ⟨c, ys, zs, first, listed⟩
      obtain ⟨zs, rfl⟩ := List.head?_eq_some_iff.mp first
      exact ⟨c, ys, zs, listed⟩
    · rintro ⟨c, ys, zs, listed⟩
      exact ⟨c, ys, mark :: zs, rfl, listed⟩
  | after mark =>
    rw [Place.Missing, not_or, not_not, ← ne_eq, ← wf.listed_iff]
    constructor
    · rintro ⟨c, ys, zs, last, listed⟩
      obtain ⟨ys, rfl⟩ := List.getLast?_eq_some_iff.mp last
      exact ⟨c, ys, zs, by simpa using listed⟩
    · rintro ⟨c, ys, zs, listed⟩
      exact ⟨c, ys ++ [mark], zs, List.getLast?_concat, by simpa using listed⟩

theorem WellFormed.exists_link (wf : ctx.WellFormed) (place : Place l) :
    (∃ ctx', ctx.link l x place = .ok ctx') ↔
      ¬ (¬ ctx.Live (.ofNode l x) ∨ ctx.isLinked l x = .ok true ∨ place.Missing ctx) := by
  rw [not_or, not_or, not_not, ← wf.splits_iff, ← and_assoc, ← ne_eq, ← wf.free_iff]
  constructor
  · rintro ⟨ctx', linked⟩
    obtain ⟨free, c, ys, zs, splits, listed, -⟩ := (link_eq_ok wf).mp linked
    exact ⟨free, c, ys, zs, splits, listed⟩
  · rintro ⟨free, c, ys, zs, splits, listed⟩
    exact ⟨_, (link_eq_ok wf).mpr ⟨free, c, ys, zs, splits, listed, rfl⟩⟩

/-- An edit works unless it is impossible. -/
theorem WellFormed.exists_apply (wf : ctx.WellFormed) (edit : ListEdit) :
    (∃ ctx', edit.apply ctx = .ok ctx') ↔ ¬ edit.Impossible ctx := by
  cases edit with
  | link l x place => exact wf.exists_link place
  | unlink l x =>
    simp only [ListEdit.apply, ListEdit.Impossible]
    rw [not_or, not_not, ← ne_eq, ← wf.listed_iff]
    constructor
    · rintro ⟨ctx', unlinked⟩
      obtain ⟨c, ys, zs, listed, -⟩ := (unlink_eq_ok wf).mp unlinked
      exact ⟨c, ys, zs, listed⟩
    · rintro ⟨c, ys, zs, listed⟩
      exact ⟨_, (unlink_eq_ok wf).mpr ⟨c, ys, zs, listed, rfl⟩⟩
  | insert point op =>
    simp only [ListEdit.apply, ListEdit.Impossible, InsertionPoint.insert_eq_ok]
    cases at_place : point.place? with
    | none => simp
    | some place =>
      simp only [Option.some.injEq, exists_eq_left']
      exact wf.exists_link (l := .ops) place
  | erase op =>
    simp only [ListEdit.apply, ListEdit.Impossible, not_not]
    constructor
    · rintro ⟨ctx', erased⟩
      obtain ⟨linked, found, -⟩ := Except.bind_eq_ok.mp erased
      obtain ⟨k, links, -⟩ := isLinked_eq_ok.mp found
      obtain ⟨o, live, -⟩ := operation_of_links links
      exact ⟨o, live⟩
    · rintro ⟨o, live⟩
      obtain ⟨between, t, -, -, -, erased⟩ := wf.erase_eq_ok live
      exact ⟨_, erased⟩

/-! ## Edits in place -/

theorem WellFormed.program_run (wf : ctx.WellFormed) (edit : ListEdit) :
    edit.program ctx = Stepwise.atomically ctx (edit.apply ctx) := by
  cases edit with
  | link l x place => exact Stepwise.link_run wf place
  | unlink l x => exact Stepwise.unlink_run wf
  | insert point op => exact Stepwise.insert_run wf point op
  | erase op => exact Stepwise.erase_run wf

theorem WellFormed.call_run (wf : ctx.WellFormed) (edit : ListEdit) :
    edit.call.run ctx = Call.edited ctx (edit.apply ctx) := by
  cases edit with
  | unlink l x =>
    simp only [ListEdit.call, Call.run, ListEdit.apply]
    cases unlinked : ctx.unlink l x with
    | ok ctx' => rfl
    | error fault => simp only [modifyLinks_of_unlink_eq_error wf unlinked, Call.edited]
  | link l x place => rfl
  | insert point op => rfl
  | erase op => rfl

variable {hash : Digest → UInt64} {calls : List Call}

/-- A list edit fails exactly if it is impossible, and then the whole context is as before, although
the edit works in place.  The call of a session that makes the edit comes to the same. -/
theorem failing_edit_atomic (reached : ctx = (Context.empty hash).after calls) (edit : ListEdit) :
    ((∃ fault ctx', edit.program ctx = .error fault ctx') ↔ edit.Impossible ctx) ∧
    (∀ fault ctx', edit.program ctx = .error fault ctx' →
      ctx' = ctx ∧ edit.call.run ctx = (ctx, .error fault)) ∧
    ∀ ctx', edit.program ctx = .ok () ctx' → edit.call.run ctx = (ctx', .ok .done) := by
  have wf : ctx.WellFormed := reached ▸ (empty_wellFormed hash).after calls
  rw [wf.program_run, wf.call_run]
  have possible := wf.exists_apply edit
  cases applied : edit.apply ctx with
  | ok ctx' =>
    have impossible : ¬ edit.Impossible ctx := possible.mp ⟨ctx', applied⟩
    refine ⟨⟨?_, fun h => absurd h impossible⟩, ?_, ?_⟩
    · rintro ⟨fault, ctx'', failed⟩
      cases failed
    · intro fault ctx'' failed
      cases failed
    · intro ctx'' run
      cases run
      rfl
  | error fault =>
    have impossible : edit.Impossible ctx := by
      by_contra h
      obtain ⟨ctx', works⟩ := possible.mpr h
      rw [applied] at works
      cases works
    refine ⟨⟨fun _ => impossible, fun _ => ⟨fault, ctx, rfl⟩⟩, ?_, ?_⟩
    · intro fault' ctx' failed
      cases failed
      exact ⟨rfl, rfl⟩
    · intro ctx' run
      cases run

/-- A block that is in a region cannot be put before itself. -/
theorem failing_edit_atomic_self :
    ∃ (ctx : Context) (fault : Fault), ctx.members .blocks ⟨0, 0⟩ = .ok [⟨0, 0⟩, ⟨1, 0⟩] ∧
      (ListEdit.link .blocks ⟨1, 0⟩ (.before ⟨1, 0⟩)).Impossible ctx ∧
      (Stepwise.link .blocks ⟨1, 0⟩ (.before ⟨1, 0⟩)).run ctx = .error fault ctx := by
  have reached := rfl (a := Context.empty.after
    [.newModule "m", .newBlock none [], .link .blocks ⟨1, 0⟩ (.back ⟨0, 0⟩)])
  obtain ⟨fails, unchanged, -⟩ :=
    failing_edit_atomic reached (.link .blocks ⟨1, 0⟩ (.before ⟨1, 0⟩))
  have impossible := fails.mpr (.inr (.inl rfl))
  obtain ⟨fault, ctx', failed⟩ := impossible
  obtain ⟨rfl, -⟩ := unchanged fault ctx' failed
  exact ⟨_, fault, rfl, .inr (.inl rfl), failed⟩

end Context

end HardwareIR
