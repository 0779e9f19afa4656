import HardwareIR.Proofs.Context.Makings
import HardwareIR.Proofs.Inserter

/-! # Edits, one write at a time

`Context.link` and `Context.unlink` look at everything that they need before they change anything.
Here the same edits work on a design in place: they look something up, write to one object, and go
on (`Stepwise`).  Every lookup and every write fails for a stale handle, and what was written before
a failure stays written.

In a well-formed context nothing is.  All that is named by a link or by an end of a list is live, so
that the first lookups are the only ones that can fail, and each edit does what its counterpart
does or changes nothing (`Stepwise.link_run`, `Stepwise.unlink_run`, `Stepwise.insert_run`).
-/

namespace HardwareIR

/-- A program that works on a context in place. -/
abbrev Stepwise := EStateM Fault Context

namespace Stepwise

variable {α β : Type} {l : Level}

/-! ## Programs -/

def fail (m : Misuse) : Stepwise α :=
  throw (.misuse m)

/-- Looks something up. -/
def look (find : Context → Except Fault α) : Stepwise α := fun ctx =>
  match find ctx with
  | .ok a => .ok a ctx
  | .error fault => .error fault ctx

def writeLinks (l : Level) (x : Handle l.node) (f : Links l → Links l) : Stepwise Unit := do
  let _ ← look (·.links l x)
  modify (·.modifyLinks l x f)

def writeEnds (l : Level) (c : Handle l.container) (f : Ends l → Ends l) : Stepwise Unit := do
  let _ ← look (·.ends l c)
  modify (·.modifyEnds l c f)

def setNext (l : Level) (container : Handle l.container) (prev next : Option (Handle l.node)) :
    Stepwise Unit :=
  match prev with
  | some p => writeLinks l p fun links => { links with next }
  | none => writeEnds l container fun ends => { ends with head := next }

def setPrev (l : Level) (container : Handle l.container) (prev next : Option (Handle l.node)) :
    Stepwise Unit :=
  match next with
  | some n => writeLinks l n fun links => { links with prev }
  | none => writeEnds l container fun ends => { ends with tail := prev }

/-- Puts `x` between two neighbours, unless it is in a list already. -/
def splice (l : Level) (x : Handle l.node) (container : Handle l.container)
    (prev next : Option (Handle l.node)) : Stepwise Unit := do
  if (← look (·.links l x)).container.isSome then
    fail .alreadyLinked
  else
    setNext l container prev (some x)
    setPrev l container (some x) next
    writeLinks l x fun _ => ⟨prev, next, some container⟩

def pushFront (l : Level) (x : Handle l.node) (container : Handle l.container) :
    Stepwise Unit := do
  let ends ← look (·.ends l container)
  splice l x container none ends.head

def pushBack (l : Level) (x : Handle l.node) (container : Handle l.container) :
    Stepwise Unit := do
  let ends ← look (·.ends l container)
  splice l x container ends.tail none

def insertBefore (l : Level) (x mark : Handle l.node) : Stepwise Unit := do
  let (container, links) ← look (·.neighbourhood l mark)
  splice l x container links.prev (some mark)

def insertAfter (l : Level) (x mark : Handle l.node) : Stepwise Unit := do
  let (container, links) ← look (·.neighbourhood l mark)
  splice l x container (some mark) links.next

/-- Puts `x` at a place. -/
def link (l : Level) (x : Handle l.node) : Place l → Stepwise Unit
  | .front container => pushFront l x container
  | .back container => pushBack l x container
  | .before mark => insertBefore l x mark
  | .after mark => insertAfter l x mark

/-- Takes `x` out of its list.  Its links are gone before it is clear that it is in one. -/
def unlink (l : Level) (x : Handle l.node) : Stepwise Unit := do
  let links ← look (·.links l x)
  modify (·.modifyLinks l x fun _ => {})
  match links.container with
  | none => fail .notLinked
  | some container => do
    setPrev l container links.prev links.next
    setNext l container links.prev links.next

/-- Puts an operation at a point. -/
def insert (point : InsertionPoint) (op : OpRef) : Stepwise Unit :=
  match point with
  | .blockStart b => pushFront .ops op b
  | .blockEnd b => pushBack .ops op b
  | .after mark => insertAfter .ops op mark
  | .before mark => insertBefore .ops op mark
  | .unset => do
    let _ ← look (·.operation op)
    fail (.noInsertionPoint op)

/-! ## Runs -/

variable {ctx ctx' : Context} {find : Context → Except Fault α} {a : α} {fault : Fault}

theorem bind_ok {first : Stepwise α} {rest : α → Stepwise β} (run : first ctx = .ok a ctx') :
    (first >>= rest) ctx = rest a ctx' := by
  simp only [bind, EStateM.bind, run]

theorem bind_error {first : Stepwise α} {rest : α → Stepwise β}
    (run : first ctx = .error fault ctx') : (first >>= rest) ctx = .error fault ctx' := by
  simp only [bind, EStateM.bind, run]

theorem look_ok (found : find ctx = .ok a) : look find ctx = .ok a ctx := by
  simp only [look, found]

/-- The outcome of an edit that changes everything or nothing. -/
def atomically (ctx : Context) : Except Fault Context → EStateM.Result Fault Context Unit
  | .ok ctx' => .ok () ctx'
  | .error fault => .error fault ctx

/-- A lookup leaves the rest of an edit as atomic as it is. -/
theorem look_bind {rest : α → Stepwise Unit} {edit : α → Except Fault Context}
    (run : ∀ a, find ctx = .ok a → rest a ctx = atomically ctx (edit a)) :
    (look find >>= rest) ctx = atomically ctx (find ctx >>= edit) := by
  cases found : find ctx with
  | ok a => exact (bind_ok (look_ok found)).trans (run a found)
  | error fault =>
    have failed : look find ctx = .error fault ctx := by simp only [look, found]
    exact bind_error failed

/-! ## Writes -/

theorem writeLinks_run {x : Handle l.node} {k : Links l} (live : ctx.links l x = .ok k)
    (f : Links l → Links l) : writeLinks l x f ctx = .ok () (ctx.modifyLinks l x f) :=
  bind_ok (look_ok live)

theorem writeEnds_run {c : Handle l.container} {e : Ends l} (live : ctx.ends l c = .ok e)
    (f : Ends l → Ends l) : writeEnds l c f ctx = .ok () (ctx.modifyEnds l c f) :=
  bind_ok (look_ok live)

variable {x : Handle l.node} {c : Handle l.container} {prev next : Option (Handle l.node)}
  {ys zs : List (Handle l.node)}

/-- Whom an edit between two neighbours writes to is live. -/
structure Writable (ctx : Context) (l : Level) (c : Handle l.container)
    (prev next : Option (Handle l.node)) : Prop where
  prev : ∀ p, prev = some p → ctx.Live (.ofNode l p)
  next : ∀ n, next = some n → ctx.Live (.ofNode l n)
  container : ctx.Live (.ofContainer l c)

theorem Writable.of_sameContents (writable : Writable ctx l c prev next)
    (same : Context.SameContents ctx ctx') : Writable ctx' l c prev next where
  prev p at_prev := (same.live _).mpr (writable.prev p at_prev)
  next n at_next := (same.live _).mpr (writable.next n at_next)
  container := (same.live _).mpr writable.container

/-- The nodes of a list are live, and so is what holds the list. -/
theorem Writable.of_listed {xs : List (Handle l.node)} (listed : ctx.Listed l c xs)
    (ys zs : List (Handle l.node)) (before : ys ⊆ xs) (after : zs ⊆ xs) :
    Writable ctx l c ys.getLast? zs.head? := by
  have live : ∀ y ∈ xs, ctx.Live (.ofNode l y) := by
    intro y mem
    obtain ⟨k, links, -⟩ := listed.container_of_mem mem
    exact Context.live_ofNode.mpr ⟨k, links⟩
  exact ⟨fun p last => live p (before (List.mem_of_getLast? last)),
    fun n first => live n (after (List.mem_of_head? first)),
    Context.live_ofContainer.mpr ⟨_, listed.ends⟩⟩

theorem setNext_run (writable : Writable ctx l c prev next) (x : Option (Handle l.node)) :
    setNext l c prev x ctx = .ok () (ctx.setNext l c prev x) := by
  cases prev with
  | some p =>
    obtain ⟨k, live⟩ := Context.live_ofNode.mp (writable.prev p rfl)
    exact writeLinks_run live _
  | none =>
    obtain ⟨e, live⟩ := Context.live_ofContainer.mp writable.container
    exact writeEnds_run live _

theorem setPrev_run (writable : Writable ctx l c prev next) (x : Option (Handle l.node)) :
    setPrev l c x next ctx = .ok () (ctx.setPrev l c x next) := by
  cases next with
  | some n =>
    obtain ⟨k, live⟩ := Context.live_ofNode.mp (writable.next n rfl)
    exact writeLinks_run live _
  | none =>
    obtain ⟨e, live⟩ := Context.live_ofContainer.mp writable.container
    exact writeEnds_run live _

/-! ## Linking -/

/-- Between two live neighbours a splice is done or refused. -/
theorem splice_run (writable : Writable ctx l c prev next) :
    splice l x c prev next ctx = atomically ctx (ctx.linkBetween l x c prev next) := by
  refine look_bind fun k live => ?_
  cases k.container with
  | some c' => rfl
  | none =>
    -- None of the three writes takes away what the next one writes to.
    have first := ctx.setNext_sameContents l c prev (some x)
    have second := Context.setPrev_sameContents (ctx.setNext l c prev (some x)) l c (some x) next
    have free : ((ctx.setNext l c prev (some x)).setPrev l c (some x) next).Live (.ofNode l x) :=
      (second.live _).mpr ((first.live _).mpr (Context.live_ofNode.mpr ⟨k, live⟩))
    obtain ⟨k', live'⟩ := Context.live_ofNode.mp free
    simp only [Option.isSome_none, Bool.false_eq_true, ↓reduceIte]
    rw [bind_ok (setNext_run writable _),
      bind_ok (setPrev_run (writable.of_sameContents first) _), writeLinks_run live']
    rfl

theorem pushFront_run (wf : ctx.WellFormed) :
    pushFront l x c ctx = atomically ctx (ctx.pushFront l x c) := by
  refine look_bind fun e live => ?_
  obtain ⟨xs, listed⟩ := wf.listed live
  obtain rfl := Except.ok.inj (live.symm.trans listed.ends)
  exact splice_run (Writable.of_listed listed [] xs (List.nil_subset xs) (List.Subset.refl xs))

theorem pushBack_run (wf : ctx.WellFormed) :
    pushBack l x c ctx = atomically ctx (ctx.pushBack l x c) := by
  refine look_bind fun e live => ?_
  obtain ⟨xs, listed⟩ := wf.listed live
  obtain rfl := Except.ok.inj (live.symm.trans listed.ends)
  exact splice_run (Writable.of_listed listed xs [] (List.Subset.refl xs) (List.nil_subset xs))

theorem insertBefore_run (wf : ctx.WellFormed) {mark : Handle l.node} :
    insertBefore l x mark ctx = atomically ctx (ctx.insertBefore l x mark) := by
  refine look_bind fun (c, k) found => ?_
  obtain ⟨ys, zs, listed, rfl⟩ := (Context.neighbourhood_eq_ok wf).mp found
  exact splice_run (Writable.of_listed listed ys (mark :: zs) (List.subset_append_left ys _)
    (List.subset_append_right ys _))

theorem insertAfter_run (wf : ctx.WellFormed) {mark : Handle l.node} :
    insertAfter l x mark ctx = atomically ctx (ctx.insertAfter l x mark) := by
  refine look_bind fun (c, k) found => ?_
  obtain ⟨ys, zs, listed, rfl⟩ := (Context.neighbourhood_eq_ok wf).mp found
  rw [List.append_cons] at listed
  have writable := Writable.of_listed listed (ys ++ [mark]) zs (List.subset_append_left _ zs)
    (List.subset_append_right _ zs)
  rw [List.getLast?_concat] at writable
  exact splice_run writable

/-- Linking is done or changes nothing. -/
theorem link_run (wf : ctx.WellFormed) (place : Place l) :
    link l x place ctx = atomically ctx (ctx.link l x place) := by
  cases place with
  | front container => exact pushFront_run wf
  | back container => exact pushBack_run wf
  | before mark => exact insertBefore_run wf
  | after mark => exact insertAfter_run wf

/-- Inserting is done or changes nothing. -/
theorem insert_run (wf : ctx.WellFormed) (point : InsertionPoint) (op : OpRef) :
    insert point op ctx = atomically ctx (point.insert ctx op) := by
  cases point with
  | unset => exact look_bind fun _ _ => rfl
  | blockStart b => exact pushFront_run wf
  | blockEnd b => exact pushBack_run wf
  | after mark => exact insertAfter_run wf
  | before mark => exact insertBefore_run wf

/-! ## Unlinking -/

/-- A node of a list is taken out of it. -/
theorem unlink_of_listed (listed : ctx.Listed l c (ys ++ x :: zs)) :
    unlink l x ctx = .ok () (ctx.bypass l x c ys.getLast? zs.head?) := by
  have cleared := ctx.modifyLinks_sameContents l x fun _ => {}
  have closed := Context.setPrev_sameContents (ctx.modifyLinks l x fun _ => {}) l c ys.getLast?
    zs.head?
  have writable := Writable.of_listed listed ys zs (List.subset_append_left ys _)
    (List.Subset.trans (List.subset_cons_self x zs) (List.subset_append_right ys _))
  unfold unlink
  rw [bind_ok (look_ok (listed.links ys x zs rfl))]
  change (setPrev l c ys.getLast? zs.head? >>= fun _ => setNext l c ys.getLast? zs.head?)
    (ctx.modifyLinks l x fun _ => {}) = _
  rw [bind_ok (setPrev_run (writable.of_sameContents cleared) _),
    setNext_run (writable.of_sameContents (cleared.trans closed)) _]
  rfl

/-- Unlinking is done or changes nothing: where it fails after the links were cleared, they had been
empty. -/
theorem unlink_run (wf : ctx.WellFormed) :
    unlink l x ctx = atomically ctx (ctx.unlink l x) := by
  refine look_bind fun k live => ?_
  cases container : k.container with
  | none =>
    have refused : ctx.unlink l x = .error (.misuse .notLinked) := by
      rw [Context.unlink, live, Except.bind_ok, container]
      rfl
    change (fail .notLinked : Stepwise Unit) (ctx.modifyLinks l x fun _ => {}) = _
    rw [Context.modifyLinks_of_unlink_eq_error wf refused]
    rfl
  | some c =>
    obtain ⟨xs, listed, mem⟩ := wf.linked live container
    obtain ⟨ys, zs, rfl⟩ := List.append_of_mem mem
    obtain rfl := Except.ok.inj (live.symm.trans (listed.links ys x zs rfl))
    have run := unlink_of_listed listed
    unfold unlink at run
    rw [bind_ok (look_ok live)] at run
    exact run

end Stepwise

end HardwareIR
