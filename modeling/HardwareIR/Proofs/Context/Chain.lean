import HardwareIR.Proofs.Context.Shape

/-! # What list edits write

`Context.splice` and `Context.bypass` write the links of an insertion and of a removal.  This module
says what every node and every container of the level looks like afterwards, and that the other
level is left alone (`Context.SameBeside`).
-/

namespace HardwareIR

namespace Context

variable {ctx ctx' : Context} {l : Level} {x y : Handle l.node} {c c' : Handle l.container}
  {prev next : Option (Handle l.node)}

/-! ## Updates at one level -/

/-- The objects of two contexts are at the same places, except for the lists of one level. -/
structure SameBeside (l : Level) (ctx ctx' : Context) : Prop where
  links : ∀ l', l' ≠ l → ∀ x : Handle l'.node, ctx'.links l' x = ctx.links l' x
  ends : ∀ l', l' ≠ l → ∀ c : Handle l'.container, ctx'.ends l' c = ctx.ends l' c
  regions : ∀ op, ctx'.regionsOf op = ctx.regionsOf op
  owner : ∀ r, ctx'.ownerOf r = ctx.ownerOf r

theorem SameBeside.trans {ctx'' : Context} (first : SameBeside l ctx ctx')
    (second : SameBeside l ctx' ctx'') : SameBeside l ctx ctx'' where
  links l' other x := (second.links l' other x).trans (first.links l' other x)
  ends l' other c := (second.ends l' other c).trans (first.ends l' other c)
  regions op := (second.regions op).trans (first.regions op)
  owner r := (second.owner r).trans (first.owner r)

theorem modifyLinks_beside (ctx : Context) (l : Level) (x : Handle l.node)
    (f : Links l → Links l) : SameBeside l ctx (ctx.modifyLinks l x f) where
  links _ other y := ctx.links_modifyLinks_of_ne other x y f
  ends l' _ c := ctx.ends_modifyLinks l l' x c f
  regions := ctx.regionsOf_modifyLinks l x f
  owner := ctx.ownerOf_modifyLinks l x f

theorem modifyEnds_beside (ctx : Context) (l : Level) (c : Handle l.container)
    (f : Ends l → Ends l) : SameBeside l ctx (ctx.modifyEnds l c f) where
  links l' _ y := ctx.links_modifyEnds l l' c y f
  ends _ other c' := ctx.ends_modifyEnds_of_ne other c c' f
  regions := ctx.regionsOf_modifyEnds l c f
  owner := ctx.ownerOf_modifyEnds l c f

theorem setNext_beside (ctx : Context) (l : Level) (c : Handle l.container)
    (prev next : Option (Handle l.node)) : SameBeside l ctx (ctx.setNext l c prev next) := by
  cases prev with
  | none => exact modifyEnds_beside ctx l c _
  | some p => exact modifyLinks_beside ctx l p _

theorem setPrev_beside (ctx : Context) (l : Level) (c : Handle l.container)
    (prev next : Option (Handle l.node)) : SameBeside l ctx (ctx.setPrev l c prev next) := by
  cases next with
  | none => exact modifyEnds_beside ctx l c _
  | some n => exact modifyLinks_beside ctx l n _

theorem splice_beside (ctx : Context) (l : Level) (x : Handle l.node) (c : Handle l.container)
    (prev next : Option (Handle l.node)) : SameBeside l ctx (ctx.splice l x c prev next) :=
  ((setNext_beside ctx l c _ _).trans (setPrev_beside _ l c _ _)).trans (modifyLinks_beside _ l x _)

theorem bypass_beside (ctx : Context) (l : Level) (x : Handle l.node) (c : Handle l.container)
    (prev next : Option (Handle l.node)) : SameBeside l ctx (ctx.bypass l x c prev next) :=
  ((modifyLinks_beside ctx l x _).trans (setPrev_beside _ l c _ _)).trans (setNext_beside _ l c _ _)

/-! ## What the edits write -/

theorem links_setNext (ctx : Context) (c : Handle l.container) (prev next : Option (Handle l.node))
    (y : Handle l.node) :
    (ctx.setNext l c prev next).links l y =
      if prev = some y then (ctx.links l y).map fun k => { k with next } else ctx.links l y := by
  cases prev with
  | none => simp [setNext, links_modifyEnds]
  | some p =>
    rw [setNext, links_modifyLinks]
    by_cases same : y = p
    · simp [same]
    · simp [same, Ne.symm same]

theorem ends_setNext (ctx : Context) (c c' : Handle l.container)
    (prev next : Option (Handle l.node)) :
    (ctx.setNext l c prev next).ends l c' =
      if prev = none ∧ c' = c then (ctx.ends l c').map fun e => { e with head := next }
      else ctx.ends l c' := by
  cases prev with
  | none =>
    rw [setNext, ends_modifyEnds]
    by_cases same : c' = c <;> simp [same]
  | some p => simp [setNext, ends_modifyLinks]

theorem links_setPrev (ctx : Context) (c : Handle l.container) (prev next : Option (Handle l.node))
    (y : Handle l.node) :
    (ctx.setPrev l c prev next).links l y =
      if next = some y then (ctx.links l y).map fun k => { k with prev } else ctx.links l y := by
  cases next with
  | none => simp [setPrev, links_modifyEnds]
  | some n =>
    rw [setPrev, links_modifyLinks]
    by_cases same : y = n
    · simp [same]
    · simp [same, Ne.symm same]

theorem ends_setPrev (ctx : Context) (c c' : Handle l.container)
    (prev next : Option (Handle l.node)) :
    (ctx.setPrev l c prev next).ends l c' =
      if next = none ∧ c' = c then (ctx.ends l c').map fun e => { e with tail := prev }
      else ctx.ends l c' := by
  cases next with
  | none =>
    rw [setPrev, ends_modifyEnds]
    by_cases same : c' = c <;> simp [same]
  | some n => simp [setPrev, ends_modifyLinks]

/-- The spliced node gets the links that it is given. -/
theorem links_splice_self {k : Links l} (live : ctx.links l x = .ok k) :
    (ctx.splice l x c prev next).links l x = .ok ⟨prev, next, some c⟩ := by
  simp only [splice, links_modifyLinks, ↓reduceIte, links_setPrev, links_setNext, live]
  split_ifs <;> rfl

/-- The neighbours of a spliced node point to it, and all other nodes stay as they are. -/
theorem links_splice {k : Links l} (live : ctx.links l y = .ok k) (other : y ≠ x) :
    (ctx.splice l x c prev next).links l y = .ok
      { k with
        prev := if next = some y then some x else k.prev
        next := if prev = some y then some x else k.next } := by
  simp only [splice, links_modifyLinks, other, ↓reduceIte, links_setPrev, links_setNext, live]
  split_ifs <;> rfl

theorem links_of_splice {k' : Links l} (other : y ≠ x)
    (live : (ctx.splice l x c prev next).links l y = .ok k') :
    ∃ k, ctx.links l y = .ok k ∧ k' =
      { k with
        prev := if next = some y then some x else k.prev
        next := if prev = some y then some x else k.next } := by
  cases before : ctx.links l y with
  | error fault =>
    -- What was stale is stale.
    simp only [splice, links_modifyLinks, other, ↓reduceIte, links_setPrev, links_setNext,
      before] at live
    split_ifs at live <;> cases live
  | ok k =>
    rw [links_splice before other] at live
    exact ⟨k, rfl, (Except.ok.inj live).symm⟩

theorem ends_splice {e : Ends l} (live : ctx.ends l c = .ok e) :
    (ctx.splice l x c prev next).ends l c = .ok
      ⟨if prev = none then some x else e.head, if next = none then some x else e.tail⟩ := by
  simp only [splice, ends_modifyLinks, ends_setPrev, ends_setNext, live, and_true]
  split_ifs <;> rfl

theorem ends_splice_of_ne (other : c' ≠ c) :
    (ctx.splice l x c prev next).ends l c' = ctx.ends l c' := by
  simp only [splice, ends_modifyLinks, ends_setPrev, ends_setNext, other, and_false, ↓reduceIte]

theorem links_bypass_self {k : Links l} (live : ctx.links l x = .ok k) (before : prev ≠ some x)
    (after : next ≠ some x) : (ctx.bypass l x c prev next).links l x = .ok {} := by
  simp only [bypass, links_setNext, before, ↓reduceIte, links_setPrev, after, links_modifyLinks,
    live, Except.map_ok]

theorem links_bypass {k : Links l} (live : ctx.links l y = .ok k) (other : y ≠ x) :
    (ctx.bypass l x c prev next).links l y = .ok
      { k with
        prev := if next = some y then prev else k.prev
        next := if prev = some y then next else k.next } := by
  simp only [bypass, links_setNext, links_setPrev, links_modifyLinks, other, ↓reduceIte, live]
  split_ifs <;> rfl

theorem links_of_bypass {k' : Links l} (other : y ≠ x)
    (live : (ctx.bypass l x c prev next).links l y = .ok k') :
    ∃ k, ctx.links l y = .ok k ∧ k' =
      { k with
        prev := if next = some y then prev else k.prev
        next := if prev = some y then next else k.next } := by
  cases before : ctx.links l y with
  | error fault =>
    simp only [bypass, links_setNext, links_setPrev, links_modifyLinks, other, ↓reduceIte,
      before] at live
    split_ifs at live <;> cases live
  | ok k =>
    rw [links_bypass before other] at live
    exact ⟨k, rfl, (Except.ok.inj live).symm⟩

theorem ends_bypass {e : Ends l} (live : ctx.ends l c = .ok e) :
    (ctx.bypass l x c prev next).ends l c = .ok
      ⟨if prev = none then next else e.head, if next = none then prev else e.tail⟩ := by
  simp only [bypass, ends_setNext, ends_setPrev, ends_modifyLinks, live, and_true]
  split_ifs <;> rfl

theorem ends_bypass_of_ne (other : c' ≠ c) :
    (ctx.bypass l x c prev next).ends l c' = ctx.ends l c' := by
  simp only [bypass, ends_setNext, ends_setPrev, ends_modifyLinks, other, and_false, ↓reduceIte]

end Context

end HardwareIR
