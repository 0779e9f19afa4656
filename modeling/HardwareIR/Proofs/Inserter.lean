import HardwareIR.Inserter
import HardwareIR.Proofs.Context.Edit
import HardwareIR.Proofs.Context.Nesting

/-! # Insertion points as places

Inserting at a point is linking at the place that it names (`InsertionPoint.insert_eq_ok`).  A point
has a block unless it is unset or next to an operation outside of all blocks, and a free operation
can be inserted exactly where that block is live.
-/

namespace HardwareIR

namespace InsertionPoint

/-- The place that an insertion point names. -/
def place? : InsertionPoint → Option (Place .ops)
  | .unset => none
  | .blockStart b => some (.front b)
  | .blockEnd b => some (.back b)
  | .after mark => some (.after mark)
  | .before mark => some (.before mark)

/-- An insertion point does not name a freed object. -/
def Live (ctx : Context) : InsertionPoint → Prop
  | .unset => True
  | .blockStart b | .blockEnd b => ctx.Live (.block b)
  | .after mark | .before mark => ctx.Live (.operation mark)

/-- Inserting at a point is linking at its place. -/
theorem insert_eq_ok {ctx ctx' : Context} {point : InsertionPoint} {op : OpRef} :
    point.insert ctx op = .ok ctx' ↔
      ∃ place, point.place? = some place ∧ ctx.link .ops op place = .ok ctx' := by
  cases point with
  | unset => simp [insert, place?, Except.bind_eq_ok, Misuse.throw]
  | blockStart b => simp [insert, place?, Context.link]
  | blockEnd b => simp [insert, place?, Context.link]
  | after mark => simp [insert, place?, Context.link]
  | before mark => simp [insert, place?, Context.link]

end InsertionPoint

namespace Context

variable {ctx ctx' : Context} {point : InsertionPoint} {op mark : OpRef} {b : BlockRef}

/-! ## The block of a point -/

/-- An operation that has a block is in its list. -/
theorem WellFormed.listed_of_mark (wf : ctx.WellFormed)
    (block : (InsertionPoint.after mark).block? ctx = .ok (some b)) :
    ∃ ys zs, ctx.Listed .ops b (ys ++ mark :: zs) := by
  obtain ⟨o, live, container⟩ := Except.bind_eq_ok.mp block
  obtain ⟨ops, listed, mem⟩ := wf.linked (links_of_operation live) (Except.ok.inj container)
  obtain ⟨ys, zs, rfl⟩ := List.append_of_mem mem
  exact ⟨ys, zs, listed⟩

theorem Listed.live_block {ops : List OpRef} (listed : ctx.Listed .ops b ops) :
    ctx.Live (.block b) := by
  obtain ⟨content, found, -⟩ := block_of_ends listed.ends
  exact ⟨content, found⟩

/-- The block of a point is live, unless the point names it. -/
theorem WellFormed.live_of_block? (wf : ctx.WellFormed) (block : point.block? ctx = .ok (some b)) :
    ctx.Live (.block b) ∨ point = .blockStart b ∨ point = .blockEnd b := by
  cases point with
  | unset => cases block
  | blockStart b' =>
    cases block
    exact .inr (.inl rfl)
  | blockEnd b' =>
    cases block
    exact .inr (.inr rfl)
  | after mark =>
    obtain ⟨ys, zs, listed⟩ := wf.listed_of_mark block
    exact .inl listed.live_block
  | before mark =>
    obtain ⟨ys, zs, listed⟩ := wf.listed_of_mark block
    exact .inl listed.live_block

theorem WellFormed.block?_of_live (wf : ctx.WellFormed) (live : point.Live ctx) :
    point.block? ctx = .ok none ∨
      ∃ b, point.block? ctx = .ok (some b) ∧ ctx.Live (.block b) := by
  have beside : ∀ {mark : OpRef}, ctx.Live (.operation mark) →
      (InsertionPoint.after mark).block? ctx = .ok none ∨
        ∃ b, (InsertionPoint.after mark).block? ctx = .ok (some b) ∧ ctx.Live (.block b) := by
    rintro mark ⟨o, found⟩
    cases container : o.links.container with
    | none => exact .inl (by simp [InsertionPoint.block?, found, container])
    | some b =>
      have block : (InsertionPoint.after mark).block? ctx = .ok (some b) := by
        simp [InsertionPoint.block?, found, container]
      obtain ⟨ys, zs, listed⟩ := wf.listed_of_mark block
      exact .inr ⟨b, block, listed.live_block⟩
  cases point with
  | unset => exact .inl rfl
  | blockStart b => exact .inr ⟨b, rfl, live⟩
  | blockEnd b => exact .inr ⟨b, rfl, live⟩
  | after mark => exact beside live
  | before mark => exact beside live

/-- The block of a point is the one whose list its place splits. -/
theorem Listed.block?_of_splits {place : Place .ops} {ys zs : List OpRef}
    (listed : ctx.Listed .ops b (ys ++ zs)) (at_place : point.place? = some place)
    (splits : place.Splits b ys zs) : point.block? ctx = .ok (some b) := by
  -- The mark of a point next to an operation is in the list that it splits.
  have marked : ∀ mark ∈ ys ++ zs, (InsertionPoint.after mark).block? ctx = .ok (some b) := by
    intro mark mem
    obtain ⟨k, links, container⟩ := listed.container_of_mem mem
    obtain ⟨o, found, rfl⟩ := operation_of_links links
    simp [InsertionPoint.block?, found, container]
  cases point with
  | unset => cases at_place
  | blockStart b' =>
    cases at_place
    obtain ⟨rfl, -⟩ := splits
    rfl
  | blockEnd b' =>
    cases at_place
    obtain ⟨rfl, -⟩ := splits
    rfl
  | after mark =>
    cases at_place
    exact marked mark (List.mem_append_left zs (List.mem_of_getLast? splits))
  | before mark =>
    cases at_place
    exact marked mark (List.mem_append_right ys (List.mem_of_head? splits))

/-! ## Insertion -/

/-- A point in a live block is at a place in the list of the block. -/
theorem WellFormed.exists_place (wf : ctx.WellFormed) (block : point.block? ctx = .ok (some b))
    (live : ctx.Live (.block b)) :
    ∃ place ys zs, point.place? = some place ∧ place.Splits b ys zs ∧
      ctx.Listed .ops b (ys ++ zs) := by
  obtain ⟨content, found⟩ := live
  obtain ⟨ops, listed⟩ := wf.listed (ends_of_block found)
  cases point with
  | unset => cases block
  | blockStart b' =>
    cases block
    exact ⟨_, [], ops, rfl, ⟨rfl, rfl⟩, listed⟩
  | blockEnd b' =>
    cases block
    rw [← List.append_nil ops] at listed
    exact ⟨_, ops, [], rfl, ⟨rfl, rfl⟩, listed⟩
  | after mark =>
    obtain ⟨ys, zs, listed⟩ := wf.listed_of_mark block
    rw [List.append_cons] at listed
    exact ⟨_, ys ++ [mark], zs, rfl, List.getLast?_concat, listed⟩
  | before mark =>
    obtain ⟨ys, zs, listed⟩ := wf.listed_of_mark block
    exact ⟨_, ys, mark :: zs, rfl, rfl, listed⟩

/-- A free operation can be inserted into every live block. -/
theorem WellFormed.exists_insert (wf : ctx.WellFormed) (free : ctx.links .ops op = .ok {})
    (block : point.block? ctx = .ok (some b)) (live : ctx.Live (.block b)) :
    ∃ ctx', point.insert ctx op = .ok ctx' := by
  obtain ⟨place, ys, zs, at_place, splits, listed⟩ := wf.exists_place block live
  have linked := (link_eq_ok wf).mpr ⟨free, b, ys, zs, splits, listed, rfl⟩
  exact ⟨_, InsertionPoint.insert_eq_ok.mpr ⟨place, at_place, linked⟩⟩

/-- Insertion puts an operation at the place of the point in the list of its block. -/
theorem WellFormed.insert_eq_splice (wf : ctx.WellFormed)
    (inserted : point.insert ctx op = .ok ctx') :
    ∃ b place ys zs, point.block? ctx = .ok (some b) ∧ point.place? = some place ∧
      place.Splits b ys zs ∧ ctx.Listed .ops b (ys ++ zs) ∧ ctx.links .ops op = .ok {} ∧
      ctx' = ctx.splice .ops op b ys.getLast? zs.head? := by
  obtain ⟨place, at_place, linked⟩ := InsertionPoint.insert_eq_ok.mp inserted
  obtain ⟨free, b, ys, zs, splits, listed, rfl⟩ := (link_eq_ok wf).mp linked
  exact ⟨b, place, ys, zs, listed.block?_of_splits at_place splits, at_place, splits, listed, free,
    rfl⟩

end Context

end HardwareIR
