import HardwareIR.Proofs.Context.Sequences
import HardwareIR.Proofs.Inserter

/-! # Insertions at one point

Operations are inserted one after the other at a point that stays where it is.  Each one goes
between the two parts of a list that the place of the point is between.  Where the point is the
start of a block or after a mark, the place is then ahead of the new operation, and otherwise it is
behind it (`InsertionPoint.splits_next`).  So the operations come out in reverse or in order
(`InsertionPoint.arrange`).
-/

namespace HardwareIR

namespace InsertionPoint

variable {point : InsertionPoint} {place : Place .ops} {b : BlockRef} {op : OpRef}
  {ops ys zs : List OpRef}

/-- Inserts operations at a point, one after the other. -/
def insertAll (ctx : Context) (point : InsertionPoint) (ops : List OpRef) : Except Fault Context :=
  ops.foldlM (fun ctx op => point.insert ctx op) ctx

/-- The order that operations are in after they were inserted one after the other. -/
def arrange : InsertionPoint → List OpRef → List OpRef
  | blockStart _, ops | after _, ops => ops.reverse
  | unset, ops | blockEnd _, ops | before _, ops => ops

@[simp]
theorem arrange_nil : point.arrange [] = [] := by
  cases point <;> rfl

@[simp]
theorem mem_arrange : op ∈ point.arrange ops ↔ op ∈ ops := by
  cases point <;> simp [arrange]

theorem insertAll_cons {ctx ctx' : Context} (inserted : point.insert ctx op = .ok ctx') :
    point.insertAll ctx (op :: ops) = point.insertAll ctx' ops := by
  rw [insertAll, List.foldlM_cons, inserted]
  rfl

/-- Where a point is once an operation was inserted there. -/
theorem splits_next (at_place : point.place? = some place) (splits : place.Splits b ys zs)
    (op : OpRef) :
    ∃ ys' zs', place.Splits b ys' zs' ∧ ys' ++ zs' = ys ++ op :: zs ∧
      ∀ ops, ys' ++ point.arrange ops ++ zs' = ys ++ point.arrange (op :: ops) ++ zs := by
  cases point with
  | unset => cases at_place
  | blockStart _ | after _ =>
    cases at_place
    exact ⟨ys, op :: zs, splits, rfl, fun ops => by simp [arrange]⟩
  | blockEnd _ | before _ =>
    cases at_place
    exact ⟨ys ++ [op], zs, splits, by simp, fun ops => by simp [arrange]⟩

end InsertionPoint

namespace Context

variable {ctx ctx' : Context} {point : InsertionPoint} {place : Place .ops} {b : BlockRef}
  {op : OpRef} {ops ys zs : List OpRef}

/-- A free operation goes to the place of a point and leaves all other free ones free. -/
theorem WellFormed.insert_at (wf : ctx.WellFormed) (listed : ctx.Listed .ops b (ys ++ zs))
    (at_place : point.place? = some place) (splits : place.Splits b ys zs)
    (free : ctx.links .ops op = .ok {}) :
    ∃ ctx', point.insert ctx op = .ok ctx' ∧ ctx'.WellFormed ∧
      ctx'.Listed .ops b (ys ++ op :: zs) ∧
      (∀ c, c ≠ b → ctx'.members .ops c = ctx.members .ops c) ∧
      ∀ other, other ≠ op → ctx.links .ops other = .ok {} → ctx'.links .ops other = .ok {} := by
  have linked := (link_eq_ok wf).mpr ⟨free, b, ys, zs, splits, listed, rfl⟩
  have after := listed_splice free listed listed
  rw [if_pos rfl] at after
  refine ⟨_, InsertionPoint.insert_eq_ok.mpr ⟨place, at_place, linked⟩, wf.splice free listed,
    after, (wf.joined_splice free listed).others, fun other apart free' => ?_⟩
  obtain ⟨notLast, notFirst⟩ := listed.apart free'
  rw [links_splice free' apart, if_neg notFirst, if_neg notLast]

/-- Free operations come out between the two parts of the list, in the order of the point, which
still has the same block. -/
theorem WellFormed.insertAll (wf : ctx.WellFormed) (listed : ctx.Listed .ops b (ys ++ zs))
    (at_place : point.place? = some place) (splits : place.Splits b ys zs) (distinct : ops.Nodup)
    (free : ∀ op ∈ ops, ctx.links .ops op = .ok {}) :
    ∃ ctx', point.insertAll ctx ops = .ok ctx' ∧
      ctx'.Listed .ops b (ys ++ point.arrange ops ++ zs) ∧ point.block? ctx' = .ok (some b) ∧
      ∀ c, c ≠ b → ctx'.members .ops c = ctx.members .ops c := by
  induction ops generalizing ctx ys zs with
  | nil =>
    refine ⟨ctx, rfl, ?_, listed.block?_of_splits at_place splits, fun _ _ => rfl⟩
    rwa [InsertionPoint.arrange_nil, List.append_nil]
  | cons op ops ih =>
    obtain ⟨fresh, distinct⟩ := List.nodup_cons.mp distinct
    obtain ⟨ctx', inserted, wf', listed', others, left⟩ :=
      wf.insert_at listed at_place splits (free op List.mem_cons_self)
    have free' : ∀ other ∈ ops, ctx'.links .ops other = .ok {} := fun other mem =>
      left other (fun same => fresh (same ▸ mem)) (free other (List.mem_cons_of_mem op mem))
    obtain ⟨ys', zs', splits', same, arranged⟩ := InsertionPoint.splits_next at_place splits op
    obtain ⟨last, all, result, block, others'⟩ :=
      ih wf' (same ▸ listed') splits' distinct free'
    exact ⟨last, (InsertionPoint.insertAll_cons inserted).trans all, arranged ops ▸ result, block,
      fun c other => (others' c other).trans (others c other)⟩

end Context

end HardwareIR
