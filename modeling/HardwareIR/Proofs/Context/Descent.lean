import HardwareIR.Proofs.Context.Verdict

/-! # Checks that descend

`Context.verify` looks at the whole tree of an object and then checks what is in it.  A check can
also descend from object to object: an operation is checked and then its regions, a region by its
blocks and a block by its operations, up to the first failure (`Context.verifyWithin`).

On every object that has a tree the two are the same report, with the same log.
-/

namespace HardwareIR

namespace Context

/-! ## Programs -/

/-- Checks an object and what it holds, given the check of what it holds. -/
def verifyHeld (ctx : Context) (check : Object → Report Unit) : Object → Report Unit
  | .operation op => do
    ctx.verifyOperation op
    let o ← ctx.operation op
    o.regions.forM fun r => check (.region r)
  | .region r => do
    let bs ← ctx.members .blocks r
    bs.forM fun b => check (.block b)
  | .block b => do
    let ops ← ctx.members .ops b
    ops.forM fun op => check (.operation op)

/-- Checks an object and what is nested in it, if that is nested at most so deep. -/
def verifyWithin (ctx : Context) : Nat → Object → Report Unit
  | 0, _ => (Misuse.endless.throw : Except Fault Unit)
  | depth + 1, x => ctx.verifyHeld (ctx.verifyWithin depth) x

variable {ctx : Context} {x : Object} {t : Tree} {ts : List Tree} {depth : Nat}

/-! ## Trees -/

theorem verifyObjects_append (xs ys : List Object) :
    ctx.verifyObjects (xs ++ ys) =
      ctx.verifyObjects xs >>= fun _ => ctx.verifyObjects ys := by
  induction xs with
  | nil => rfl
  | cons x xs ih => rw [List.cons_append, verifyObjects, verifyObjects, ih, Report.bind_assoc]

/-- If single objects are checked like their trees, objects side by side are. -/
theorem forM_eq_verifyObjects {γ : Type} {f : γ → Object} {cs : List γ}
    (found : (cs.map f).mapM (ctx.treeWithin depth) = .ok ts)
    (each : ∀ x t, ctx.treeWithin depth x = .ok t →
      ctx.verifyWithin depth x = ctx.verifyObjects t.preorder) :
    (cs.forM fun c => ctx.verifyWithin depth (f c)) =
      ctx.verifyObjects (Tree.preorderAll ts) := by
  induction cs generalizing ts with
  | nil =>
    cases found
    rfl
  | cons c cs ih =>
    obtain ⟨t, rest, first, others, rfl⟩ := Except.mapM_cons_eq_ok.mp found
    rw [List.forM_eq_forM, List.forM_cons, each (f c) t first, Tree.preorderAll,
      verifyObjects_append, ← ih others]
    rfl

/-- The descent into an object checks the objects of its tree, each before those that it holds. -/
theorem verifyWithin_eq_verifyObjects (found : ctx.treeWithin depth x = .ok t) :
    ctx.verifyWithin depth x = ctx.verifyObjects t.preorder := by
  induction depth generalizing x t with
  | zero => cases found
  | succ depth ih =>
    obtain ⟨inner, holdings, found⟩ := Except.bind_eq_ok.mp found
    obtain ⟨subtrees, nested, same⟩ := Except.bind_eq_ok.mp found
    cases same
    rw [verifyWithin, Tree.preorder, verifyObjects]
    cases x with
    | operation op =>
      obtain ⟨o, live, regions⟩ := Except.bind_eq_ok.mp holdings
      cases regions
      rw [verifyHeld, live, Report.lift_ok_bind, forM_eq_verifyObjects nested fun _ _ => ih]
      rfl
    | region r =>
      obtain ⟨bs, members, blocks⟩ := Except.bind_eq_ok.mp holdings
      cases blocks
      rw [verifyHeld, members, Report.lift_ok_bind, forM_eq_verifyObjects nested fun _ _ => ih]
      rfl
    | block b =>
      obtain ⟨ops, members, operations⟩ := Except.bind_eq_ok.mp holdings
      cases operations
      rw [verifyHeld, members, Report.lift_ok_bind, forM_eq_verifyObjects nested fun _ _ => ih]
      rfl

/-! ## Objects -/

/-- Descending into an object that has a tree is checking it. -/
theorem verifyWithin_eq_verify (tree : ctx.tree x = .ok t) :
    ctx.verifyWithin (ctx.capacity + 1) x = ctx.verify x := by
  rw [verifyWithin_eq_verifyObjects tree, verify, tree, Report.lift_ok_bind]

/-- Where no operation is inside itself, every live object can be descended into. -/
theorem WellFormed.verifyWithin_eq_verify (wf : ctx.WellFormed) (acyclic : ctx.Acyclic)
    (live : ctx.Live x) : ctx.verifyWithin (ctx.capacity + 1) x = ctx.verify x := by
  obtain ⟨t, tree⟩ := wf.tree_ok live fun y _ => acyclic.irreflexive y
  exact Context.verifyWithin_eq_verify tree

end Context

end HardwareIR
