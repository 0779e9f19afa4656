import HardwareIR.Proofs.Context.Ancestor

/-! # Operations in pre-order

An operation comes before what is in its regions, and what is in a block comes in the order of its
list (`Context.Preorder`).  Where no operation is inside itself, every live object has its
operations in that order, and those are the operations that are nested in it, each once.
-/

namespace HardwareIR

open Relation (ReflTransGen TransGen)

namespace Context

variable {ctx : Context} {x y z : Object} {xs : List Object} {ops : List OpRef}

/-- The operations of several objects: of the first one with everything that is nested in it, then
of the others. -/
inductive Preorder (ctx : Context) : List Object → List OpRef → Prop where
  | nil : Preorder ctx [] []
  | operation {op : OpRef} {inner rest : List Object} {nested others : List OpRef} :
      ctx.holdings (.operation op) = .ok inner → Preorder ctx inner nested →
        Preorder ctx rest others → Preorder ctx (.operation op :: rest) (op :: nested ++ others)
  | region {r : RegionRef} {inner rest : List Object} {nested others : List OpRef} :
      ctx.holdings (.region r) = .ok inner → Preorder ctx inner nested →
        Preorder ctx rest others → Preorder ctx (.region r :: rest) (nested ++ others)
  | block {b : BlockRef} {inner rest : List Object} {nested others : List OpRef} :
      ctx.holdings (.block b) = .ok inner → Preorder ctx inner nested →
        Preorder ctx rest others → Preorder ctx (.block b :: rest) (nested ++ others)

/-- There is one order only. -/
theorem Preorder.unique (first : ctx.Preorder xs ops) {ops' : List OpRef}
    (second : ctx.Preorder xs ops') : ops = ops' := by
  induction first generalizing ops' with
  | nil =>
    cases second
    rfl
  | operation holdings _ _ ihNested ihOthers =>
    cases second with
    | operation holdings' nested others =>
      cases holdings.symm.trans holdings'
      rw [ihNested nested, ihOthers others]
  | region holdings _ _ ihNested ihOthers =>
    cases second with
    | region holdings' nested others =>
      cases holdings.symm.trans holdings'
      rw [ihNested nested, ihOthers others]
  | block holdings _ _ ihNested ihOthers =>
    cases second with
    | block holdings' nested others =>
      cases holdings.symm.trans holdings'
      rw [ihNested nested, ihOthers others]

/-! ## Trees -/

/-- The operations of trees are in pre-order. -/
theorem preorder_of_trees {depth : Nat} {ts : List Tree}
    (found : xs.mapM (ctx.treeWithin depth) = .ok ts) :
    ctx.Preorder xs ((Tree.preorderAll ts).filterMap Object.operation?) := by
  induction depth generalizing xs ts with
  | zero =>
    cases xs with
    | nil =>
      cases found
      exact .nil
    | cons x rest =>
      obtain ⟨t, ts', first, -⟩ := Except.mapM_cons_eq_ok.mp found
      cases first
  | succ depth deeper =>
    -- The trees of what an object holds are less deep, those beside it are fewer.
    induction xs generalizing ts with
    | nil =>
      cases found
      exact .nil
    | cons x rest beside =>
      obtain ⟨t, ts', first, others, rfl⟩ := Except.mapM_cons_eq_ok.mp found
      obtain ⟨inner, holdings, first⟩ := Except.bind_eq_ok.mp first
      obtain ⟨subtrees, nested, same⟩ := Except.bind_eq_ok.mp first
      cases same
      rw [Tree.preorderAll, Tree.preorder, List.filterMap_append]
      cases x with
      | operation op => exact .operation holdings (deeper nested) (beside others)
      | region r => exact .region holdings (deeper nested) (beside others)
      | block b => exact .block holdings (deeper nested) (beside others)

theorem preorder_of_tree {t : Tree} (found : ctx.tree x = .ok t) :
    ctx.Preorder [x] (t.preorder.filterMap Object.operation?) := by
  have single : [x].mapM (ctx.treeWithin (ctx.capacity + 1)) = .ok [t] :=
    Except.mapM_cons_eq_ok.mpr ⟨t, [], found, rfl, rfl⟩
  simpa [Tree.preorderAll] using preorder_of_trees single

/-! ## What is nested -/

/-- What is nested in an object is the object itself, or nested in what it holds. -/
theorem WellFormed.below_iff_holdings (wf : ctx.WellFormed) {inner : List Object}
    (holdings : ctx.holdings x = .ok inner) :
    ReflTransGen ctx.Holds x z ↔ x = z ∨ ∃ y ∈ inner, ReflTransGen ctx.Holds y z := by
  rw [ReflTransGen.cases_head_iff]
  simp only [wf.mem_holdings holdings]

theorem Preorder.mem_iff (preorder : ctx.Preorder xs ops) (wf : ctx.WellFormed) {op : OpRef} :
    op ∈ ops ↔ ∃ x ∈ xs, ReflTransGen ctx.Holds x (.operation op) := by
  induction preorder with
  | nil => simp
  | operation holdings _ _ nested others =>
    simp [wf.below_iff_holdings holdings, nested, others, or_assoc, eq_comm]
  | region holdings _ _ nested others =>
    simp [wf.below_iff_holdings holdings, nested, others]
  | block holdings _ _ nested others =>
    simp [wf.below_iff_holdings holdings, nested, others]

/-! ## No operation twice -/

/-- Nothing at all is inside itself. -/
theorem Acyclic.irreflexive (acyclic : ctx.Acyclic) (x : Object) : ¬ TransGen ctx.Holds x x := by
  -- Any way around comes by an operation.
  have region : ∀ r, ¬ TransGen ctx.Holds (.region r) (.region r) := by
    intro r cycle
    obtain ⟨y, below, held⟩ := TransGen.tail'_iff.mp cycle
    cases held with
    | region regions mem => exact acyclic _ (.head' (.region regions mem) below)
  cases x with
  | operation op => exact acyclic op
  | region r => exact region r
  | block b =>
    intro cycle
    obtain ⟨y, below, held⟩ := TransGen.tail'_iff.mp cycle
    cases held with
    | block listed mem => exact region _ (.head' (.block listed mem) below)

/-- An operation that is alone in its pre-order has no operation nested in it. -/
theorem Preorder.nothing_nested {op p : OpRef} (alone : ctx.Preorder [.operation op] [op])
    (wf : ctx.WellFormed) (acyclic : ctx.Acyclic) :
    ¬ TransGen ctx.Holds (.operation op) (.operation p) := by
  intro inside
  have mem := (alone.mem_iff wf).mpr ⟨_, List.mem_cons_self, inside.to_reflTransGen⟩
  obtain rfl := List.mem_singleton.mp mem
  exact acyclic p inside

/-- Objects that are side by side have nothing nested in common. -/
theorem WellFormed.siblings_apart (wf : ctx.WellFormed) (acyclic : ¬ TransGen ctx.Holds x x)
    {y' : Object} (held : ctx.Holds x y) (held' : ctx.Holds x y') (other : y ≠ y')
    (below : ReflTransGen ctx.Holds y z) : ¬ ReflTransGen ctx.Holds y' z := by
  -- Of two objects around a third one is nested in the other, but it has its only holder outside.
  have apart : ∀ {y y'}, ctx.Holds x y → ctx.Holds x y' → y ≠ y' →
      ¬ ReflTransGen ctx.Holds y y' := by
    intro y y' held held' other nested
    rcases ReflTransGen.cases_tail nested with same | ⟨w, inside, last⟩
    · exact other same.symm
    · rw [wf.holder_unique last held'] at inside
      exact acyclic (.head' held inside)
  intro below'
  have unique : Relator.RightUnique (Function.swap ctx.Holds) :=
    fun _ _ _ first second => wf.holder_unique first second
  rcases ReflTransGen.total_of_right_unique unique below.swap below'.swap with inside | inside
  · exact apart held' held other.symm (Relation.reflTransGen_swap.mp inside)
  · exact apart held held' other (Relation.reflTransGen_swap.mp inside)

/-- No object is held twice. -/
theorem WellFormed.nodup_holdings (wf : ctx.WellFormed) {inner : List Object}
    (found : ctx.holdings x = .ok inner) : inner.Nodup := by
  cases x with
  | operation op =>
    rw [holdings_operation, Except.map_eq_ok] at found
    obtain ⟨rs, regions, rfl⟩ := found
    exact (wf.regions regions).1.map fun _ _ same => Object.region.inj same
  | region r =>
    obtain ⟨bs, members, same⟩ := Except.bind_eq_ok.mp found
    cases same
    exact (wf.listed_of_members members).nodup.map fun _ _ same => Object.block.inj same
  | block b =>
    obtain ⟨ops, members, same⟩ := Except.bind_eq_ok.mp found
    cases same
    exact (wf.listed_of_members members).nodup.map fun _ _ same => Object.operation.inj same

/-- Objects have nothing nested in common. -/
def Apart (ctx : Context) (x y : Object) : Prop :=
  ∀ z, ReflTransGen ctx.Holds x z → ¬ ReflTransGen ctx.Holds y z

theorem WellFormed.apart_holdings (wf : ctx.WellFormed) (acyclic : ¬ TransGen ctx.Holds x x)
    {inner : List Object} (found : ctx.holdings x = .ok inner) : inner.Pairwise ctx.Apart := by
  refine (wf.nodup_holdings found).imp_of_mem fun mem mem' other z below => ?_
  exact wf.siblings_apart acyclic ((wf.mem_holdings found).mp mem) ((wf.mem_holdings found).mp mem')
    other below

/-- The operations below an object that is apart from others are none of those below the others. -/
theorem Preorder.disjoint (wf : ctx.WellFormed) {inner rest : List Object}
    {nested others : List OpRef} (holdings : ctx.holdings x = .ok inner)
    (below : ctx.Preorder inner nested) (beside : ctx.Preorder rest others)
    (apart : ∀ y ∈ rest, ctx.Apart x y) : ∀ op ∈ nested, op ∉ others := by
  intro op mem mem'
  obtain ⟨y, held, nested⟩ := (below.mem_iff wf).mp mem
  obtain ⟨y', listed, nested'⟩ := (beside.mem_iff wf).mp mem'
  exact apart y' listed _ ((wf.below_iff_holdings holdings).mpr (.inr ⟨y, held, nested⟩)) nested'

/-- Objects that are apart have each of their operations once. -/
theorem Preorder.nodup (preorder : ctx.Preorder xs ops) (wf : ctx.WellFormed)
    (acyclic : ctx.Acyclic) (apart : xs.Pairwise ctx.Apart) : ops.Nodup := by
  -- What an object holds is apart again, so that the induction can go on inside of it.
  induction preorder with
  | nil => exact List.nodup_nil
  | @operation op inner rest nested others holdings below beside ihNested ihOthers =>
    obtain ⟨first, others'⟩ := List.pairwise_cons.mp apart
    have fresh : op ∉ nested := by
      intro mem
      obtain ⟨y, held, inside⟩ := (below.mem_iff wf).mp mem
      exact acyclic op (.head' ((wf.mem_holdings holdings).mp held) inside)
    have outside : op ∉ others := by
      intro mem
      obtain ⟨y, listed, inside⟩ := (beside.mem_iff wf).mp mem
      exact first y listed _ .refl inside
    rw [List.cons_append, List.nodup_cons, List.mem_append, not_or]
    refine ⟨⟨fresh, outside⟩, ?_⟩
    exact (ihNested (wf.apart_holdings (acyclic.irreflexive _) holdings)).append (ihOthers others')
      (Preorder.disjoint wf holdings below beside first)
  | region holdings below beside nested others =>
    obtain ⟨first, others'⟩ := List.pairwise_cons.mp apart
    exact (nested (wf.apart_holdings (acyclic.irreflexive _) holdings)).append (others others')
      (Preorder.disjoint wf holdings below beside first)
  | block holdings below beside nested others =>
    obtain ⟨first, others'⟩ := List.pairwise_cons.mp apart
    exact (nested (wf.apart_holdings (acyclic.irreflexive _) holdings)).append (others others')
      (Preorder.disjoint wf holdings below beside first)

end Context

end HardwareIR
