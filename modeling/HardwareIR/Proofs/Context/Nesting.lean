import HardwareIR.Proofs.Context.WellFormed
import Mathlib.Logic.Relation

/-! # What holds what

`Context.Holds` is the relation behind `Context.holdings`: an operation holds its regions, a region
the blocks in its list, and a block the operations in its list.  In a well-formed context all that
is held is live and held by one object only.

A live object has a tree exactly if nothing below it is inside itself
(`Context.WellFormed.tree_ok_iff`), and the objects of the tree are those that it holds at any depth
(`Context.WellFormed.mem_postorder_iff`).
-/

namespace HardwareIR

open Relation (ReflTransGen TransGen)

/-! ## Objects of a tree -/

namespace Tree

theorem mem_postorderAll {ts : List Tree} {y : Object} :
    y ∈ postorderAll ts ↔ ∃ t ∈ ts, y ∈ t.postorder := by
  induction ts with
  | nil => simp [postorderAll]
  | cons t ts ih => simp [postorderAll, ih]

theorem mem_postorder_node {x y : Object} {ts : List Tree} :
    y ∈ (node x ts).postorder ↔ y = x ∨ ∃ t ∈ ts, y ∈ t.postorder := by
  rw [postorder, List.mem_append, mem_postorderAll, List.mem_singleton, or_comm]

end Tree

/-! ## Holding -/

/-- A node of a list, as an object. -/
def Object.ofNode : (l : Level) → Handle l.node → Object
  | .ops, op => .operation op
  | .blocks, b => .block b

/-- A container of a list, as an object. -/
def Object.ofContainer : (l : Level) → Handle l.container → Object
  | .ops, b => .block b
  | .blocks, r => .region r

namespace Object

def operation? : Object → Option OpRef
  | .operation op => some op
  | _ => none

def block? : Object → Option BlockRef
  | .block b => some b
  | _ => none

def region? : Object → Option RegionRef
  | .region r => some r
  | _ => none

theorem operation?_eq_some (x : Object) (op : OpRef) :
    x.operation? = some op ↔ x = .operation op := by
  cases x <;> simp [operation?]

theorem block?_eq_some (x : Object) (b : BlockRef) : x.block? = some b ↔ x = .block b := by
  cases x <;> simp [block?]

theorem region?_eq_some (x : Object) (r : RegionRef) : x.region? = some r ↔ x = .region r := by
  cases x <;> simp [region?]

/-- Every object is of one of the three kinds. -/
theorem length_eq_sum (xs : List Object) :
    xs.length = (xs.filterMap operation?).length + (xs.filterMap block?).length +
      (xs.filterMap region?).length := by
  induction xs with
  | nil => rfl
  | cons x xs ih =>
    cases x <;>
      simp only [List.filterMap_cons, operation?, block?, region?, List.length_cons, ih] <;> omega

end Object

namespace Context

variable {ctx ctx' : Context} {x y z : Object}

/-- An object is directly in another. -/
inductive Holds (ctx : Context) : Object → Object → Prop where
  | region {op : OpRef} {rs : List RegionRef} {r : RegionRef} :
      ctx.regionsOf op = .ok rs → r ∈ rs → Holds ctx (.operation op) (.region r)
  | block {r : RegionRef} {bs : List BlockRef} {b : BlockRef} :
      ctx.Listed .blocks r bs → b ∈ bs → Holds ctx (.region r) (.block b)
  | operation {b : BlockRef} {ops : List OpRef} {op : OpRef} :
      ctx.Listed .ops b ops → op ∈ ops → Holds ctx (.block b) (.operation op)

theorem Listed.holds {l : Level} {c : Handle l.container} {nodes : List (Handle l.node)}
    {node : Handle l.node} (listed : ctx.Listed l c nodes) (mem : node ∈ nodes) :
    ctx.Holds (.ofContainer l c) (.ofNode l node) := by
  cases l with
  | ops => exact .operation listed mem
  | blocks => exact .block listed mem

/-- An object was not freed. -/
def Live (ctx : Context) : Object → Prop
  | .operation op => ∃ o, ctx.operation op = .ok o
  | .region r => ∃ content, ctx.region r = .ok content
  | .block b => ∃ content, ctx.block b = .ok content

theorem holdings_operation (ctx : Context) (op : OpRef) :
    ctx.holdings (.operation op) = (ctx.regionsOf op).map fun rs => rs.map .region := by
  simp only [holdings, regionsOf]
  cases ctx.operation op <;> rfl

/-- Every live object has holdings. -/
theorem WellFormed.exists_holdings (wf : ctx.WellFormed) (live : ctx.Live x) :
    ∃ ys, ctx.holdings x = .ok ys := by
  cases x with
  | operation op =>
    obtain ⟨o, found⟩ := live
    rw [holdings_operation, regionsOf, found]
    exact ⟨_, rfl⟩
  | region r =>
    obtain ⟨content, found⟩ := live
    obtain ⟨bs, listed⟩ := wf.listed (ends_of_region found)
    simp only [holdings, listed.members]
    exact ⟨_, rfl⟩
  | block b =>
    obtain ⟨content, found⟩ := live
    obtain ⟨ops, listed⟩ := wf.listed (ends_of_block found)
    simp only [holdings, listed.members]
    exact ⟨_, rfl⟩

/-- A container with members has the list of them. -/
theorem WellFormed.listed_of_members (wf : ctx.WellFormed) {l : Level} {c : Handle l.container}
    {xs : List (Handle l.node)} (members : ctx.members l c = .ok xs) : ctx.Listed l c xs := by
  cases ends : ctx.ends l c with
  | error fault =>
    simp only [Context.members, Cursor.start, ends] at members
    cases members
  | ok e =>
    obtain ⟨xs', listed⟩ := wf.listed ends
    rw [listed.members] at members
    exact Except.ok.inj members ▸ listed

theorem WellFormed.mem_holdings (wf : ctx.WellFormed) {ys : List Object}
    (found : ctx.holdings x = .ok ys) : y ∈ ys ↔ ctx.Holds x y := by
  cases x with
  | operation op =>
    rw [holdings_operation, Except.map_eq_ok] at found
    obtain ⟨rs, regions, rfl⟩ := found
    constructor
    · intro mem
      obtain ⟨r, on, rfl⟩ := List.mem_map.mp mem
      exact .region regions on
    · intro held
      cases held with
      | region regions' mem =>
        rw [regions] at regions'
        cases regions'
        exact List.mem_map_of_mem mem
  | region r =>
    obtain ⟨bs, members, same⟩ := Except.bind_eq_ok.mp found
    cases same
    have listed := wf.listed_of_members members
    constructor
    · intro mem
      obtain ⟨b, on, rfl⟩ := List.mem_map.mp mem
      exact .block listed on
    · intro held
      cases held with
      | block listed' mem => exact List.mem_map_of_mem (listed'.unique listed ▸ mem)
  | block b =>
    obtain ⟨ops, members, same⟩ := Except.bind_eq_ok.mp found
    cases same
    have listed := wf.listed_of_members members
    constructor
    · intro mem
      obtain ⟨op, on, rfl⟩ := List.mem_map.mp mem
      exact .operation listed on
    · intro held
      cases held with
      | operation listed' mem => exact List.mem_map_of_mem (listed'.unique listed ▸ mem)

theorem WellFormed.live_of_holds (wf : ctx.WellFormed) (held : ctx.Holds x y) : ctx.Live y := by
  cases held with
  | region regions mem =>
    obtain ⟨content, found, -⟩ := Except.map_eq_ok.mp ((wf.regions regions).2 _ mem)
    exact ⟨content, found⟩
  | block listed mem =>
    obtain ⟨k, live, -⟩ := listed.container_of_mem mem
    obtain ⟨content, found, -⟩ := block_of_links live
    exact ⟨content, found⟩
  | operation listed mem =>
    obtain ⟨k, live, -⟩ := listed.container_of_mem mem
    obtain ⟨o, found, -⟩ := operation_of_links live
    exact ⟨o, found⟩

/-- What is nested in a live object is live. -/
theorem WellFormed.live_of_below (wf : ctx.WellFormed) (live : ctx.Live x)
    (below : ReflTransGen ctx.Holds x y) : ctx.Live y := by
  rcases ReflTransGen.cases_tail below with rfl | ⟨z, -, held⟩
  · exact live
  · exact wf.live_of_holds held

/-- Nothing is in two objects. -/
theorem WellFormed.holder_unique (wf : ctx.WellFormed) (first : ctx.Holds x z)
    (second : ctx.Holds y z) : x = y := by
  cases first with
  | region regions mem =>
    cases second with
    | region regions' mem' =>
      have owner := (wf.regions regions).2 _ mem
      rw [(wf.regions regions').2 _ mem'] at owner
      cases owner
      rfl
  | block listed mem =>
    cases second with
    | block listed' mem' =>
      obtain ⟨k, live, container⟩ := listed.container_of_mem mem
      have container' := listed'.eq_of_mem mem' live
      cases container.symm.trans container'
      rfl
  | operation listed mem =>
    cases second with
    | operation listed' mem' =>
      obtain ⟨k, live, container⟩ := listed.container_of_mem mem
      have container' := listed'.eq_of_mem mem' live
      cases container.symm.trans container'
      rfl

/-! ## Trees -/

/-- Of the objects in one arena there are no more than it has slots. -/
theorem length_picked_le {α : Type} {kind : ObjectKind} {a : Arena α} {xs : List Object}
    {pick : Object → Option (Handle kind)} {of : Handle kind → Object}
    (picks : ∀ x h, pick x = some h ↔ x = of h) (nodup : xs.Nodup)
    (live : ∀ h, of h ∈ xs → (a.get? h).isSome) : (xs.filterMap pick).length ≤ a.capacity := by
  refine Arena.length_le_capacity (nodup.filterMap ?_) fun h mem => ?_
  · intro x y h first second
    rw [(picks x h).mp first, (picks y h).mp second]
  · obtain ⟨x, listed, picked⟩ := List.mem_filterMap.mp mem
    exact live h ((picks x h).mp picked ▸ listed)

/-- There are no more live objects than slots. -/
theorem length_le_capacity {xs : List Object} (nodup : xs.Nodup) (live : ∀ x ∈ xs, ctx.Live x) :
    xs.length ≤ ctx.capacity := by
  have few_ops : (xs.filterMap Object.operation?).length ≤ ctx.operations.capacity := by
    refine length_picked_le Object.operation?_eq_some nodup fun op mem => ?_
    obtain ⟨o, found⟩ := live _ mem
    rw [operation_eq_ok.mp found]
    rfl
  have few_blocks : (xs.filterMap Object.block?).length ≤ ctx.blocks.capacity := by
    refine length_picked_le Object.block?_eq_some nodup fun b mem => ?_
    obtain ⟨content, found⟩ := live _ mem
    rw [block_eq_ok.mp found]
    rfl
  have few_regions : (xs.filterMap Object.region?).length ≤ ctx.regions.capacity := by
    refine length_picked_le Object.region?_eq_some nodup fun r mem => ?_
    obtain ⟨content, found⟩ := live _ mem
    rw [region_eq_ok.mp found]
    rfl
  have sum := Object.length_eq_sum xs
  simp only [capacity]
  omega

/-- Below `path` there is room for a tree: the objects of a branch are distinct. -/
theorem WellFormed.treeWithin_ok (wf : ctx.WellFormed) (path : List Object) {depth : Nat}
    (above : ∀ y ∈ path, TransGen ctx.Holds y x) (nodup : (x :: path).Nodup)
    (live : ∀ y ∈ x :: path, ctx.Live y)
    (acyclic : ∀ y, ReflTransGen ctx.Holds x y → ¬ TransGen ctx.Holds y y)
    (room : path.length + depth = ctx.capacity + 1) : ∃ t, ctx.treeWithin depth x = .ok t := by
  -- `path` is the branch above `x`, so that every step down takes one from the depth and adds one
  -- to the path.
  induction depth generalizing x path with
  | zero =>
    -- There would be more live objects on the branch than there are slots.
    have short := length_le_capacity nodup live
    rw [List.length_cons] at short
    omega
  | succ depth ih =>
    obtain ⟨ys, holdings⟩ := wf.exists_holdings (live x List.mem_cons_self)
    have children : ∀ y ∈ ys, ∃ t, ctx.treeWithin depth y = .ok t := by
      intro y mem
      have held := (wf.mem_holdings holdings).mp mem
      have above' : ∀ z ∈ x :: path, TransGen ctx.Holds z y := by
        intro z on
        rcases List.mem_cons.mp on with rfl | further
        · exact .single held
        · exact (above z further).tail held
      -- An object that comes back on its own branch would be inside itself.
      refine ih (x :: path) above' (List.nodup_cons.mpr ⟨fun on => ?_, nodup⟩) ?_ ?_ ?_
      · exact acyclic y (.single held) (above' y on)
      · intro z on
        rcases List.mem_cons.mp on with rfl | further
        · exact wf.live_of_holds held
        · exact live z further
      · exact fun z below => acyclic z (.head held below)
      · rw [List.length_cons]
        omega
    obtain ⟨ts, subtrees⟩ := Except.exists_mapM_ok children
    exact ⟨.node x ts, by simp [treeWithin, holdings, subtrees]⟩

/-- A live object has a tree if nothing below it is inside itself. -/
theorem WellFormed.tree_ok (wf : ctx.WellFormed) (live : ctx.Live x)
    (acyclic : ∀ y, ReflTransGen ctx.Holds x y → ¬ TransGen ctx.Holds y y) :
    ∃ t, ctx.tree x = .ok t :=
  wf.treeWithin_ok [] (by simp) (List.nodup_singleton x) (by simpa using live) acyclic
    (by simp)

/-- Below an object that is nowhere, nothing is inside itself. -/
theorem WellFormed.acyclic_of_not_held (wf : ctx.WellFormed) (top : ∀ y, ¬ ctx.Holds y x)
    (below : ReflTransGen ctx.Holds x z) : ¬ TransGen ctx.Holds z z := by
  induction below with
  | refl =>
    intro cycle
    obtain ⟨y, -, held⟩ := TransGen.tail'_iff.mp cycle
    exact top y held
  | tail _ held ih =>
    -- The way around comes in through the only holder, so it goes around the holder too.
    intro cycle
    obtain ⟨y, around, held'⟩ := TransGen.tail'_iff.mp cycle
    rw [wf.holder_unique held' held] at around
    exact ih (.head' held around)

theorem WellFormed.mem_treeWithin (wf : ctx.WellFormed) {depth : Nat} {t : Tree}
    (found : ctx.treeWithin depth x = .ok t) :
    y ∈ t.postorder ↔ ReflTransGen ctx.Holds x y := by
  induction depth generalizing x t with
  | zero => cases found
  | succ depth ih =>
    obtain ⟨ys, holdings, found⟩ := Except.bind_eq_ok.mp found
    obtain ⟨ts, subtrees, same⟩ := Except.bind_eq_ok.mp found
    cases same
    rw [Tree.mem_postorder_node, ReflTransGen.cases_head_iff, eq_comm]
    refine or_congr Iff.rfl ⟨?_, ?_⟩
    · rintro ⟨t, mem, inside⟩
      obtain ⟨z, child, subtree⟩ := (Except.mem_of_mapM_ok subtrees).mp mem
      exact ⟨z, (wf.mem_holdings holdings).mp child, (ih subtree).mp inside⟩
    · rintro ⟨z, held, below⟩
      have child := (wf.mem_holdings holdings).mpr held
      obtain ⟨t, subtree⟩ := Except.ok_of_mapM_ok subtrees child
      exact ⟨t, (Except.mem_of_mapM_ok subtrees).mpr ⟨z, child, subtree⟩, (ih subtree).mpr below⟩

/-- What has a tree is live. -/
theorem live_of_holdings {ys : List Object} (found : ctx.holdings x = .ok ys) : ctx.Live x := by
  cases x with
  | operation op =>
    obtain ⟨o, live, -⟩ := Except.bind_eq_ok.mp found
    exact ⟨o, live⟩
  | region r =>
    obtain ⟨bs, members, -⟩ := Except.bind_eq_ok.mp found
    obtain ⟨cursor, started, -⟩ := Except.bind_eq_ok.mp members
    obtain ⟨e, ends, -⟩ := Except.bind_eq_ok.mp started
    obtain ⟨content, live, -⟩ := region_of_ends ends
    exact ⟨content, live⟩
  | block b =>
    obtain ⟨ops, members, -⟩ := Except.bind_eq_ok.mp found
    obtain ⟨cursor, started, -⟩ := Except.bind_eq_ok.mp members
    obtain ⟨e, ends, -⟩ := Except.bind_eq_ok.mp started
    obtain ⟨content, live, -⟩ := block_of_ends ends
    exact ⟨content, live⟩

/-- What is in an object has a tree that is less deep. -/
theorem WellFormed.treeWithin_of_below (wf : ctx.WellFormed) {depth : Nat} {t : Tree}
    (found : ctx.treeWithin depth x = .ok t) (below : TransGen ctx.Holds x y) :
    ∃ depth' < depth, ∃ t', ctx.treeWithin depth' y = .ok t' := by
  have step : ∀ {depth x y t}, ctx.treeWithin depth x = .ok t → ctx.Holds x y →
      ∃ depth' < depth, ∃ t', ctx.treeWithin depth' y = .ok t' := by
    intro depth x y t found held
    cases depth with
    | zero => cases found
    | succ depth =>
      obtain ⟨ys, holdings, found⟩ := Except.bind_eq_ok.mp found
      obtain ⟨ts, subtrees, -⟩ := Except.bind_eq_ok.mp found
      have child := (wf.mem_holdings holdings).mpr held
      exact ⟨depth, Nat.lt_succ_self depth, Except.ok_of_mapM_ok subtrees child⟩
  induction below with
  | single held => exact step found held
  | tail _ held ih =>
    obtain ⟨depth', less, t', found'⟩ := ih
    obtain ⟨depth'', less', subtree⟩ := step found' held
    exact ⟨depth'', Nat.lt_trans less' less, subtree⟩

/-- An object inside itself would have trees that are less and less deep. -/
theorem WellFormed.irreflexive_of_treeWithin (wf : ctx.WellFormed) {depth : Nat} {t : Tree}
    (found : ctx.treeWithin depth x = .ok t) : ¬ TransGen ctx.Holds x x := by
  induction depth using Nat.strongRecOn generalizing t with
  | _ depth ih =>
    intro cycle
    obtain ⟨depth', less, t', found'⟩ := wf.treeWithin_of_below found cycle
    exact ih depth' less found' cycle

/-- The objects with a tree are the live ones below which nothing is inside itself. -/
theorem WellFormed.tree_ok_iff (wf : ctx.WellFormed) :
    (∃ t, ctx.tree x = .ok t) ↔
      ctx.Live x ∧ ∀ y, ReflTransGen ctx.Holds x y → ¬ TransGen ctx.Holds y y := by
  constructor
  · rintro ⟨t, found⟩
    obtain ⟨ys, holdings, -⟩ := Except.bind_eq_ok.mp found
    refine ⟨live_of_holdings holdings, fun y below => ?_⟩
    rcases Relation.reflTransGen_iff_eq_or_transGen.mp below with rfl | inside
    · exact wf.irreflexive_of_treeWithin found
    · obtain ⟨depth, -, t', subtree⟩ := wf.treeWithin_of_below found inside
      exact wf.irreflexive_of_treeWithin subtree
  · rintro ⟨live, acyclic⟩
    exact wf.tree_ok live acyclic

/-- The objects of a tree are those that its root holds at any depth. -/
theorem WellFormed.mem_postorder_iff (wf : ctx.WellFormed) {t : Tree} (found : ctx.tree x = .ok t) :
    y ∈ t.postorder ↔ ReflTransGen ctx.Holds x y :=
  wf.mem_treeWithin found

end Context

end HardwareIR
