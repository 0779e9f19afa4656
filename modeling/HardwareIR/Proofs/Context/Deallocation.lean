import HardwareIR.Proofs.Context.Preorder
import HardwareIR.Proofs.Context.Slots
import HardwareIR.Proofs.Context.Stepwise

/-! # Deallocation, one object at a time

`Context.erase` looks at the whole tree of an operation and then frees what is in it.  A design in
place is taken apart instead: an operation gives up its regions, a list gives up its nodes one by
one, and each object is freed once it owns nothing (`Stepwise.deallocWithin`).

The two end in the same context, vacant slots included.  What is taken apart differs on the way from
what it was, but only in objects that are going to be freed (`Context.SameBut`), and the part that
is still to be done is as it was (`Context.Intact`).
-/

namespace HardwareIR

open Relation (ReflTransGen TransGen)

/-! ## Programs -/

namespace Stepwise

/-- Takes a node out of its list and deallocates it. -/
def discard (dealloc : Object → Stepwise Unit) (l : Level) (x : Handle l.node) :
    Stepwise Unit := do
  unlink l x
  dealloc (.ofNode l x)

/-- Discards the nodes of a list, one after the other. -/
def drain (dealloc : Object → Stepwise Unit) (l : Level) (c : Handle l.container) :
    Stepwise Unit := do
  let nodes ← look (·.members l c)
  nodes.forM (discard dealloc l)

/-- Deallocates what an object owns. -/
def deallocOwned (dealloc : Object → Stepwise Unit) : Object → Stepwise Unit
  | .operation op => do
    let o ← look (·.operation op)
    modify (·.modifyOperation op fun o => { o with regions := [] })
    o.regions.forM fun r => dealloc (.region r)
  | .region r => drain dealloc .blocks r
  | .block b => drain dealloc .ops b

/-- Deallocates an object after what it owns, if that is nested at most so deep. -/
def deallocWithin : Nat → Object → Stepwise Unit
  | 0, _ => fail .endless
  | depth + 1, x => do
    deallocOwned (deallocWithin depth) x
    modify (·.release x)

/-- Takes an operation out of its block, if it is in one, and deallocates it. -/
def erase (op : OpRef) : Stepwise Unit := do
  let linked ← look (·.isLinked .ops op)
  if linked then
    unlink .ops op
  let ctx ← get
  deallocWithin (ctx.capacity + 1) (.operation op)

end Stepwise

/-! ## Trees without repetition -/

namespace Tree

/-- What is in a tree below its root. -/
def inside : Tree → List Object
  | .node _ children => postorderAll children

theorem postorder_eq (t : Tree) : t.postorder = t.inside ++ [t.root] := by
  cases t
  rw [postorder, inside, root]

theorem root_mem_postorder (t : Tree) : t.root ∈ t.postorder := by
  rw [postorder_eq]
  exact List.mem_append_right _ List.mem_cons_self

theorem mem_postorder_of_inside {t : Tree} {y : Object} (mem : y ∈ t.inside) :
    y ∈ t.postorder := by
  rw [postorder_eq]
  exact List.mem_append_left _ mem

/-- The roots of trees without repetition are in no tree below its root. -/
theorem not_root_of_inside {ts : List Tree} (nodup : (postorderAll ts).Nodup) {t : Tree}
    (mem : t ∈ ts) {y : Object} (below : y ∈ t.inside) : y ∉ ts.map root := by
  induction ts with
  | nil => cases mem
  | cons t' ts ih =>
    rw [postorderAll] at nodup
    obtain ⟨first, others, apart⟩ := List.nodup_append.mp nodup
    rw [List.map_cons, List.mem_cons, not_or]
    rcases List.mem_cons.mp mem with rfl | later
    · constructor
      · rintro rfl
        rw [postorder_eq] at first
        exact (List.nodup_append.mp first).2.2 _ below _ List.mem_cons_self rfl
      · intro root
        obtain ⟨t', listed, rfl⟩ := List.mem_map.mp root
        exact apart _ (mem_postorder_of_inside below) _
          (mem_postorderAll.mpr ⟨t', listed, root_mem_postorder t'⟩) rfl
    · refine ⟨?_, ih others later⟩
      rintro rfl
      exact apart _ (root_mem_postorder t') _
        (mem_postorderAll.mpr ⟨t, later, mem_postorder_of_inside below⟩) rfl

end Tree

namespace Context

variable {ctx ctx' : Context} {x y : Object} {xs : List Object} {t : Tree} {ts : List Tree}
  {depth : Nat}

theorem root_of_treeWithin (found : ctx.treeWithin depth x = .ok t) : t.root = x := by
  cases depth with
  | zero => cases found
  | succ depth =>
    obtain ⟨inner, -, found⟩ := Except.bind_eq_ok.mp found
    obtain ⟨subtrees, -, same⟩ := Except.bind_eq_ok.mp found
    cases same
    rfl

theorem roots_of_mapM (found : xs.mapM (ctx.treeWithin depth) = .ok ts) :
    ts.map Tree.root = xs := by
  induction xs generalizing ts with
  | nil =>
    cases found
    rfl
  | cons x xs ih =>
    obtain ⟨t, rest, first, others, rfl⟩ := Except.mapM_cons_eq_ok.mp found
    rw [List.map_cons, root_of_treeWithin first, ih others]

/-- Trees of objects that are apart have nothing in common. -/
theorem WellFormed.postorderAll_nodup (wf : ctx.WellFormed)
    (found : xs.mapM (ctx.treeWithin depth) = .ok ts) (apart : xs.Pairwise ctx.Apart)
    (each : ∀ t ∈ ts, t.postorder.Nodup) : (Tree.postorderAll ts).Nodup := by
  induction xs generalizing ts with
  | nil =>
    cases found
    exact List.nodup_nil
  | cons x xs ih =>
    obtain ⟨t, rest, first, others, rfl⟩ := Except.mapM_cons_eq_ok.mp found
    obtain ⟨beside, apart⟩ := List.pairwise_cons.mp apart
    rw [Tree.postorderAll]
    refine (each t List.mem_cons_self).append
      (ih others apart fun t' mem => each t' (List.mem_cons_of_mem t mem)) ?_
    intro z mem mem'
    obtain ⟨t', listed, nested'⟩ := Tree.mem_postorderAll.mp mem'
    obtain ⟨y, at_y, subtree⟩ := (Except.mem_of_mapM_ok others).mp listed
    exact beside y at_y z ((wf.mem_treeWithin first).mp mem)
      ((wf.mem_treeWithin subtree).mp nested')

/-- No object is in a tree twice. -/
theorem WellFormed.postorder_nodup (wf : ctx.WellFormed)
    (found : ctx.treeWithin depth x = .ok t) : t.postorder.Nodup := by
  induction depth generalizing x t with
  | zero => cases found
  | succ depth ih =>
    have acyclic := wf.irreflexive_of_treeWithin found
    obtain ⟨inner, holdings, found⟩ := Except.bind_eq_ok.mp found
    obtain ⟨subtrees, nested, same⟩ := Except.bind_eq_ok.mp found
    cases same
    have below : (Tree.postorderAll subtrees).Nodup := by
      refine wf.postorderAll_nodup nested (wf.apart_holdings acyclic holdings) fun t mem => ?_
      obtain ⟨y, -, subtree⟩ := (Except.mem_of_mapM_ok nested).mp mem
      exact ih subtree
    rw [Tree.postorder]
    refine below.append (List.nodup_singleton x) ?_
    intro z mem at_root
    obtain rfl := List.mem_singleton.mp at_root
    obtain ⟨t, listed, inside⟩ := Tree.mem_postorderAll.mp mem
    obtain ⟨y, held, subtree⟩ := (Except.mem_of_mapM_ok nested).mp listed
    have holds := (wf.mem_holdings holdings).mp held
    exact acyclic (.head' holds ((wf.mem_treeWithin subtree).mp inside))

/-! ## Contexts that differ in a few objects -/

/-- Two contexts have the same slots, and the same objects apart from those that `p` names. -/
structure SameBut (p : Object → Prop) (ctx ctx' : Context) : Prop where
  slots : SameSlots ctx ctx'
  operation : ∀ op, ¬ p (.operation op) → ctx'.operation op = ctx.operation op
  block : ∀ b, ¬ p (.block b) → ctx'.block b = ctx.block b
  region : ∀ r, ¬ p (.region r) → ctx'.region r = ctx.region r
  types : ctx'.types = ctx.types
  registry : ctx'.registry = ctx.registry

namespace SameBut

variable {p q : Object → Prop}

theorem refl (ctx : Context) : SameBut p ctx ctx :=
  ⟨.refl ctx, fun _ _ => rfl, fun _ _ => rfl, fun _ _ => rfl, rfl, rfl⟩

theorem trans {ctx'' : Context} (first : SameBut p ctx ctx') (second : SameBut p ctx' ctx'') :
    SameBut p ctx ctx'' where
  slots := first.slots.trans second.slots
  operation op other := (second.operation op other).trans (first.operation op other)
  block b other := (second.block b other).trans (first.block b other)
  region r other := (second.region r other).trans (first.region r other)
  types := second.types.trans first.types
  registry := second.registry.trans first.registry

theorem mono (same : SameBut p ctx ctx') (le : ∀ y, p y → q y) : SameBut q ctx ctx' where
  slots := same.slots
  operation op other := same.operation op fun named => other (le _ named)
  block b other := same.block b fun named => other (le _ named)
  region r other := same.region r fun named => other (le _ named)
  types := same.types
  registry := same.registry

/-- Contexts that differ nowhere are equal. -/
theorem eq (same : SameBut p ctx ctx') (nowhere : ∀ y, ¬ p y) : ctx' = ctx :=
  same.slots.eq (fun op => same.operation op (nowhere _)) (fun b => same.block b (nowhere _))
    (fun r => same.region r (nowhere _)) same.types same.registry

theorem links (same : SameBut p ctx ctx') {l : Level} {n : Handle l.node}
    (other : ¬ p (.ofNode l n)) : ctx'.links l n = ctx.links l n := by
  cases l with
  | ops => rw [links_ops, links_ops, same.operation n other]
  | blocks => rw [links_blocks, links_blocks, same.block n other]

theorem ends (same : SameBut p ctx ctx') {l : Level} {c : Handle l.container}
    (other : ¬ p (.ofContainer l c)) : ctx'.ends l c = ctx.ends l c := by
  cases l with
  | ops => rw [ends_ops, ends_ops, same.block c other]
  | blocks => rw [ends_blocks, ends_blocks, same.region c other]

theorem regionsOf (same : SameBut p ctx ctx') {op : OpRef} (other : ¬ p (.operation op)) :
    ctx'.regionsOf op = ctx.regionsOf op := by
  rw [Context.regionsOf, Context.regionsOf, same.operation op other]

end SameBut

theorem modifyOperation_sameBut (ctx : Context) (op : OpRef) (f : Operation → Operation) :
    SameBut (· = .operation op) ctx (ctx.modifyOperation op f) where
  slots := ctx.modifyOperation_sameSlots op f
  operation op' other := by
    rw [operation_modifyOperation, if_neg fun same => other (congrArg Object.operation same)]
  block _ _ := rfl
  region _ _ := rfl
  types := rfl
  registry := rfl

theorem modifyBlock_sameBut (ctx : Context) (b : BlockRef) (f : Block → Block) :
    SameBut (· = .block b) ctx (ctx.modifyBlock b f) where
  slots := ctx.modifyBlock_sameSlots b f
  operation _ _ := rfl
  block b' other := by
    rw [block_modifyBlock, if_neg fun same => other (congrArg Object.block same)]
  region _ _ := rfl
  types := rfl
  registry := rfl

theorem modifyRegion_sameBut (ctx : Context) (r : RegionRef) (f : Region → Region) :
    SameBut (· = .region r) ctx (ctx.modifyRegion r f) where
  slots := ctx.modifyRegion_sameSlots r f
  operation _ _ := rfl
  block _ _ := rfl
  region r' other := by
    rw [region_modifyRegion, if_neg fun same => other (congrArg Object.region same)]
  types := rfl
  registry := rfl

variable {l : Level} {n : Handle l.node} {c : Handle l.container} {rest : List (Handle l.node)}

theorem modifyLinks_sameBut (ctx : Context) (l : Level) (n : Handle l.node)
    (f : Links l → Links l) : SameBut (· = .ofNode l n) ctx (ctx.modifyLinks l n f) := by
  cases l with
  | ops => exact ctx.modifyOperation_sameBut n _
  | blocks => exact ctx.modifyBlock_sameBut n _

theorem modifyEnds_sameBut (ctx : Context) (l : Level) (c : Handle l.container)
    (f : Ends l → Ends l) : SameBut (· = .ofContainer l c) ctx (ctx.modifyEnds l c f) := by
  cases l with
  | ops => exact ctx.modifyBlock_sameBut c _
  | blocks => exact ctx.modifyRegion_sameBut c _

/-- Taking the first node out of a list writes to the container and to nodes of the list. -/
theorem bypass_sameBut (ctx : Context) (c : Handle l.container) (n : Handle l.node)
    (rest : List (Handle l.node)) :
    SameBut (fun y => y = .ofContainer l c ∨ y ∈ (n :: rest).map (.ofNode l)) ctx
      (ctx.bypass l n c none rest.head?) := by
  have cleared := (ctx.modifyLinks_sameBut l n fun _ => {}).mono
    (q := fun y => y = .ofContainer l c ∨ y ∈ (n :: rest).map (.ofNode l))
    (by rintro y rfl; exact .inr (by simp))
  refine (cleared.trans ?_).trans ((modifyEnds_sameBut _ l c _).mono fun y same => .inl same)
  cases rest with
  | nil => exact (modifyEnds_sameBut _ l c _).mono fun y same => .inl same
  | cons n' rest =>
    refine (modifyLinks_sameBut _ l n' _).mono ?_
    rintro y rfl
    exact .inr (by simp)

/-! ## Freeing -/

theorem SameSlots.release (slots : SameSlots ctx ctx') (x : Object) :
    SameSlots (ctx.release x) (ctx'.release x) := by
  cases x with
  | operation op => exact ⟨slots.operations.erase op, slots.blocks, slots.regions⟩
  | region r => exact ⟨slots.operations, slots.blocks, slots.regions.erase r⟩
  | block b => exact ⟨slots.operations, slots.blocks.erase b, slots.regions⟩

theorem SameSlots.foldl_release (slots : SameSlots ctx ctx') (xs : List Object) :
    SameSlots (xs.foldl Context.release ctx) (xs.foldl Context.release ctx') := by
  induction xs generalizing ctx ctx' with
  | nil => exact slots
  | cons x xs ih => exact ih (slots.release x)

/-- What is freed on both sides makes no difference any more. -/
theorem SameBut.foldl_release {p : Object → Prop} (same : SameBut p ctx ctx') (xs : List Object) :
    SameBut (fun y => p y ∧ y ∉ xs) (xs.foldl release ctx) (xs.foldl release ctx') := by
  have gone := foldl_release_freed ctx xs
  have gone' := foldl_release_freed ctx' xs
  constructor
  case slots => exact same.slots.foldl_release xs
  case operation =>
    intro op other
    rw [gone.operation, gone'.operation]
    split_ifs with freed
    · rfl
    · exact same.operation op fun named => other ⟨named, freed⟩
  case block =>
    intro b other
    rw [gone.block, gone'.block]
    split_ifs with freed
    · rfl
    · exact same.block b fun named => other ⟨named, freed⟩
  case region =>
    intro r other
    rw [gone.region, gone'.region]
    split_ifs with freed
    · rfl
    · exact same.region r fun named => other ⟨named, freed⟩
  case types => rw [gone.types, gone'.types, same.types]
  case registry => rw [gone.registry, gone'.registry, same.registry]

/-! ## What is still to be done -/

/-- The objects of a tree hold each other as the tree says, and no branch has more than `depth` of
them. -/
inductive Intact (ctx : Context) : Nat → Tree → Prop where
  | operation {depth : Nat} {op : OpRef} {rs : List RegionRef} {ts : List Tree} :
      ctx.regionsOf op = .ok rs → ts.map Tree.root = rs.map Object.region →
        (∀ t ∈ ts, Intact ctx depth t) → Intact ctx (depth + 1) (.node (.operation op) ts)
  | container {depth : Nat} {l : Level} {c : Handle l.container} {ns : List (Handle l.node)}
      {ts : List Tree} :
      ctx.Listed l c ns → ts.map Tree.root = ns.map (Object.ofNode l) →
        (∀ t ∈ ts, Intact ctx depth t) → Intact ctx (depth + 1) (.node (.ofContainer l c) ts)

theorem WellFormed.intact (wf : ctx.WellFormed) (found : ctx.treeWithin depth x = .ok t) :
    Intact ctx depth t := by
  induction depth generalizing x t with
  | zero => cases found
  | succ depth ih =>
    obtain ⟨inner, holdings, found⟩ := Except.bind_eq_ok.mp found
    obtain ⟨ts, nested, same⟩ := Except.bind_eq_ok.mp found
    cases same
    have roots := roots_of_mapM nested
    have each : ∀ t ∈ ts, Intact ctx depth t := by
      intro t mem
      obtain ⟨y, -, subtree⟩ := (Except.mem_of_mapM_ok nested).mp mem
      exact ih subtree
    cases x with
    | operation op =>
      rw [holdings_operation, Except.map_eq_ok] at holdings
      obtain ⟨rs, regions, rfl⟩ := holdings
      exact .operation regions roots each
    | region r =>
      obtain ⟨bs, members, same⟩ := Except.bind_eq_ok.mp holdings
      cases same
      exact .container (l := .blocks) (wf.listed_of_members members) roots each
    | block b =>
      obtain ⟨ops, members, same⟩ := Except.bind_eq_ok.mp holdings
      cases same
      exact .container (l := .ops) (wf.listed_of_members members) roots each

/-- Two contexts agree on what is said about a tree.  The links of its root are not part of that. -/
structure Untouched (ctx ctx' : Context) (t : Tree) : Prop where
  regions : ∀ op, .operation op ∈ t.postorder → ctx'.regionsOf op = ctx.regionsOf op
  ends : ∀ (l : Level) (c : Handle l.container), .ofContainer l c ∈ t.postorder →
    ctx'.ends l c = ctx.ends l c
  links : ∀ (l : Level) (n : Handle l.node), .ofNode l n ∈ t.inside → ctx'.links l n = ctx.links l n

theorem Untouched.child (untouched : Untouched ctx ctx' (.node x ts)) (mem : t ∈ ts) :
    Untouched ctx ctx' t := by
  have below : ∀ y ∈ t.postorder, y ∈ (Tree.node x ts).inside :=
    fun y nested => Tree.mem_postorderAll.mpr ⟨t, mem, nested⟩
  refine ⟨fun op nested => ?_, fun l c nested => ?_, fun l n nested => ?_⟩
  · exact untouched.regions op (Tree.mem_postorder_of_inside (below _ nested))
  · exact untouched.ends l c (Tree.mem_postorder_of_inside (below _ nested))
  · exact untouched.links l n (below _ (Tree.mem_postorder_of_inside nested))

theorem Intact.congr (intact : Intact ctx depth t) (untouched : Untouched ctx ctx' t) :
    Intact ctx' depth t := by
  induction intact with
  | @operation depth op rs ts listed roots each ih =>
    have regions := untouched.regions op (Tree.root_mem_postorder _)
    exact .operation (regions.trans listed) roots fun t mem => ih t mem (untouched.child mem)
  | @container depth l c ns ts listed roots each ih =>
    have ends := untouched.ends l c (Tree.root_mem_postorder _)
    refine .container (listed.congr ends fun n mem => ?_) roots
      fun t mem => ih t mem (untouched.child mem)
    have root : Object.ofNode l n ∈ ts.map Tree.root := roots ▸ List.mem_map_of_mem mem
    obtain ⟨t, child, same⟩ := List.mem_map.mp root
    exact untouched.links l n
      (Tree.mem_postorderAll.mpr ⟨t, child, same ▸ Tree.root_mem_postorder t⟩)

theorem SameBut.untouched {p : Object → Prop} (same : SameBut p ctx ctx')
    (apart : ∀ y ∈ t.postorder, ¬ p y) : Untouched ctx ctx' t where
  regions _ nested := same.regionsOf (apart _ nested)
  ends _ _ nested := same.ends (apart _ nested)
  links _ _ nested := same.links (apart _ (Tree.mem_postorder_of_inside nested))

theorem Freed.untouched (gone : Freed ctx ctx' xs) (apart : ∀ y ∈ t.postorder, y ∉ xs) :
    Untouched ctx ctx' t where
  regions op nested := by rw [gone.regionsOf, if_neg (apart _ nested)]
  ends l c nested := by rw [gone.ends, if_neg (apart _ nested)]
  links l n nested := by rw [gone.links, if_neg (apart _ (Tree.mem_postorder_of_inside nested))]

/-- Taking the first node out of a list does not touch the trees of the nodes. -/
theorem bypass_untouched (container : .ofContainer l c ∉ t.postorder)
    (nodes : ∀ y ∈ t.inside, y ∉ (n :: rest).map (Object.ofNode l)) :
    Untouched ctx (ctx.bypass l n c none rest.head?) t where
  regions op _ := (ctx.bypass_beside l n c none rest.head?).regions op
  ends l' c' nested := by
    by_cases level : l' = l
    · subst level
      refine ends_bypass_of_ne ?_
      rintro rfl
      exact container nested
    · exact (ctx.bypass_beside l n c none rest.head?).ends l' level c'
  links l' n' nested := by
    refine (ctx.bypass_sameBut c n rest).links ?_
    rintro (same | listed)
    · exact container (same ▸ Tree.mem_postorder_of_inside nested)
    · exact nodes _ nested listed

end Context

/-! ## Runs -/

namespace Stepwise

variable {ctx : Context} {depth : Nat} {ts : List Tree}

theorem forM_cons {α : Type} {f : α → Stepwise Unit} {a : α} {as : List α} {ctx ctx' : Context}
    (run : f a ctx = .ok () ctx') : (a :: as).forM f ctx = as.forM f ctx' :=
  bind_ok run

/-- Whenever the objects of a tree are as the tree says, deallocating its root frees them in
post-order. -/
def Deallocates (depth : Nat) : Prop :=
  ∀ (ctx : Context) (t : Tree), ctx.Intact depth t → t.postorder.Nodup →
    deallocWithin depth t.root ctx = .ok () (t.postorder.foldl Context.release ctx)

/-- Objects side by side are freed one tree after the other. -/
theorem deallocate_all (deallocates : Deallocates depth) {γ : Type} {f : γ → Object} {cs : List γ}
    (roots : ts.map Tree.root = cs.map f) (intact : ∀ t ∈ ts, ctx.Intact depth t)
    (nodup : (Tree.postorderAll ts).Nodup) :
    cs.forM (fun c => deallocWithin depth (f c)) ctx =
      .ok () ((Tree.postorderAll ts).foldl Context.release ctx) := by
  induction ts generalizing cs ctx with
  | nil =>
    obtain rfl := List.map_eq_nil_iff.mp roots.symm
    rfl
  | cons t ts ih =>
    obtain ⟨c, cs, rfl, first, others⟩ := List.map_eq_cons_iff.mp roots.symm
    rw [Tree.postorderAll] at nodup ⊢
    obtain ⟨nodupFirst, nodupOthers, apart⟩ := List.nodup_append.mp nodup
    have run := deallocates ctx t (intact t List.mem_cons_self) nodupFirst
    rw [forM_cons (first ▸ run), List.foldl_append]
    refine ih others.symm (fun t' mem => ?_) nodupOthers
    have gone := Context.foldl_release_freed ctx t.postorder
    refine (intact t' (List.mem_cons_of_mem t mem)).congr (gone.untouched fun y nested freed => ?_)
    exact apart y freed y (Tree.mem_postorderAll.mpr ⟨t', mem, nested⟩) rfl

variable {l : Level} {c : Handle l.container} {n : Handle l.node} {ns : List (Handle l.node)}
  {t : Tree}

/-- Discarding the first node of a list frees its tree, and leaves a list of the others and their
trees as they were. -/
theorem discard_first (deallocates : Deallocates depth) (listed : ctx.Listed l c (n :: ns))
    (roots : (t :: ts).map Tree.root = (n :: ns).map (Object.ofNode l))
    (intact : ∀ t' ∈ t :: ts, ctx.Intact depth t')
    (outside : .ofContainer l c ∉ Tree.postorderAll (t :: ts))
    (nodup : (Tree.postorderAll (t :: ts)).Nodup) :
    ∃ ctx', ctx' = t.postorder.foldl Context.release (ctx.bypass l n c none ns.head?) ∧
      discard (deallocWithin depth) l n ctx = .ok () ctx' ∧ ctx'.Listed l c ns ∧
      ∀ t' ∈ ts, ctx'.Intact depth t' := by
  obtain ⟨first, others⟩ := List.cons.inj roots
  have split : ctx.Listed l c ([] ++ n :: ns) := listed
  have unlinked : unlink l n ctx = .ok () (ctx.bypass l n c none ns.head?) :=
    unlink_of_listed split
  have short : (ctx.bypass l n c none ns.head?).Listed l c ns := split.bypass
  -- That the node leaves the list touches none of the trees.
  have untouched : ∀ t' ∈ t :: ts, (ctx.bypass l n c none ns.head?).Intact depth t' := by
    intro t' mem
    refine (intact t' mem).congr (Context.bypass_untouched (fun nested => ?_) fun y below => ?_)
    · exact outside (Tree.mem_postorderAll.mpr ⟨t', mem, nested⟩)
    · exact roots ▸ Tree.not_root_of_inside nodup mem below
  rw [Tree.postorderAll] at outside nodup
  obtain ⟨nodupFirst, -, apart⟩ := List.nodup_append.mp nodup
  rw [List.mem_append, not_or] at outside
  have run := deallocates _ t (untouched t List.mem_cons_self) nodupFirst
  have gone := Context.foldl_release_freed (ctx.bypass l n c none ns.head?) t.postorder
  have beside : ∀ t' ∈ ts, ∀ y ∈ t'.postorder, y ∉ t.postorder := fun t' mem y nested freed =>
    apart y freed y (Tree.mem_postorderAll.mpr ⟨t', mem, nested⟩) rfl
  refine ⟨_, rfl, ?_, short.congr ?_ fun m mem => ?_, fun t' mem => ?_⟩
  · rw [discard, bind_ok unlinked, ← first]
    exact run
  · rw [gone.ends, if_neg outside.1]
  · have root : Object.ofNode l m ∈ ts.map Tree.root := others ▸ List.mem_map_of_mem mem
    obtain ⟨t', later, same⟩ := List.mem_map.mp root
    rw [gone.links, if_neg (beside t' later _ (same ▸ t'.root_mem_postorder))]
  · exact (untouched t' (List.mem_cons_of_mem t mem)).congr (gone.untouched (beside t' mem))

/-- A list is discarded from the front.  Of what is left, only the container is not what it was: it
has no list any more. -/
theorem discard_all (deallocates : Deallocates depth) (listed : ctx.Listed l c ns)
    (roots : ts.map Tree.root = ns.map (Object.ofNode l)) (intact : ∀ t ∈ ts, ctx.Intact depth t)
    (outside : .ofContainer l c ∉ Tree.postorderAll ts) (nodup : (Tree.postorderAll ts).Nodup) :
    ∃ ctx', ns.forM (discard (deallocWithin depth) l) ctx = .ok () ctx' ∧
      Context.SameBut (· = .ofContainer l c)
        ((Tree.postorderAll ts).foldl Context.release ctx) ctx' := by
  induction ts generalizing ns ctx with
  | nil =>
    obtain rfl := List.map_eq_nil_iff.mp roots.symm
    exact ⟨ctx, rfl, .refl ctx⟩
  | cons t ts ih =>
    obtain ⟨n, ns, rfl, -, others⟩ := List.map_eq_cons_iff.mp roots.symm
    obtain ⟨_, rfl, run, left, intact⟩ :=
      discard_first deallocates listed roots intact outside nodup
    have below : ∀ y ∈ Tree.postorderAll ts, y ∈ Tree.postorderAll (t :: ts) :=
      fun y mem => List.mem_append_right _ mem
    obtain ⟨ctx', runOthers, same⟩ := ih left others.symm intact (fun mem => outside (below _ mem))
      (List.nodup_append.mp nodup).2.1
    refine ⟨ctx', (forM_cons run).trans runOthers, ?_⟩
    -- The nodes that were written to are freed by now.
    have before := (ctx.bypass_sameBut c n ns).foldl_release (Tree.postorderAll (t :: ts))
    rw [Tree.postorderAll, List.foldl_append, List.foldl_append] at before
    rw [Tree.postorderAll, List.foldl_append]
    refine (before.mono ?_).trans same
    rintro y ⟨container | node, notFreed⟩
    · exact container
    · rw [← roots] at node
      obtain ⟨t', mem, rfl⟩ := List.mem_map.mp node
      exact absurd (Tree.mem_postorderAll.mpr ⟨t', mem, t'.root_mem_postorder⟩) notFreed

/-- Deallocation frees the objects of a tree in post-order. -/
theorem deallocates (depth : Nat) : Deallocates depth := by
  induction depth with
  | zero =>
    intro ctx t intact
    cases intact
  | succ depth ih =>
    intro ctx t intact nodup
    rw [Tree.postorder_eq] at nodup ⊢
    obtain ⟨nodupInside, -, apart⟩ := List.nodup_append.mp nodup
    rw [List.foldl_append]
    cases intact with
    | @operation _ op rs ts listed roots each =>
      obtain ⟨o, live, rfl⟩ := Except.map_eq_ok.mp listed
      -- The operation has no regions any more, but it is freed in the end.
      have taken := ctx.modifyOperation_sameBut op fun o => { o with regions := [] }
      have untouched : ∀ t ∈ ts,
          (ctx.modifyOperation op fun o => { o with regions := [] }).Intact depth t := by
        intro t mem
        refine (each t mem).congr (taken.untouched fun y nested same => ?_)
        exact apart y (Tree.mem_postorderAll.mpr ⟨t, mem, nested⟩) _ List.mem_cons_self same
      have run := deallocate_all ih roots untouched nodupInside
      have owned : deallocOwned (deallocWithin depth) (.operation op) ctx = _ :=
        (bind_ok (look_ok live)).trans run
      have equal := (taken.foldl_release (Tree.postorderAll ts ++ [.operation op])).eq
        (fun y left => left.2 (left.1 ▸ List.mem_append_right _ List.mem_cons_self))
      rw [List.foldl_append, List.foldl_append] at equal
      exact (bind_ok owned).trans (congrArg (EStateM.Result.ok ()) equal)
    | @container _ l c ns ts listed roots each =>
      have outside : .ofContainer l c ∉ Tree.postorderAll ts := fun nested =>
        apart _ nested _ List.mem_cons_self rfl
      obtain ⟨ctx', run, same⟩ := discard_all ih listed roots each outside nodupInside
      have drained : deallocOwned (deallocWithin depth) (.ofContainer l c) ctx = .ok () ctx' := by
        have drained : drain (deallocWithin depth) l c ctx = .ok () ctx' :=
          (bind_ok (look_ok listed.members)).trans run
        cases l with
        | ops => exact drained
        | blocks => exact drained
      have equal := (same.foldl_release [.ofContainer l c]).eq
        (fun y left => left.2 (left.1 ▸ List.mem_cons_self))
      exact (bind_ok drained).trans (congrArg (EStateM.Result.ok ()) equal)

/-! ## Erasing -/

variable {op : OpRef}

/-- An operation that is in no block is freed with its tree. -/
theorem deallocate_free (wf : ctx.WellFormed) (free : ctx.links .ops op = .ok {}) :
    ∃ t, ctx.tree (.operation op) = .ok t ∧
      deallocWithin (ctx.capacity + 1) (.operation op) ctx =
        .ok () (t.postorder.foldl Context.release ctx) := by
  obtain ⟨t, tree⟩ := wf.exists_tree_of_free free
  have run := deallocates _ ctx t (wf.intact tree) (wf.postorder_nodup tree)
  rw [Context.root_of_treeWithin tree] at run
  exact ⟨t, tree, run⟩

/-- Erasing is done or changes nothing. -/
theorem erase_run (wf : ctx.WellFormed) : erase op ctx = atomically ctx (ctx.erase op) := by
  refine look_bind fun linked found => ?_
  obtain ⟨k, live, isSome⟩ := Except.bind_eq_ok.mp found
  obtain rfl := Except.ok.inj isSome
  cases container : k.container with
  | none =>
    obtain rfl := wf.unlinked live container
    obtain ⟨t, tree, run⟩ := deallocate_free wf live
    simp only [Option.isSome_none, Bool.false_eq_true, ↓reduceIte, Except.pure_eq_ok,
      Except.bind_ok, tree]
    exact run
  | some b =>
    obtain ⟨ops, listed, mem⟩ := wf.linked live container
    obtain ⟨ys, zs, rfl⟩ := List.append_of_mem mem
    have unlinked := (Context.unlink_eq_ok wf).mpr ⟨b, ys, zs, listed, rfl⟩
    obtain ⟨t, tree, run⟩ := deallocate_free (wf.unlink unlinked) listed.links_bypass_self
    simp only [Option.isSome_some, ↓reduceIte, unlinked, Except.pure_eq_ok, Except.bind_ok, tree]
    exact (bind_ok (unlink_of_listed listed)).trans run

end Stepwise

end HardwareIR
