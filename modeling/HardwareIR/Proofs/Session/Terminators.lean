import HardwareIR.Proofs.Session.Verdict

/-! # Terminators of verified blocks

The check of a terminator looks at a single link: nothing may come next.  In a tree that passes, the
links are those of the lists of the blocks and all operations were checked, so that no block has a
terminator that is not its last operation, and hence none has two.
-/

namespace HardwareIR

open Relation (ReflTransGen)

/-! ## Kinds -/

namespace OpKind

/-- The kinds of operations that end their block. -/
def terminators : List OpKind :=
  ((List.finRange catalog.length).filter fun index => (catalog.get index).terminator).map arc

theorem mem_terminators {kind : OpKind} :
    kind ∈ terminators ↔ ∃ index, kind = arc index ∧ (catalog.get index).terminator = true := by
  simp only [terminators, List.mem_map, List.mem_filter, List.mem_finRange, true_and]
  exact exists_congr fun index => by rw [and_comm, eq_comm]

example : terminators.map (fun kind => kind.id.print) = ["arc.output", "arc.vectorize.return"] := by
  decide

end OpKind

/-! ## Lists -/

/-- Of a list without repetitions, only one element can be the last. -/
theorem countP_le_one_of_last {α : Type} [DecidableEq α] {xs : List α} {p : α → Bool}
    (nodup : xs.Nodup) (last : ∀ x ∈ xs, p x = true → xs.getLast? = some x) : xs.countP p ≤ 1 := by
  cases end? : xs.getLast? with
  | none => simp [List.getLast?_eq_none_iff.mp end?]
  | some z =>
    have only : ∀ x ∈ xs, p x = true → (x == z) = true := by
      intro x mem holds
      rw [last x mem holds] at end?
      simpa using end?
    calc
      xs.countP p ≤ xs.count z := List.countP_mono_left only
      _ ≤ 1 := List.nodup_iff_count_le_one.mp nodup z

namespace Context

variable {ctx : Context} {root op : OpRef} {o : Operation} {b : BlockRef}

/-- Whether an operation is of a kind that ends its block. -/
def isTerminator (ctx : Context) (op : OpRef) : Bool :=
  match ctx.operation op with
  | .ok o => OpKind.terminators.any fun kind => kind.id = o.id
  | .error _ => false

theorem isTerminator_iff (live : ctx.operation op = .ok o) :
    ctx.isTerminator op = true ↔ ∃ kind ∈ OpKind.terminators, kind.id = o.id := by
  simp [isTerminator, live]

/-! ## Blocks -/

/-- After a terminator that passes there is no operation. -/
theorem Sound.next_of_terminator (sound : ctx.Sound) (live : ctx.operation op = .ok o)
    (passes : ctx.Passes op) (terminator : ctx.isTerminator op = true) : o.links.next = none := by
  obtain ⟨kind, known, -, passed⟩ := passes
  obtain ⟨kind', mem, called⟩ := (isTerminator_iff live).mp terminator
  obtain rfl : kind = kind' :=
    OpKind.eq_of_id ((sound.id_of_kindOf live known).trans called.symm)
  obtain ⟨index, rfl, last⟩ := OpKind.mem_terminators.mp mem
  exact ((verifyCatalogued_eq_ok_iff live _).mp passed).2 last

/-- The node of a list that has no next one is the last. -/
theorem Listed.getLast?_of_next {l : Level} {c : Handle l.container} {x : Handle l.node}
    {xs : List (Handle l.node)} {k : Links l} (listed : ctx.Listed l c xs) (mem : x ∈ xs)
    (live : ctx.links l x = .ok k) (next : k.next = none) : xs.getLast? = some x := by
  obtain ⟨ys, zs, rfl⟩ := List.append_of_mem mem
  obtain rfl := Except.ok.inj (live.symm.trans (listed.links ys x zs rfl))
  obtain rfl : zs = [] := List.head?_eq_none_iff.mp next
  exact List.getLast?_concat

/-- In a tree that passes, a block has at most one terminator, which is its last operation. -/
theorem verified_terminated (reachable : ctx.Reachable)
    (verified : (ctx.verify (.operation root)).result = .ok ())
    (below : ReflTransGen ctx.Holds (.operation root) (.block b)) :
    ∃ ops, ctx.members .ops b = .ok ops ∧ ops.countP ctx.isTerminator ≤ 1 ∧
      ∀ op ∈ ops, ctx.isTerminator op = true → ops.getLast? = some op := by
  have sound := reachable.sound
  have wf := sound.wellFormed
  obtain ⟨live, -, passes⟩ := wf.verify_eq_ok_iff.mp verified
  obtain ⟨content, found⟩ := wf.live_of_below live below
  obtain ⟨ops, listed⟩ := wf.listed (ends_of_block found)
  have last : ∀ op ∈ ops, ctx.isTerminator op = true → ops.getLast? = some op := by
    intro op mem terminator
    have passes := passes op (below.tail (.operation listed mem))
    obtain ⟨k, links, -⟩ := listed.container_of_mem mem
    obtain ⟨o, live, rfl⟩ := operation_of_links links
    exact listed.getLast?_of_next mem links (sound.next_of_terminator live passes terminator)
  exact ⟨ops, listed.members, countP_le_one_of_last listed.nodup last, last⟩

/-- The module has its terminator behind the definition, and the definition has one of its own. -/
theorem verified_terminated_nested :
    (nestedModule.verify (.operation ⟨0, 0⟩)).result = .ok () ∧
      (∃ ops, nestedModule.members .ops ⟨0, 0⟩ = .ok ops ∧
        nestedModule.isTerminator ⟨2, 0⟩ = true ∧ ops.getLast? = some ⟨2, 0⟩ ∧
        ops.countP nestedModule.isTerminator ≤ 1) ∧
      ∃ ops, nestedModule.members .ops ⟨1, 0⟩ = .ok ops ∧
        nestedModule.isTerminator ⟨3, 0⟩ = true ∧ ops.getLast? = some ⟨3, 0⟩ := by
  have reachable := standard_nestedModule.reachable
  obtain ⟨region, block, define, region', block', -⟩ := holds_nestedModule
  have below : ReflTransGen nestedModule.Holds (.operation ⟨0, 0⟩) (.block ⟨0, 0⟩) :=
    .tail (.single region) block
  have deeper : ReflTransGen nestedModule.Holds (.operation ⟨0, 0⟩) (.block ⟨1, 0⟩) :=
    .tail (.tail (.tail below define) region') block'
  obtain ⟨ops, members, once, last⟩ := verified_terminated reachable verify_nestedModule below
  obtain ⟨ops', members', -, last'⟩ := verified_terminated reachable verify_nestedModule deeper
  cases members
  cases members'
  exact ⟨verify_nestedModule, ⟨_, rfl, by decide, last _ (by simp) (by decide), once⟩,
    _, rfl, by decide, last' _ (by simp) (by decide)⟩

end Context

end HardwareIR
