import HardwareIR.Proofs.Context.Erasure
import HardwareIR.Proofs.Materialization.Effect
import HardwareIR.Proofs.Session.Basic

/-! # Contexts stay well-formed

Every call keeps a well-formed context well-formed, whether it fails or not, so that contexts are
well-formed after every session.  Read without the invariant, that is `Context.Chained`: walks from
either end of a list meet exactly the nodes that name its container, and regions and operations
name each other.
-/

namespace HardwareIR

namespace Context

variable {ctx : Context}

/-! ## Types and dialects -/

/-- The objects do not depend on the types nor on what is known about dialects. -/
theorem WellFormed.of_sameObjects (wf : ctx.WellFormed) (types : TypeStore) (registry : Registry) :
    ({ ctx with types, registry } : Context).WellFormed := by
  refine wf.of_sameShape ⟨?_, ?_, fun _ => rfl, fun _ => rfl⟩
  · intro l x
    cases l <;> rfl
  · intro l c
    cases l <;> rfl

end Context

/-! ## Calls -/

namespace Call

variable {ctx : Context}

theorem edited_wellFormed (wf : ctx.WellFormed) {result : Except Fault Context}
    (keeps : ∀ ctx', result = .ok ctx' → ctx'.WellFormed) : (edited ctx result).1.WellFormed := by
  cases result with
  | ok ctx' => exact keeps ctx' rfl
  | error fault => exact wf

theorem newWithBodies_wellFormed (wf : ctx.WellFormed) {id : QualifiedName}
    {resultTypes : List TypeRef} {operands : List Value} {regionCount : Nat}
    {attributes : AttributeDict} :
    (made ctx (ctx.newWithBodies id resultTypes operands regionCount attributes)).1.WellFormed := by
  obtain ⟨ctx', done, wf', -⟩ := wf.newWithBodies id resultTypes operands regionCount attributes
  rw [done]
  exact wf'

/-- Every call keeps a context well-formed. -/
theorem run_wellFormed (wf : ctx.WellFormed) (call : Call) : (call.run ctx).1.WellFormed := by
  cases call with
  | newBlock label argumentTypes => exact wf.newBlock label argumentTypes
  | newOperation id resultTypes operands regionCount => exact wf.newOperation _ _ _ _ _ _
  | newModule name =>
    rw [run, Context.newModule]
    exact newWithBodies_wellFormed wf
  | newHwModule name declarations =>
    rw [run, Context.newHwModule]
    exact newWithBodies_wellFormed wf
  | newConstant type literalType literal =>
    exact wf.of_grown (ctx.newConstant_added type literalType literal .unknown).grown
  | newParamValue type value =>
    exact wf.of_grown (ctx.newParamValue_added type value .unknown).grown
  | newCatalogued index resultTypes operands =>
    rw [run, Context.newCatalogued]
    exact newWithBodies_wellFormed wf
  | materialize dialect point value type location =>
    exact wf.materialize dialect point value type location
  | link l x place => exact edited_wellFormed wf fun _ linked => wf.link linked
  | unlink l x =>
    simp only [run]
    cases unlinked : ctx.unlink l x with
    | ok ctx' => exact wf.unlink unlinked
    | error fault =>
      -- The node had no links, so taking them has changed nothing.
      change (ctx.modifyLinks l x fun _ => {}).WellFormed
      rw [Context.modifyLinks_of_unlink_eq_error wf unlinked]
      exact wf
  | insert point op => exact edited_wellFormed wf fun _ inserted => wf.insert inserted
  | erase op => exact edited_wellFormed wf fun _ erased => wf.erase erased
  | setAttribute op key value =>
    refine edited_wellFormed wf fun ctx' set => ?_
    obtain ⟨o, -, set⟩ := Except.bind_eq_ok.mp set
    cases set
    exact wf.of_sameShape (ctx.modifyOperation_sameShape op (fun _ => rfl) fun _ => rfl)
  | setLocation op location =>
    refine edited_wellFormed wf fun ctx' set => ?_
    obtain ⟨o, -, set⟩ := Except.bind_eq_ok.mp set
    cases set
    exact wf.of_sameShape (ctx.modifyOperation_sameShape op (fun _ => rfl) fun _ => rfl)
  | requestType type => exact wf.of_sameObjects _ ctx.registry
  | registerKind kind dialect => exact wf.of_sameObjects ctx.types _
  | install dialect => exact wf.of_sameObjects ctx.types _
  | registerBuiltin => exact wf.of_sameObjects ctx.types _
  | registerHw => exact wf.of_sameObjects ctx.types _
  | registerArc => exact wf.of_sameObjects ctx.types _

end Call

/-! ## Sessions -/

namespace Context

variable {ctx : Context}

theorem empty_wellFormed (hash : Digest → UInt64) : (Context.empty hash).WellFormed := by
  have noLinks : ∀ (l : Level) (x : Handle l.node) (k : Links l),
      (Context.empty hash).links l x ≠ .ok k := by
    intro l x k live
    cases l <;> cases live
  have noEnds : ∀ (l : Level) (c : Handle l.container) (e : Ends l),
      (Context.empty hash).ends l c ≠ .ok e := by
    intro l c e live
    cases l <;> cases live
  constructor
  · intro l c e live
    exact absurd live (noEnds l c e)
  · intro l x k c live
    exact absurd live (noLinks l x k)
  · intro l x k live
    exact absurd live (noLinks l x k)
  · intro op rs live
    cases live
  · intro r op live
    cases live

theorem WellFormed.after (wf : ctx.WellFormed) (calls : List Call) :
    (ctx.after calls).WellFormed := by
  induction calls generalizing ctx with
  | nil => exact wf
  | cons call calls ih => exact ih (Call.run_wellFormed wf call)

/-- What well-formedness says about walks and regions. -/
structure Chained (ctx : Context) : Prop where
  /-- From the head of a list `next` leads through the nodes of its container to the tail, and
  `prev` leads back. -/
  walks : ∀ (l : Level) (c : Handle l.container) (e : Ends l), ctx.ends l c = .ok e →
    ∃ xs : List (Handle l.node),
      (∀ x, x ∈ xs ↔ ∃ k, ctx.links l x = .ok k ∧ k.container = some c) ∧ xs.Nodup ∧
      xs.head? = e.head ∧ xs.getLast? = e.tail ∧
      ctx.Trail l Links.next e.head xs ∧ ctx.Trail l Links.prev e.tail xs.reverse
  containers : ∀ (l : Level) (x : Handle l.node) (k : Links l) (c : Handle l.container),
    ctx.links l x = .ok k → k.container = some c → ∃ e, ctx.ends l c = .ok e
  unlinked : ∀ (l : Level) (x : Handle l.node) (k : Links l),
    ctx.links l x = .ok k → k.container = none → k.prev = none ∧ k.next = none
  regions : ∀ (op : OpRef) (o : Operation), ctx.operation op = .ok o →
    o.regions.Nodup ∧ ∀ r ∈ o.regions, ∃ content, ctx.region r = .ok content ∧ content.owner = op
  owners : ∀ (r : RegionRef) (content : Region), ctx.region r = .ok content →
    ∃ o, ctx.operation content.owner = .ok o ∧ r ∈ o.regions

theorem WellFormed.chained (wf : ctx.WellFormed) : ctx.Chained := by
  constructor
  · intro l c e live
    obtain ⟨xs, listed⟩ := wf.listed live
    cases live.symm.trans listed.ends
    refine ⟨xs, fun x => ⟨listed.container_of_mem, ?_⟩, listed.nodup, rfl, rfl, listed.trail_next,
      listed.trail_prev⟩
    rintro ⟨k, links, container⟩
    obtain ⟨xs', listed', mem⟩ := wf.linked links container
    exact listed'.unique listed ▸ mem
  · intro l x k c live container
    obtain ⟨xs, listed, -⟩ := wf.linked live container
    exact ⟨_, listed.ends⟩
  · intro l x k live container
    rw [wf.unlinked live container]
    exact ⟨rfl, rfl⟩
  · intro op o live
    obtain ⟨nodup, owned⟩ := wf.regions (regionsOf_of_operation live)
    exact ⟨nodup, fun r mem => Except.map_eq_ok.mp (owned r mem)⟩
  · intro r content live
    obtain ⟨rs, regions, mem⟩ := wf.owner (ownerOf_of_region live)
    obtain ⟨o, found, rfl⟩ := Except.map_eq_ok.mp regions
    exact ⟨o, found, mem⟩

/-- Lists are chained and regions are owned after every session. -/
theorem chained_after (hash : Digest → UInt64) (calls : List Call) :
    ((Context.empty hash).after calls).Chained :=
  ((empty_wellFormed hash).after calls).chained

end Context

end HardwareIR
