import HardwareIR.Proofs.Context.Verdict
import HardwareIR.Proofs.Materialization.Surroundings

/-! # Other operations after an insertion

A new operation that was inserted is one more in the tree of what is around it.  For the operations
that were there before nothing is different that a check looks at, except for the one directly
before the new operation, which has come to be followed by something.  Only the terminators of the
catalog mind.
-/

namespace HardwareIR

open Relation (ReflTransGen)

namespace Context

variable {ctx ctx' : Context} {point : InsertionPoint} {op p : OpRef}
  {o content content' : Operation} {b : BlockRef} {x y : Object}

/-- An operation comes directly after a terminator of the catalog. -/
def FollowsTerminator (ctx : Context) (op : OpRef) : Prop :=
  ∃ o p index, ctx.operation op = .ok o ∧ o.links.prev = some p ∧
    ctx.kindOf p = .ok (.arc index) ∧ (catalog.get index).terminator = true

namespace Inserted

/-! ## Places -/

/-- What was held is held. -/
theorem holds (inserted : Inserted ctx ctx' point op o) (wf' : ctx'.WellFormed)
    (held : ctx.Holds x y) : ctx'.Holds x y := by
  cases held with
  | region regions mem =>
    obtain ⟨content, before, rfl⟩ := Except.map_eq_ok.mp regions
    obtain ⟨k, after⟩ := inserted.operation_relinked before
    exact .region (regionsOf_of_operation after) mem
  | block listed mem =>
    exact .block (wf'.listed_of_members ((inserted.blockLists _).trans listed.members)) mem
  | operation listed mem =>
    obtain ⟨k, links, -⟩ := listed.container_of_mem mem
    obtain ⟨content, before, -⟩ := operation_of_links links
    obtain ⟨ops, members, mem'⟩ :=
      (inserted.mem_members_iff (inserted.ne_of_live before)).mpr ⟨_, listed.members, mem⟩
    exact .operation (wf'.listed_of_members members) mem'

/-- What is nested in something around the new operation is what was nested in it, and the new
operation. -/
theorem below_iff (inserted : Inserted ctx ctx' point op o) (wf : ctx.WellFormed)
    (wf' : ctx'.WellFormed) (plain : o.regions = []) (block : point.block? ctx = .ok (some b))
    (inside : ReflTransGen ctx.Holds x (.block b)) :
    ReflTransGen ctx'.Holds x y ↔ ReflTransGen ctx.Holds x y ∨ y = .operation op := by
  have kept : ∀ {y}, ReflTransGen ctx.Holds x y → ReflTransGen ctx'.Holds x y :=
    fun below => below.lift id fun _ _ held => inserted.holds wf' held
  constructor
  · intro below
    induction below with
    | refl => exact .inl .refl
    | tail _ held ih =>
      rcases ih with below | rfl
      · exact (inserted.holds_cases wf plain held).imp_left below.tail
      · -- No way goes on from the new operation, which has no regions.
        exact absurd held (inserted.holds_nothing plain)
  · rintro (below | rfl)
    · exact kept below
    · obtain ⟨b', place, ys, zs, block', -, -, -, members, -, -⟩ := inserted.list
      cases block.symm.trans block'
      exact (kept inside).tail (.operation (wf'.listed_of_members members) (by simp))

/-- What comes next to an operation is what came next before, unless that is the new operation. -/
theorem next_cases (inserted : Inserted ctx ctx' point op o) (wf : ctx.WellFormed)
    (wf' : ctx'.WellFormed) (before : ctx.operation p = .ok content)
    (after : ctx'.operation p = .ok content') :
    content'.links.next = content.links.next ∨ content'.links.next = some op := by
  obtain ⟨_, after', -, kept⟩ := inserted.operation_kept wf wf' before
  cases after.symm.trans after'
  have links := links_of_operation before
  have links' := links_of_operation after
  cases container : content.links.container with
  | none =>
    rw [wf.unlinked links container, wf'.unlinked links' (kept.trans container)]
    exact .inl rfl
  | some b =>
    obtain ⟨ops, listed, mem⟩ := wf.linked links container
    obtain ⟨ys, zs, rfl⟩ := List.append_of_mem mem
    have place : ∀ ys' zs', ctx'.members .ops b = .ok (ys' ++ p :: zs') →
        content'.links.next = zs'.head? := by
      intro ys' zs' members
      have listed' := wf'.listed_of_members members
      rw [Except.ok.inj (links'.symm.trans (listed'.links ys' p zs' rfl))]
    rw [Except.ok.inj (links.symm.trans (listed.links ys p zs rfl))]
    rcases inserted.members_cases b with same | ⟨ys', zs', old, new⟩
    · exact .inl (place ys zs (same.trans listed.members))
    · -- The new operation is somewhere after the old one, or somewhere before it.
      rcases split_between (Except.ok.inj (old.symm.trans listed.members)) with
        ⟨ws, rfl, rfl⟩ | ⟨ws, rfl, rfl⟩
      · have next := place ys (ws ++ op :: zs') (new.trans (by simp))
        cases ws with
        | nil => exact .inr next
        | cons w ws => exact .inl next
      · exact .inl (place (ys' ++ op :: ws) zs (new.trans (by simp)))

/-! ## Checks -/

theorem kindOf_kept (inserted : Inserted ctx ctx' point op o)
    (before : ctx.operation p = .ok content) : ctx'.kindOf p = ctx.kindOf p := by
  obtain ⟨k, after⟩ := inserted.operation_relinked before
  simp only [Context.kindOf, before, after, Except.bind_ok, inserted.registry]

theorem haveSingleBlocks_kept (inserted : Inserted ctx ctx' point op o) (rs : List RegionRef) :
    ctx'.haveSingleBlocks rs = ctx.haveSingleBlocks rs := by
  induction rs with
  | nil => rfl
  | cons r rest ih => simp only [haveSingleBlocks, hasSingleBlock, inserted.blockLists, ih]

/-- The interfaces look at nothing that an insertion changes. -/
theorem verifyInterface_kept (inserted : Inserted ctx ctx' point op o)
    (before : ctx.operation p = .ok content) (interface : Interface) :
    ctx'.verifyInterface p interface = ctx.verifyInterface p interface := by
  obtain ⟨k, after⟩ := inserted.operation_relinked before
  cases interface with
  | singleBlockRegion =>
    simp only [verifyInterface, before, after, Except.bind_ok, inserted.haveSingleBlocks_kept]
    rfl
  | constantLike => rfl
  | oneRegion | symbol | oneResult | zeroOperand =>
    simp only [verifyInterface, before, after, Except.bind_ok]
    rfl

theorem verifyDefaults_kept (inserted : Inserted ctx ctx' point op o) (location : Location)
    (declarations : List ParamDecl) :
    ctx'.verifyDefaults location declarations = ctx.verifyDefaults location declarations := by
  induction declarations with
  | nil => rfl
  | cons d rest ih =>
    simp only [verifyDefaults, verifyDefault, defaultScope, inserted.types, ih]

/-- An operation finds the hardware module that was around it before. -/
theorem enclosing_kept (inserted : Inserted ctx ctx' point op o) (sound : ctx.Sound)
    (sound' : ctx'.Sound) (plain : o.regions = []) (acyclic : ctx.Acyclic)
    (registered : (ctx.registry.kind? OpKind.hwModule.id).isSome)
    (before : ctx.operation p = .ok content) :
    ctx'.enclosing p .hwModule = ctx.enclosing p .hwModule := by
  have wf := sound.wellFormed
  have wf' := sound'.wellFormed
  obtain ⟨start, parent⟩ := wf.exists_parent before
  obtain ⟨ops, found, -, -, innermost⟩ := wf.innermost_of_parent acyclic parent
  have registered' : (ctx'.registry.kind? OpKind.hwModule.id).isSome := by
    rw [inserted.registry]
    exact registered
  rw [sound.enclosing_of_innermost acyclic registered parent innermost]
  exact sound'.enclosing_of_innermost (inserted.acyclic wf plain acyclic) registered'
    ((inserted.parent_eq wf wf' before).trans parent) (inserted.innermost wf wf' innermost)

theorem verifyParamValue_kept (inserted : Inserted ctx ctx' point op o) (sound : ctx.Sound)
    (sound' : ctx'.Sound) (plain : o.regions = []) (acyclic : ctx.Acyclic)
    (registered : (ctx.registry.kind? OpKind.hwModule.id).isSome)
    (before : ctx.operation p = .ok content) :
    (ctx'.verifyParamValue p).result = (ctx.verifyParamValue p).result := by
  obtain ⟨k, after⟩ := inserted.operation_relinked before
  cases stored : content.attributes.get? AttributeDict.paramValue with
  | none => rw [verifyParamValue_of_none before stored, verifyParamValue_of_none after stored]
  | some value =>
    obtain ⟨found, enclosing, declares⟩ := sound.exists_enclosing acyclic registered before
    -- The same module is found, and it declares the same parameters.
    have enclosing' :=
      (inserted.enclosing_kept sound sound' plain acyclic registered before).trans enclosing
    cases found with
    | none =>
      rw [verifyParamValue_of_outside before stored enclosing,
        verifyParamValue_of_outside after stored enclosing']
    | some hwModule =>
      obtain ⟨declarations, parameters⟩ := declares hwModule rfl
      have parameters' := inserted.parameters_kept sound.wellFormed sound'.wellFormed parameters
      rw [Context.verifyParamValue_eq before stored enclosing parameters,
        Context.verifyParamValue_eq after stored enclosing' parameters']
      simp only [scope, inserted.types]

/-- The check of a kind outside of the catalog looks at nothing that an insertion changes. -/
theorem verifyAs_kept (inserted : Inserted ctx ctx' point op o) (sound : ctx.Sound)
    (sound' : ctx'.Sound) (plain : o.regions = []) (acyclic : ctx.Acyclic)
    (registered : (ctx.registry.kind? OpKind.hwModule.id).isSome)
    (before : ctx.operation p = .ok content) {kind : OpKind} (other : ∀ index, kind ≠ .arc index) :
    (ctx'.verifyAs kind p).result = (ctx.verifyAs kind p).result := by
  obtain ⟨k, after⟩ := inserted.operation_relinked before
  cases kind with
  | module => rfl
  | hwModule =>
    show (ctx'.verifyHwModule p).result = (ctx.verifyHwModule p).result
    rw [verifyHwModule, verifyHwModule, Report.lift_bind after, Report.lift_bind before]
    simp only [inserted.verifyDefaults_kept]
  | constant =>
    show ctx'.verifyConstant p = ctx.verifyConstant p
    simp only [verifyConstant, literal?, soleResultType, before, after, Except.bind_ok,
      inserted.types]
  | paramValue => exact inserted.verifyParamValue_kept sound sound' plain acyclic registered before
  | arc index => exact absurd rfl (other index)

/-- The check of a catalog entry still passes, unless it is that of a terminator and the new
operation comes next. -/
theorem verifyCatalogued_iff (inserted : Inserted ctx ctx' point op o) (wf : ctx.WellFormed)
    (wf' : ctx'.WellFormed) (before : ctx.operation p = .ok content) {k : Links .ops}
    (placed : ctx'.links .ops op = .ok k) {entry : CatalogEntry}
    (passed : ctx.verifyCatalogued p entry = .ok ()) :
    ctx'.verifyCatalogued p entry = .ok () ↔ (entry.terminator = true → k.prev ≠ some p) := by
  obtain ⟨links, after⟩ := inserted.operation_relinked before
  obtain ⟨count, last⟩ := (verifyCatalogued_eq_ok_iff before entry).mp passed
  have follows := wf'.next_iff_prev (links_of_operation after) placed
  rw [verifyCatalogued_eq_ok_iff after]
  constructor
  · rintro ⟨-, last'⟩ terminator prev
    rw [follows.mpr prev] at last'
    cases last' terminator
  · intro apart
    refine ⟨count, fun terminator => ?_⟩
    rcases inserted.next_cases wf wf' before after with same | next
    · exact same.trans (last terminator)
    · exact absurd (follows.mp next) (apart terminator)

/-- An operation that passed still passes, unless it is a terminator of the catalog and the new
operation comes directly after it. -/
theorem passes_iff (inserted : Inserted ctx ctx' point op o) (sound : ctx.Sound)
    (sound' : ctx'.Sound) (plain : o.regions = []) (acyclic : ctx.Acyclic)
    (registered : (ctx.registry.kind? OpKind.hwModule.id).isSome) (passes : ctx.Passes p)
    {k : Links .ops} (placed : ctx'.links .ops op = .ok k) :
    ctx'.Passes p ↔ ∀ index, ctx'.kindOf p = .ok (.arc index) →
      (catalog.get index).terminator = true → k.prev ≠ some p := by
  obtain ⟨kind, known, shaped, passed⟩ := passes
  obtain ⟨content, before, -⟩ := Except.bind_eq_ok.mp known
  have known' := (inserted.kindOf_kept before).trans known
  have shaped' : ∀ interface ∈ kind.interfaces, ctx'.verifyInterface p interface = .ok () :=
    fun interface mem =>
      (inserted.verifyInterface_kept before interface).trans (shaped interface mem)
  rw [passes_iff_of_kind known', known']
  -- Only the check of a catalog entry looks at what comes next.
  cases kind with
  | arc index =>
    have last :=
      inserted.verifyCatalogued_iff sound.wellFormed sound'.wellFormed before placed passed
    constructor
    · rintro ⟨-, passed'⟩ index' same
      cases same
      exact last.mp passed'
    · exact fun apart => ⟨shaped', last.mpr (apart index rfl)⟩
  | module | hwModule | constant | paramValue =>
    rw [inserted.verifyAs_kept sound sound' plain acyclic registered before (by simp)]
    simpa using ⟨shaped', passed⟩

/-! ## Trees -/

/-- A tree that passed still passes with a new operation in it, if the new operation passes and does
not come directly after a terminator of the catalog. -/
theorem verify_iff (inserted : Inserted ctx ctx' point op o) (sound : ctx.Sound)
    (sound' : ctx'.Sound) (plain : o.regions = []) (acyclic : ctx.Acyclic)
    (registered : (ctx.registry.kind? OpKind.hwModule.id).isSome) {root : OpRef}
    (verified : (ctx.verify (.operation root)).result = .ok ())
    (block : point.block? ctx = .ok (some b))
    (inside : ReflTransGen ctx.Holds (.operation root) (.block b)) :
    (ctx'.verify (.operation root)).result = .ok () ↔
      (ctx'.verify (.operation op)).result = .ok () ∧ ¬ ctx'.FollowsTerminator op := by
  have wf := sound.wellFormed
  have wf' := sound'.wellFormed
  obtain ⟨⟨top, live⟩, -, passes⟩ := wf.verify_eq_ok_iff.mp verified
  obtain ⟨b', place, ys, zs, block', -, -, members, -, new, -⟩ := inserted.list
  cases block.symm.trans block'
  have below : ∀ p, ReflTransGen ctx'.Holds (.operation root) (.operation p) ↔
      ReflTransGen ctx.Holds (.operation root) (.operation p) ∨ p = op := by
    intro p
    rw [inserted.below_iff wf wf' plain block inside, Object.operation.injEq]
  have kept : ∀ p, ReflTransGen ctx.Holds (.operation root) (.operation p) →
      (ctx'.Passes p ↔ ∀ index, ctx'.kindOf p = .ok (.arc index) →
        (catalog.get index).terminator = true → ys.getLast? ≠ some p) := by
    intro p nested
    exact inserted.passes_iff sound sound' plain acyclic registered (passes p nested)
      (links_of_operation new)
  rw [verify_of_plain new plain, verifyOperation_eq_ok_iff, wf'.verify_eq_ok_iff]
  constructor
  · rintro ⟨-, -, passes'⟩
    refine ⟨passes' op ((below op).mpr (.inr rfl)), ?_⟩
    rintro ⟨_, p, index, found, prev, known, terminator⟩
    cases new.symm.trans found
    -- What comes before the new operation was in its block, and so in the tree.
    have listed : p ∈ ys ++ zs := List.mem_append_left zs (List.mem_of_getLast? prev)
    have nested := inside.tail (.operation (wf.listed_of_members members) listed)
    exact (kept p nested).mp (passes' p ((below p).mpr (.inl nested))) index known terminator prev
  · rintro ⟨own, apart⟩
    obtain ⟨k, live'⟩ := inserted.operation_relinked live
    have acyclic' := inserted.acyclic wf plain acyclic
    refine ⟨⟨_, live'⟩, fun x _ => acyclic'.irreflexive x, fun p nested' => ?_⟩
    rcases (below p).mp nested' with nested | rfl
    · refine (kept p nested).mpr fun index known terminator prev => ?_
      exact apart ⟨_, p, index, new, prev, known, terminator⟩
    · exact own

end Inserted

end Context

end HardwareIR
