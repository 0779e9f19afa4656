import HardwareIR.Context.Printer
import HardwareIR.Proofs.Attribute.Dictionary
import HardwareIR.Proofs.Context.Attributes
import HardwareIR.Proofs.Layout

/-! # When objects have a text

Types, attributes and results of live operations always have texts.  What may be missing is the name
of an operand: a result is called after its operation, whether that is there or not, but an argument
is called after its block, which has to be there.  So an object has a text if the arguments among
the operands in it are those of live blocks (`Context.NamesOperands`), and printing it fails at the
first that is not.

The form that is particular to a kind shows fewer operands (`Context.ShownAs`).  What else it shows,
an operation has that passes the check of the kind.
-/

namespace HardwareIR

open Relation (ReflTransGen TransGen)

/-! ## Trees -/

mutual
/-- A tree has the same objects in either order. -/
theorem Tree.mem_preorder_iff {x : Object} : ∀ t : Tree, x ∈ t.preorder ↔ x ∈ t.postorder
  | .node y children => by
    rw [preorder, postorder, List.mem_cons, List.mem_append, List.mem_singleton,
      mem_preorderAll_iff children, or_comm]

theorem Tree.mem_preorderAll_iff {x : Object} : ∀ ts : List Tree,
    x ∈ preorderAll ts ↔ x ∈ postorderAll ts
  | [] => Iff.rfl
  | t :: ts => by
    rw [preorderAll, postorderAll, List.mem_append, List.mem_append, t.mem_preorder_iff,
      mem_preorderAll_iff ts]
end

namespace Context

variable {ctx : Context} {op : OpRef} {o : Operation} {b : BlockRef}

/-- The operands of an operation that are arguments are those of live blocks. -/
def NamesOperands (ctx : Context) (op : OpRef) : Prop :=
  ∀ o, ctx.operation op = .ok o → ∀ b index, .argument b index ∈ o.operands → ctx.Live (.block b)

/-! ## Values -/

theorem blockName_ok (live : ctx.Live (.block b)) : ∃ text, ctx.blockName b = .ok text := by
  obtain ⟨content, found⟩ := live
  unfold blockName
  rw [found, Except.bind_ok]
  split <;> exact ⟨_, rfl⟩

/-- An argument of a freed block has no name. -/
theorem printValue_of_freed {index : Nat} (freed : ¬ ctx.Live (.block b)) :
    ctx.printValue (.argument b index) = .error (.misuse .freed) := by
  cases found : ctx.block b with
  | ok content => exact absurd ⟨content, found⟩ freed
  | error fault =>
    have same : fault = .misuse .freed := by
      unfold block at found
      split at found
      · cases found
      · exact (Except.error.inj found).symm
    simp [printValue, blockName, found, same]

theorem printValue_ok (value : Value)
    (live : ∀ b index, value = .argument b index → ctx.Live (.block b)) :
    ∃ text, ctx.printValue value = .ok text := by
  cases value with
  | result op index => exact ⟨_, rfl⟩
  | argument b index =>
    obtain ⟨name, named⟩ := blockName_ok (live b index rfl)
    simp [printValue, named]

theorem printOperands_ok {operands : List Value}
    (live : ∀ b index, .argument b index ∈ operands → ctx.Live (.block b)) :
    ∃ texts, operands.mapM ctx.printValue = .ok texts :=
  Except.exists_mapM_ok fun value mem => printValue_ok value fun b index same =>
    live b index (same ▸ mem)

/-- The first argument of a freed block is where the operands cannot be named. -/
theorem printOperands_of_freed {operands : List Value}
    (freed : ¬ ∀ b index, .argument b index ∈ operands → ctx.Live (.block b)) :
    operands.mapM ctx.printValue = .error (.misuse .freed) := by
  induction operands with
  | nil => exact absurd (fun _ _ mem => absurd mem List.not_mem_nil) freed
  | cons value rest ih =>
    by_cases first : ∀ b index, value = .argument b index → ctx.Live (.block b)
    · have later : ¬ ∀ b index, .argument b index ∈ rest → ctx.Live (.block b) := by
        refine fun others => freed fun b index mem => ?_
        rcases List.mem_cons.mp mem with same | mem
        · exact first b index same.symm
        · exact others b index mem
      obtain ⟨text, printed⟩ := printValue_ok value first
      simp [List.mapM_cons, printed, ih later]
    · push Not at first
      obtain ⟨b, index, rfl, gone⟩ := first
      simp [List.mapM_cons, printValue_of_freed gone]

/-! ## Heads -/

theorem Sound.printAttributes_ok (sound : ctx.Sound) (live : ctx.operation op = .ok o) :
    ∃ text, AttributeDict.print ctx.types o.attributes = .ok text := by
  refine AttributeDict.exists_print fun key value found => ?_
  exact sound.types.printAttribute_ok ((sound.operations op o live).attributes key value found)

theorem printResults_ok (ctx : Context) (o : Operation) (op : OpRef) :
    ∃ texts, (o.results op).mapM ctx.printValue = .ok texts := by
  refine Except.exists_mapM_ok fun value mem => ?_
  obtain ⟨index, -, rfl⟩ := List.mem_map.mp mem
  exact ⟨_, rfl⟩

/-- Apart from its operands, an operation has a text up to its regions. -/
theorem Sound.printHead_ok (sound : ctx.Sound) (live : ctx.operation op = .ok o)
    (names : ctx.NamesOperands op) : ∃ text, ctx.printHead op = .ok text := by
  obtain ⟨results, printed⟩ := ctx.printResults_ok o op
  obtain ⟨operands, named⟩ := printOperands_ok (names o live)
  obtain ⟨attributes, described⟩ := sound.printAttributes_ok live
  obtain ⟨types, typed⟩ := Except.exists_mapM_ok fun ty mem =>
    sound.types.print_ok ((sound.operations op o live).results ty mem)
  simp only [printHead, live, printed, named, described, typed, Except.bind_ok]
  split <;> exact ⟨_, rfl⟩

theorem printHead_of_freed (live : ctx.operation op = .ok o) (freed : ¬ ctx.NamesOperands op) :
    ctx.printHead op = .error (.misuse .freed) := by
  have unnamed : ¬ ∀ b index, .argument b index ∈ o.operands → ctx.Live (.block b) := by
    intro names
    refine freed fun o' live' => ?_
    cases live.symm.trans live'
    exact names
  obtain ⟨results, printed⟩ := ctx.printResults_ok o op
  simp only [printHead, live, printed, printOperands_of_freed unnamed, Except.bind_ok,
    Except.bind_error]

/-- The types of arguments are in the store. -/
def ArgumentsInterned (ctx : Context) : Prop :=
  ∀ b content, ctx.block b = .ok content → ∀ ty ∈ content.argumentTypes, ctx.types.Has ty

theorem Sound.printBlockHead_ok (sound : ctx.Sound) (interned : ctx.ArgumentsInterned)
    (live : ctx.Live (.block b)) : ∃ text, ctx.printBlockHead b = .ok text := by
  obtain ⟨name, named⟩ := blockName_ok live
  obtain ⟨content, found⟩ := live
  have arguments : ∀ argument ∈ content.arguments b,
      ∃ text, ctx.printArgument argument = .ok text := by
    intro argument mem
    obtain ⟨index, bound, rfl⟩ := List.mem_mapIdx.mp mem
    obtain ⟨text, typed⟩ :=
      sound.types.print_ok (interned b content found _ (List.getElem_mem bound))
    simp [printArgument, printValue, named, typed]
  obtain ⟨texts, printed⟩ := Except.exists_mapM_ok arguments
  simp [printBlockHead, named, found, printed]

/-! ## Trees -/

open Printer (Shows)

mutual
/-- Live objects have a text if all operands in it have names. -/
theorem printTree_shows (sound : ctx.Sound) (interned : ctx.ArgumentsInterned) :
    ∀ t : Tree, (∀ x ∈ t.preorder, ctx.Live x) → Shows (.misuse .freed) (ctx.printTree t)
      (∀ op, .operation op ∈ t.preorder → ctx.NamesOperands op)
  | .node (.operation op) regions, live => by
    have root : ctx.Live (.operation op) := live _ List.mem_cons_self
    obtain ⟨o, found⟩ := root
    have head : Shows (.misuse .freed) (liftM (ctx.printHead op) : Printer String)
        (ctx.NamesOperands op) :=
      Printer.shows_lift (sound.printHead_ok found) (printHead_of_freed found)
    have below := printBeside_shows sound interned regions fun x mem =>
      live x (List.mem_cons_of_mem _ mem)
    rw [printTree]
    refine (head.bind fun text => below.map _).congr ?_
    simp [Tree.preorder]
  | .node (.region r) blocks, live => by
    have below := printBelow_shows sound interned blocks fun x mem =>
      live x (List.mem_cons_of_mem _ mem)
    rw [printTree]
    refine below.braced.congr ?_
    simp [Tree.preorder]
  | .node (.block b) ops, live => by
    obtain ⟨head, printed⟩ := sound.printBlockHead_ok interned (live _ List.mem_cons_self)
    have below := printBelow_shows sound interned ops fun x mem =>
      live x (List.mem_cons_of_mem _ mem)
    rw [printTree, Printer.lift_bind printed]
    refine (below.indented.map _).congr ?_
    simp [Tree.preorder]

theorem printBeside_shows (sound : ctx.Sound) (interned : ctx.ArgumentsInterned) :
    ∀ ts : List Tree, (∀ x ∈ Tree.preorderAll ts, ctx.Live x) →
      Shows (.misuse .freed) (ctx.printBeside ts)
        (∀ op, .operation op ∈ Tree.preorderAll ts → ctx.NamesOperands op)
  | [], _ => (Printer.shows_pure "").congr (by simp [Tree.preorderAll])
  | t :: ts, live => by
    have first := printTree_shows sound interned t fun x mem => live x (List.mem_append_left _ mem)
    have rest := printBeside_shows sound interned ts fun x mem =>
      live x (List.mem_append_right _ mem)
    rw [printBeside]
    refine (first.bind fun text => rest.map _).congr ?_
    simp [Tree.preorderAll, or_imp, forall_and]

theorem printBelow_shows (sound : ctx.Sound) (interned : ctx.ArgumentsInterned) :
    ∀ ts : List Tree, (∀ x ∈ Tree.preorderAll ts, ctx.Live x) →
      Shows (.misuse .freed) (ctx.printBelow ts)
        (∀ op, .operation op ∈ Tree.preorderAll ts → ctx.NamesOperands op)
  | [], _ => (Printer.shows_pure "").congr (by simp [Tree.preorderAll])
  | t :: ts, live => by
    have first := printTree_shows sound interned t fun x mem => live x (List.mem_append_left _ mem)
    have rest := printBelow_shows sound interned ts fun x mem =>
      live x (List.mem_append_right _ mem)
    rw [printBelow]
    refine (Printer.shows_newline.bind fun start => first.bind fun text => rest.map _).congr ?_
    simp [Tree.preorderAll, or_imp, forall_and]
end

/-- The generic text of an object is there if all operands in it have names. -/
theorem Sound.print_shows (sound : ctx.Sound) (interned : ctx.ArgumentsInterned) {x : Object}
    {t : Tree} (tree : ctx.tree x = .ok t) :
    Shows (.misuse .freed) (ctx.print x)
      (∀ op, ReflTransGen ctx.Holds x (.operation op) → ctx.NamesOperands op) := by
  have wf := sound.wellFormed
  have nested : ∀ y, y ∈ t.preorder ↔ ReflTransGen ctx.Holds x y := fun y =>
    t.mem_preorder_iff.trans (wf.mem_postorder_iff tree)
  have live : ctx.Live x := (wf.tree_ok_iff.mp ⟨t, tree⟩).1
  have shows := printTree_shows sound interned t fun y mem =>
    wf.live_of_below live ((nested y).mp mem)
  rw [print, Printer.lift_bind tree]
  refine shows.congr ?_
  simp only [nested]

/-! ## Kinds -/

/-- The operations whose operands are in the text of an operation that is seen as one of a kind:
those in its tree, or only those inside of it, or none. -/
def ShownAs (ctx : Context) (kind : OpKind) (root op : OpRef) : Prop :=
  match kind with
  | .module | .hwModule => TransGen ctx.Holds (.operation root) (.operation op)
  | .constant | .paramValue => False
  | .arc _ => ReflTransGen ctx.Holds (.operation root) (.operation op)

theorem symbolName_ok (live : ctx.operation op = .ok o)
    (named : ctx.verifyInterface op .symbol = .ok ()) : ∃ name, ctx.symbolName op = .ok name := by
  obtain ⟨name, found⟩ := (verifyInterface_symbol_iff live).mp named
  exact ⟨name, by simp [symbolName, live, found]⟩

theorem soleRegion_ok (live : ctx.operation op = .ok o)
    (one : ctx.verifyInterface op .oneRegion = .ok ()) :
    ∃ r, o.regions = [r] ∧ ctx.soleRegion op = .ok r := by
  obtain ⟨r, regions⟩ := (verifyInterface_oneRegion_iff live).mp one
  exact ⟨r, regions, by simp [soleRegion, live, regions]⟩

theorem soleResult_ok (live : ctx.operation op = .ok o)
    (one : ctx.verifyInterface op .oneResult = .ok ()) :
    ∃ type, o.resultTypes = [type] ∧ ctx.soleResult op = .ok (.result op 0) ∧
      ctx.soleResultType op = .ok type := by
  obtain ⟨type, results⟩ := (verifyInterface_oneResult_iff live).mp one
  exact ⟨type, results, by simp [soleResult, live, Operation.result?, results],
    by simp [soleResultType, live, results]⟩

/-- What is inside an operation with one region is in that region. -/
theorem inside_iff_of_region (live : ctx.operation op = .ok o) {r : RegionRef}
    (regions : o.regions = [r]) {p : OpRef} :
    TransGen ctx.Holds (.operation op) (.operation p) ↔
      ReflTransGen ctx.Holds (.region r) (.operation p) := by
  have found := regionsOf_of_operation live
  rw [regions] at found
  rw [TransGen.head'_iff]
  constructor
  · rintro ⟨y, held, below⟩
    cases held with
    | region found' mem =>
      cases found.symm.trans found'
      obtain rfl := List.mem_singleton.mp mem
      exact below
  · exact fun below => ⟨_, .region found List.mem_cons_self, below⟩

/-- The region of an operation has a text if the operands inside have names. -/
theorem Sound.printRegion_shows (sound : ctx.Sound) (interned : ctx.ArgumentsInterned) {t : Tree}
    (tree : ctx.tree (.operation op) = .ok t) (live : ctx.operation op = .ok o) {r : RegionRef}
    (regions : o.regions = [r]) :
    Shows (.misuse .freed) (ctx.print (.region r))
      (∀ p, TransGen ctx.Holds (.operation op) (.operation p) → ctx.NamesOperands p) := by
  have wf := sound.wellFormed
  have found := regionsOf_of_operation live
  rw [regions] at found
  have held : ctx.Holds (.operation op) (.region r) := .region found List.mem_cons_self
  obtain ⟨-, acyclic⟩ := wf.tree_ok_iff.mp ⟨t, tree⟩
  obtain ⟨t', tree'⟩ := wf.tree_ok (wf.live_of_holds held) fun y below =>
    acyclic y (.head held below)
  refine (sound.print_shows interned tree').congr ?_
  simp only [inside_iff_of_region live regions]

/-- The declarations of a hardware module have texts. -/
theorem Sound.printDecls_ok (sound : ctx.Sound) (live : ctx.operation op = .ok o)
    (passed : (ctx.verifyHwModule op).result = .ok ()) :
    ∃ declarations texts, ctx.parameters op = .ok declarations ∧
      declarations.mapM ctx.types.printDecl = .ok texts := by
  obtain ⟨declarations, stored, -⟩ := (sound.verifyHwModule_eq_ok_iff live).mp passed
  obtain ⟨texts, printed⟩ := Except.exists_mapM_ok fun d mem =>
    sound.types.printAttribute_ok (sound.has_of_declarations live stored d mem)
  exact ⟨declarations, texts, parameters_of_stored live stored, printed⟩

/-- What passes its check has a text of its kind if all operands in that text have names. -/
theorem Sound.printAs_shows (sound : ctx.Sound) (interned : ctx.ArgumentsInterned) {t : Tree}
    (tree : ctx.tree (.operation op) = .ok t) {kind : OpKind}
    (shaped : ∀ interface ∈ kind.interfaces, ctx.verifyInterface op interface = .ok ())
    (passed : (ctx.verifyAs kind op).result = .ok ()) :
    Shows (.misuse .freed) (ctx.printAs kind op)
      (∀ p, ctx.ShownAs kind op p → ctx.NamesOperands p) := by
  obtain ⟨⟨o, live⟩, -⟩ := sound.wellFormed.tree_ok_iff.mp ⟨t, tree⟩
  cases kind with
  | module =>
    obtain ⟨name, named⟩ := symbolName_ok live (shaped .symbol (by decide))
    obtain ⟨r, regions, region⟩ := soleRegion_ok live (shaped .oneRegion (by decide))
    rw [printAs, Printer.lift_bind named, Printer.lift_bind region]
    exact (sound.printRegion_shows interned tree live regions).map _
  | hwModule =>
    obtain ⟨name, named⟩ := symbolName_ok live (shaped .symbol (by decide))
    obtain ⟨r, regions, region⟩ := soleRegion_ok live (shaped .oneRegion (by decide))
    obtain ⟨declarations, texts, parameters, printed⟩ := sound.printDecls_ok live passed
    rw [printAs, Printer.lift_bind named, Printer.lift_bind parameters, Printer.mapM_lift printed,
      pure_bind, Printer.lift_bind region]
    exact (sound.printRegion_shows interned tree live regions).map _
  | constant =>
    obtain ⟨-, -, result, -⟩ := soleResult_ok live (shaped .oneResult (by decide))
    obtain ⟨type, literal, stored, -⟩ := fitting_of_verifyConstant live passed
    obtain ⟨text, printed⟩ :=
      sound.types.printAttribute_ok ((sound.operations op o live).attributes _ _ stored)
    have described : ctx.constantAttribute op = .ok (.integer type literal) := by
      simp [constantAttribute, live, stored]
    have named : ctx.printValue (.result op 0) = .ok _ := rfl
    rw [printAs, Printer.lift_bind result, Printer.lift_bind named, Printer.lift_bind described,
      Printer.lift_bind printed]
    exact (Printer.shows_pure _).congr (by simp [ShownAs])
  | paramValue =>
    obtain ⟨type, results, result, typed⟩ := soleResult_ok live (shaped .oneResult (by decide))
    obtain ⟨value, -, stored, -⟩ := sound.value_of_verifyParamValue live passed
    have interned' := sound.operations op o live
    obtain ⟨text, printed⟩ := sound.types.printAttribute_ok (interned'.attributes _ _ stored)
    obtain ⟨typeText, typePrinted⟩ :=
      sound.types.print_ok (interned'.results type (by simp [results]))
    have described : ctx.paramAttribute op = .ok value := by simp [paramAttribute, live, stored]
    have named : ctx.printValue (.result op 0) = .ok _ := rfl
    rw [printAs, Printer.lift_bind result, Printer.lift_bind named, Printer.lift_bind described,
      Printer.lift_bind printed, Printer.lift_bind typed, Printer.lift_bind typePrinted]
    exact (Printer.shows_pure _).congr (by simp [ShownAs])
  | arc index => exact sound.print_shows interned tree

end Context

end HardwareIR
