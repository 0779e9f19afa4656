import HardwareIR.Proofs.Context.Lines
import HardwareIR.Proofs.Layout

/-! # Printing line by line

What an operation prints, with everything that is nested in it, are its lines
(`Context.print_in_lines`).  None of them has a line break in it, so that the text falls apart into
just these lines (`Context.splitOn_shownBelow`), and each is as far in as the regions around its
object say (`Context.LaidOut`).
-/

namespace HardwareIR

open Relation (ReflTransGen)
open Text (OneLine)

namespace Context

variable {ctx : Context} {x y z : Object} {xs inner beside : List Object} {level depth : Nat}
  {lines nested others : List Line}

/-! ## Texts -/

/-- The keys of the attributes of an operation have no line breaks. -/
def PlainKeys (ctx : Context) (op : OpRef) : Prop :=
  ∀ o, ctx.operation op = .ok o → ∀ entry ∈ o.attributes.entries, OneLine entry.1

theorem opening_oneLine (regions : List Object) : OneLine (opening regions) := by
  unfold opening
  split <;> decide

theorem lineText_oneLine {text : String} (printed : ctx.lineText inner beside x = .ok text)
    (keys : ∀ op, x = .operation op → ctx.PlainKeys op) : OneLine text := by
  cases x with
  | operation op =>
    obtain ⟨head, shown, rfl⟩ := Except.map_eq_ok.mp printed
    obtain ⟨o, live, -⟩ := Except.bind_eq_ok.mp shown
    have plain := printHead_oneLine live (keys op rfl o live) shown
    exact Text.oneLine_append.mpr ⟨plain, opening_oneLine inner⟩
  | region r =>
    cases printed
    exact Text.oneLine_append.mpr ⟨by decide, opening_oneLine beside⟩
  | block b => exact printBlockHead_oneLine printed

theorem lineText_flush {text : String} (printed : ctx.lineText inner beside x = .ok text) :
    Text.Flush text := by
  cases x with
  | operation op =>
    obtain ⟨head, shown, rfl⟩ := Except.map_eq_ok.mp printed
    exact (printHead_flush shown).append _
  | region r =>
    cases printed
    have brace : Text.Flush "\x7d" := ⟨'\x7d', [], rfl, by decide⟩
    exact brace.append _
  | block b => exact printBlockHead_flush printed

/-! ## Printing -/

/-- A line behind the blanks of its level. -/
def shown (l : Layout) (line : Line) : String :=
  String.ofList (List.replicate (l.indent + l.width * line.level) ' ') ++ line.text

/-- Lines below another one. -/
def shownBelow (l : Layout) (lines : List Line) : String :=
  String.join (lines.map fun line => "\n" ++ shown l line)

theorem shownBelow_nil {l : Layout} : shownBelow l [] = "" := rfl

theorem shownBelow_cons {l : Layout} {line : Line} : shownBelow l (line :: lines) =
    (l.down line.level).lineBreak ++ line.text ++ shownBelow l lines := by
  rw [shownBelow, List.map_cons, String.join_cons, shown, ← String.append_assoc]
  rfl

theorem shownBelow_append {l : Layout} :
    shownBelow l (nested ++ others) = shownBelow l nested ++ shownBelow l others := by
  rw [shownBelow, List.map_append, String.join_append]
  rfl

/-- An object has a line if it needs one. -/
def Headed (ctx : Context) (x : Object) : Prop :=
  ∀ inner beside, ∃ text, ctx.lineText inner beside x = .ok text

open Printer (Prints)

/-- Objects print their lines, regions beside each other and all others below each other. -/
def PrintsLines (ctx : Context) (level : Nat) (xs : List Object) (ts : List Tree)
    (lines : List Line) : Prop :=
  ∀ l : Layout,
    ((∀ x ∈ xs, x.isRegion = true) →
      Prints (ctx.printBeside ts) (l.down level) (opening xs ++ shownBelow l lines)) ∧
    ((∀ x ∈ xs, x.isRegion = false) →
      Prints (ctx.printBelow ts) (l.down level) (shownBelow l lines))

theorem printsLines_nil : ctx.PrintsLines level [] [] [] :=
  fun _ => ⟨fun _ => Printer.prints_pure _ _, fun _ => Printer.prints_pure _ _⟩

/-- Regions are what operations hold. -/
theorem isRegion_of_holds (held : ctx.Holds x y) : y.isRegion = x.operation?.isSome := by
  cases held <;> rfl

/-- Before others an operation or a block starts with its own line. -/
theorem printsLines_below {text : String} {t : Tree} {ts : List Tree} (other : x.isRegion = false)
    (first : ∀ l : Layout, Prints (ctx.printTree t) (l.down level) (text ++ shownBelow l nested))
    (rest : ctx.PrintsLines level beside ts others) :
    ctx.PrintsLines level (x :: beside) (t :: ts) (⟨x, level, text⟩ :: nested ++ others) := by
  intro l
  constructor
  · intro regions
    rw [regions x List.mem_cons_self] at other
    cases other
  · intro below
    have after := (rest l).2 fun y mem => below y (List.mem_cons_of_mem _ mem)
    rw [printBelow, List.cons_append, shownBelow_cons, shownBelow_append]
    refine (Printer.prints_newline _).bind ((first l).bind (after.bind ?_))
    simp only [String.append_assoc]
    exact Printer.prints_pure _ _

/-- Before others a region ends with its own line. -/
theorem printsLines_beside {r : RegionRef} {t : Tree} {ts : List Tree}
    (first : ∀ l : Layout, Prints (ctx.printTree t) (l.down level)
      ("\x7b" ++ shownBelow l nested ++ (l.down level).lineBreak ++ "\x7d"))
    (rest : ctx.PrintsLines level beside ts others) :
    ctx.PrintsLines level (.region r :: beside) (t :: ts)
      (nested ++ [⟨.region r, level, "\x7d" ++ opening beside⟩] ++ others) := by
  intro l
  constructor
  · intro regions
    have after := (rest l).1 fun y mem => regions y (List.mem_cons_of_mem _ mem)
    have opened : opening (.region r :: beside) = " " ++ "\x7b" := rfl
    rw [printBeside, opened, shownBelow_append, shownBelow_append, shownBelow_cons, shownBelow_nil]
    refine (first l).bind (after.bind ?_)
    simp only [String.append_assoc, String.append_empty]
    exact Printer.prints_pure _ _
  · exact fun below => nomatch below _ List.mem_cons_self

theorem printsLines_cons (wf : ctx.WellFormed) {text : String} {ts ts' : List Tree}
    (holdings : ctx.holdings x = .ok inner) (own : ctx.lineText inner beside x = .ok text)
    (first : ctx.PrintsLines (level + x.step) inner ts nested)
    (rest : ctx.PrintsLines level beside ts' others) :
    ctx.PrintsLines level (x :: beside) (.node x ts :: ts')
      (Line.around ⟨x, level, text⟩ nested ++ others) := by
  have kinds : ∀ y ∈ inner, y.isRegion = x.operation?.isSome := fun y mem =>
    isRegion_of_holds ((wf.mem_holdings holdings).mp mem)
  cases x with
  | operation op =>
    obtain ⟨head, shown, rfl⟩ := Except.map_eq_ok.mp own
    refine printsLines_below rfl (fun l => ?_) rest
    rw [printTree, Printer.lift_bind shown, String.append_assoc]
    exact ((first l).1 kinds).bind (Printer.prints_pure _ _)
  | region r =>
    cases own
    refine printsLines_beside (fun l => ?_) rest
    rw [printTree]
    apply Prints.braced
    rw [Layout.push_down]
    exact (first l).2 kinds
  | block b =>
    have shown : ctx.printBlockHead b = .ok text := own
    refine printsLines_below rfl (fun l => ?_) rest
    rw [printTree, Printer.lift_bind shown]
    refine (Prints.indented ?_).bind (Printer.prints_pure _ _)
    rw [Layout.push_down]
    exact (first l).2 kinds

/-- Objects have lines, and print them. -/
theorem lines_of_trees (wf : ctx.WellFormed) {ts : List Tree}
    (found : xs.mapM (ctx.treeWithin depth) = .ok ts)
    (heads : ∀ x ∈ xs, ∀ z, ReflTransGen ctx.Holds x z → ctx.Headed z) (level : Nat) :
    ∃ lines, ctx.Lines level xs lines ∧ ctx.PrintsLines level xs ts lines := by
  induction depth generalizing xs ts level with
  | zero =>
    cases xs with
    | nil =>
      cases found
      exact ⟨[], .nil, printsLines_nil⟩
    | cons x rest =>
      obtain ⟨t, ts', first, -⟩ := Except.mapM_cons_eq_ok.mp found
      cases first
  | succ depth deeper =>
    -- As for the order of the operations: trees of what an object holds are less deep.
    induction xs generalizing ts with
    | nil =>
      cases found
      exact ⟨[], .nil, printsLines_nil⟩
    | cons x rest beside =>
      obtain ⟨t, ts', first, others, rfl⟩ := Except.mapM_cons_eq_ok.mp found
      obtain ⟨inner, holdings, first⟩ := Except.bind_eq_ok.mp first
      obtain ⟨subtrees, nested, same⟩ := Except.bind_eq_ok.mp first
      cases same
      obtain ⟨linesInner, laidInner, printInner⟩ := deeper nested (fun y mem z below =>
        heads x List.mem_cons_self z (.head ((wf.mem_holdings holdings).mp mem) below))
        (level + x.step)
      obtain ⟨linesRest, laidRest, printRest⟩ := beside others fun y mem =>
        heads y (List.mem_cons_of_mem _ mem)
      obtain ⟨text, own⟩ := heads x List.mem_cons_self x .refl inner rest
      exact ⟨_, .cons holdings own laidInner laidRest,
        printsLines_cons wf holdings own printInner printRest⟩

/-- An operation is printed as its line with the lines of what is nested in it. -/
theorem print_in_lines (wf : ctx.WellFormed) {root : OpRef} {t : Tree}
    (tree : ctx.tree (.operation root) = .ok t)
    (heads : ∀ z, ReflTransGen ctx.Holds (.operation root) z → ctx.Headed z) :
    ∃ first rest, ctx.Lines 0 [.operation root] (first :: rest) ∧ first.object = .operation root ∧
      ∀ l, Prints (ctx.print (.operation root)) l (first.text ++ shownBelow l rest) := by
  obtain ⟨inner, holdings, tree'⟩ := Except.bind_eq_ok.mp tree
  obtain ⟨subtrees, found, same⟩ := Except.bind_eq_ok.mp tree'
  cases same
  obtain ⟨nested, laid, printed⟩ := lines_of_trees wf found (fun y mem z below =>
    heads z (.head ((wf.mem_holdings holdings).mp mem) below)) 0
  obtain ⟨text, own⟩ := heads _ .refl inner []
  obtain ⟨head, shown, rfl⟩ := Except.map_eq_ok.mp own
  have lines := Lines.cons holdings own laid .nil
  rw [List.append_nil] at lines
  refine ⟨_, _, lines, rfl, fun l => ?_⟩
  have regions := (printed l).1 fun y mem => isRegion_of_holds ((wf.mem_holdings holdings).mp mem)
  rw [print, Printer.lift_bind tree, printTree, Printer.lift_bind shown, String.append_assoc]
  exact regions.bind (Printer.prints_pure _ _)

theorem shown_oneLine {l : Layout} {line : Line} (plain : OneLine line.text) :
    OneLine (shown l line) := by
  rw [shown, Text.oneLine_append, Text.oneLine_ofList]
  exact ⟨by simp, plain⟩

/-- Lines without line breaks can be told apart in the text. -/
theorem splitOn_shownBelow {l : Layout} {text : String} (plain : OneLine text)
    (each : ∀ line ∈ lines, OneLine line.text) :
    (text ++ shownBelow l lines).toList.splitOn '\n' =
      text.toList :: lines.map fun line => (shown l line).toList := by
  have joined : text ++ shownBelow l lines = "\n".intercalate (text :: lines.map (shown l)) := by
    clear plain each
    induction lines generalizing text with
    | nil => simp [shownBelow]
    | cons line rest ih =>
      rw [List.map_cons, String.intercalate_cons_cons, ← ih]
      simp [shownBelow, String.append_assoc]
  have newline : "\n".toList = ['\n'] := rfl
  rw [joined, String.toList_intercalate, newline, List.splitOn_intercalate]
  · simp
  · intro chars mem
    obtain ⟨t, among, rfl⟩ := List.mem_map.mp mem
    rcases List.mem_cons.mp among with rfl | below
    · exact plain
    · obtain ⟨line, listed, rfl⟩ := List.mem_map.mp below
      exact shown_oneLine (each line listed)
  · simp

/-! ## Designs -/

/-- Lines are those of an operation with everything that is nested in it. -/
structure LaidOut (ctx : Context) (root : OpRef) (lines : List Line) : Prop where
  laid : ctx.Lines 0 [.operation root] lines
  nested : ∀ x, x ∈ lines.map Line.object ↔ ReflTransGen ctx.Holds (.operation root) x
  once : (lines.map Line.object).Nodup
  ordered : ∀ line ∈ lines, ∀ inner, ctx.holdings line.object = .ok inner →
    inner.Sublist (lines.map Line.object)
  /-- Every line starts with the head of its object, or with the closing brace of a region. -/
  texts : ∀ line ∈ lines, Text.Flush line.text ∧ ∃ inner beside,
    ctx.holdings line.object = .ok inner ∧ ctx.lineText inner beside line.object = .ok line.text
  deep : ∀ line ∈ lines, ∃ d, ctx.Depth (.operation root) line.object d
  levels : ∀ line ∈ lines, ∀ d, ctx.Depth (.operation root) line.object d →
    line.level = line.object.levelAt d

theorem exists_depth {root : OpRef} (below : ReflTransGen ctx.Holds (.operation root) x) :
    ∃ d, ctx.Depth (.operation root) x d := by
  induction below with
  | refl => exact ⟨0, .root⟩
  | tail _ held ih =>
    obtain ⟨d, deep⟩ := ih
    cases held with
    | region regions mem => exact ⟨d, .region deep (.region regions mem)⟩
    | block listed mem => exact ⟨d + 1, .block deep (.block listed mem)⟩
    | operation listed mem => exact ⟨d, .operation deep (.operation listed mem)⟩

theorem Lines.laidOut (wf : ctx.WellFormed) (acyclic : ctx.Acyclic) {root : OpRef}
    (laid : ctx.Lines 0 [.operation root] lines) : ctx.LaidOut root lines := by
  have nested : ∀ x, x ∈ lines.map Line.object ↔ ReflTransGen ctx.Holds (.operation root) x :=
    fun x => by simp [laid.mem_iff wf]
  have once := laid.nodup wf acyclic (List.pairwise_singleton _ _)
  refine ⟨laid, nested, once, fun line mem inner => laid.ordered mem, ?_, ?_, ?_⟩
  · intro line mem
    obtain ⟨inner, beside, -, holdings, text, -⟩ := laid.at_line line mem
    exact ⟨lineText_flush text, inner, beside, holdings, text⟩
  · exact fun line mem => exists_depth ((nested _).mp (List.mem_map_of_mem mem))
  · intro line mem d deep
    obtain ⟨line', mem', object, same⟩ := laid.level_of_depth wf deep
    obtain rfl : line' = line := List.inj_on_of_nodup_map once mem' mem object
    exact same

end Context

end HardwareIR
