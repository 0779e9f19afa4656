import HardwareIR.Proofs.Context.Heads
import HardwareIR.Proofs.Context.Preorder
import HardwareIR.Proofs.Context.Printing

/-! # The lines of a printed design

Every operation and every block begins a line, and every region ends on one, with its brace
(`Context.Lines`).  What an object holds is right behind its line, or right before it if the object
is a region, and regions and blocks put what they hold one level deeper.

Printing writes just these lines (`Context.lines_of_trees`), and there are no line breaks in them.
-/

namespace HardwareIR

open Relation (ReflTransGen TransGen)
open Text (OneLine)

/-- A line of a printed design. -/
structure Line where
  /-- What the line is the head of, or what it closes. -/
  object : Object
  level : Nat
  /-- What stands behind the blanks. -/
  text : String

namespace Object

def isRegion : Object → Bool
  | .region _ => true
  | _ => false

/-- How many levels deeper than an object is what it holds. -/
def step : Object → Nat
  | .operation _ => 0
  | .region _ | .block _ => 1

/-- The level of an object with `depth` regions around it in an operation at level zero. -/
def levelAt (depth : Nat) : Object → Nat
  | .operation _ | .region _ => 2 * depth
  | .block _ => 2 * depth - 1

end Object

/-- The brace that opens the first of some regions. -/
def opening (regions : List Object) : String :=
  if regions.isEmpty then "" else " \x7b"

/-- The line of an object with the lines of what the object holds. -/
def Line.around (line : Line) (nested : List Line) : List Line :=
  if line.object.isRegion then nested ++ [line] else line :: nested

namespace Context

variable {ctx : Context} {x y z : Object} {xs inner beside : List Object} {level depth : Nat}
  {lines nested others : List Line}

/-- What stands on the line of an object, which holds `inner` and has `beside` after it. -/
def lineText (ctx : Context) (inner beside : List Object) : Object → Except Fault String
  | .operation op => (ctx.printHead op).map fun head => head ++ opening inner
  | .region _ => .ok ("\x7d" ++ opening beside)
  | .block b => ctx.printBlockHead b

/-- The lines of several objects. -/
inductive Lines (ctx : Context) : Nat → List Object → List Line → Prop where
  | nil {level : Nat} : Lines ctx level [] []
  | cons {level : Nat} {x : Object} {inner beside : List Object} {text : String}
      {nested others : List Line} :
      ctx.holdings x = .ok inner → ctx.lineText inner beside x = .ok text →
        Lines ctx (level + x.step) inner nested → Lines ctx level beside others →
        Lines ctx level (x :: beside) (Line.around ⟨x, level, text⟩ nested ++ others)

/-! ## Objects -/

theorem around_perm (line : Line) (nested : List Line) :
    (line.around nested).Perm (line :: nested) := by
  unfold Line.around
  split
  · exact List.perm_append_singleton line nested
  · exact .refl _

theorem mem_around {line line' : Line} :
    line' ∈ line.around nested ↔ line' = line ∨ line' ∈ nested :=
  (around_perm line nested).mem_iff.trans List.mem_cons

theorem sublist_around (line : Line) (nested : List Line) :
    nested.Sublist (line.around nested) := by
  unfold Line.around
  split
  · exact List.sublist_append_left nested [line]
  · exact List.sublist_cons_self line nested

/-- Exactly what is nested has lines. -/
theorem Lines.mem_iff (wf : ctx.WellFormed) (laid : ctx.Lines level xs lines) :
    z ∈ lines.map Line.object ↔ ∃ x ∈ xs, ReflTransGen ctx.Holds x z := by
  induction laid with
  | nil => simp
  | @cons level x inner beside text nested others holdings _ _ _ ihNested ihOthers =>
    have own : z ∈ (Line.around ⟨x, level, text⟩ nested).map Line.object ↔
        z = x ∨ z ∈ nested.map Line.object := by
      rw [((around_perm _ nested).map Line.object).mem_iff, List.map_cons, List.mem_cons]
    rw [List.map_append, List.mem_append, own, ihNested, ihOthers]
    simp [wf.below_iff_holdings holdings, eq_comm]

/-- Objects that are apart have one line each. -/
theorem Lines.nodup (wf : ctx.WellFormed) (acyclic : ctx.Acyclic) (laid : ctx.Lines level xs lines)
    (apart : xs.Pairwise ctx.Apart) : (lines.map Line.object).Nodup := by
  induction laid with
  | nil => exact List.nodup_nil
  | @cons level x inner beside text nested others holdings _ below rest ihNested ihOthers =>
    obtain ⟨first, others'⟩ := List.pairwise_cons.mp apart
    have own := (around_perm ⟨x, level, text⟩ nested).map Line.object
    rw [List.map_append]
    refine (own.nodup_iff.mpr (List.nodup_cons.mpr ⟨?_, ?_⟩)).append (ihOthers others') ?_
    · intro mem
      obtain ⟨y, held, inside⟩ := (below.mem_iff wf).mp mem
      exact acyclic.irreflexive x (.head' ((wf.mem_holdings holdings).mp held) inside)
    · exact ihNested (wf.apart_holdings (acyclic.irreflexive x) holdings)
    · intro z mem mem'
      obtain ⟨y, listed, inside⟩ := (rest.mem_iff wf).mp mem'
      refine first y listed z ?_ inside
      rw [own.mem_iff, List.map_cons, List.mem_cons, below.mem_iff wf] at mem
      exact (wf.below_iff_holdings holdings).mpr (mem.imp_left Eq.symm)

/-- Objects have their lines in the order of the list. -/
theorem Lines.sublist (laid : ctx.Lines level xs lines) : xs.Sublist (lines.map Line.object) := by
  induction laid with
  | nil => exact List.nil_sublist _
  | @cons level x inner beside text nested others holdings _ _ _ _ ihOthers =>
    have own : ⟨x, level, text⟩ ∈ Line.around ⟨x, level, text⟩ nested :=
      mem_around.mpr (.inl rfl)
    have first : [x].Sublist ((Line.around ⟨x, level, text⟩ nested).map Line.object) :=
      List.singleton_sublist.mpr (List.mem_map_of_mem (f := Line.object) own)
    rw [List.map_append]
    exact first.append ihOthers

theorem Lines.exists_line (laid : ctx.Lines level xs lines) (mem : x ∈ xs) :
    ∃ line ∈ lines, line.object = x ∧ line.level = level := by
  induction laid with
  | nil => exact absurd mem List.not_mem_nil
  | cons _ _ _ _ _ ihOthers =>
    rcases List.mem_cons.mp mem with rfl | later
    · exact ⟨_, List.mem_append_left _ (mem_around.mpr (.inl rfl)), rfl, rfl⟩
    · obtain ⟨line, listed, same⟩ := ihOthers later
      exact ⟨line, List.mem_append_right _ listed, same⟩

/-- Every line is that of an object with lines of what the object holds. -/
theorem Lines.at_line (laid : ctx.Lines level xs lines) :
    ∀ line ∈ lines, ∃ inner beside nested, ctx.holdings line.object = .ok inner ∧
      ctx.lineText inner beside line.object = .ok line.text ∧
      ctx.Lines (line.level + line.object.step) inner nested ∧ nested.Sublist lines := by
  induction laid with
  | nil => exact fun _ mem => absurd mem List.not_mem_nil
  | @cons level x inner beside text nested others holdings text' below _ ihNested ihOthers =>
    have inside := (sublist_around ⟨x, level, text⟩ nested).trans
      (List.sublist_append_left (Line.around ⟨x, level, text⟩ nested) others)
    intro line mem
    rcases List.mem_append.mp mem with first | later
    · rcases mem_around.mp first with rfl | mem
      · exact ⟨inner, beside, nested, holdings, text', below, inside⟩
      · obtain ⟨inner', beside', nested', found, text', below', part⟩ := ihNested line mem
        exact ⟨inner', beside', nested', found, text', below', part.trans inside⟩
    · obtain ⟨inner', beside', nested', found, text', below', part⟩ := ihOthers line later
      exact ⟨inner', beside', nested', found, text', below',
        part.trans (List.sublist_append_right _ _)⟩

/-- What an object holds has lines in the order in which it is held. -/
theorem Lines.ordered (laid : ctx.Lines level xs lines) {line : Line} (mem : line ∈ lines)
    (holdings : ctx.holdings line.object = .ok inner) :
    inner.Sublist (lines.map Line.object) := by
  obtain ⟨inner', -, nested, found, -, below, part⟩ := laid.at_line line mem
  cases holdings.symm.trans found
  exact below.sublist.trans (part.map Line.object)

/-! ## Levels -/

/-- How many regions are around an object inside of another one. -/
inductive Depth (ctx : Context) (root : Object) : Object → Nat → Prop where
  | root : Depth ctx root root 0
  | region {op : OpRef} {r : RegionRef} {d : Nat} : Depth ctx root (.operation op) d →
      ctx.Holds (.operation op) (.region r) → Depth ctx root (.region r) d
  | block {r : RegionRef} {b : BlockRef} {d : Nat} : Depth ctx root (.region r) d →
      ctx.Holds (.region r) (.block b) → Depth ctx root (.block b) (d + 1)
  | operation {b : BlockRef} {op : OpRef} {d : Nat} : Depth ctx root (.block b) d →
      ctx.Holds (.block b) (.operation op) → Depth ctx root (.operation op) d

theorem Depth.pos_of_block {root : OpRef} {b : BlockRef} {d : Nat}
    (deep : ctx.Depth (.operation root) (.block b) d) : 0 < d := by
  cases deep
  exact Nat.succ_pos _

/-- What an object holds has lines as many levels deeper as it should. -/
theorem Lines.exists_inner (wf : ctx.WellFormed) (laid : ctx.Lines level xs lines) {line : Line}
    (mem : line ∈ lines) (object : line.object = x) (held : ctx.Holds x y) :
    ∃ line' ∈ lines, line'.object = y ∧ line'.level = line.level + x.step := by
  subst object
  obtain ⟨inner, -, nested, holdings, -, below, part⟩ := laid.at_line line mem
  obtain ⟨line', listed, same⟩ := below.exists_line ((wf.mem_holdings holdings).mpr held)
  exact ⟨line', part.subset listed, same⟩

/-- The depth of an object determines its level. -/
theorem Lines.level_of_depth (wf : ctx.WellFormed) {root : OpRef} {d : Nat}
    (laid : ctx.Lines 0 [.operation root] lines) (deep : ctx.Depth (.operation root) x d) :
    ∃ line ∈ lines, line.object = x ∧ line.level = x.levelAt d := by
  induction deep with
  | root => exact laid.exists_line List.mem_cons_self
  | region _ held ih =>
    obtain ⟨line, mem, object, same⟩ := ih
    obtain ⟨line', mem', object', same'⟩ := laid.exists_inner wf mem object held
    exact ⟨line', mem', object', by simp [same', same, Object.levelAt, Object.step]⟩
  | block _ held ih =>
    obtain ⟨line, mem, object, same⟩ := ih
    obtain ⟨line', mem', object', same'⟩ := laid.exists_inner wf mem object held
    refine ⟨line', mem', object', ?_⟩
    simp only [same', same, Object.levelAt, Object.step]
    omega
  | operation deep held ih =>
    obtain ⟨line, mem, object, same⟩ := ih
    obtain ⟨line', mem', object', same'⟩ := laid.exists_inner wf mem object held
    refine ⟨line', mem', object', ?_⟩
    have positive := deep.pos_of_block
    simp only [same', same, Object.levelAt, Object.step]
    omega

end Context

end HardwareIR
