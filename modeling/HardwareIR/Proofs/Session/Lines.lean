import HardwareIR.Proofs.Context.LaidOut
import HardwareIR.Proofs.Session.Arguments
import HardwareIR.Proofs.Session.Verdict

/-! # Printed operations in sessions

In a session an operation prints line by line, and the printer comes back to the level that it
started from.
-/

namespace HardwareIR

open Relation (ReflTransGen)
open Text (OneLine)

/-- The keys that operations of the known kinds use for themselves. -/
def AttributeDict.ownKeys : List String :=
  [symbolName, parameters, constantValue, paramValue]

theorem AttributeDict.ownKeys_oneLine : ∀ key ∈ ownKeys, OneLine key := by
  decide

namespace Context

variable {ctx : Context} {root op : OpRef}

theorem plainKeys_of_ownKeys (own : ∀ o, ctx.operation op = .ok o →
    ∀ entry ∈ o.attributes.entries, entry.1 ∈ AttributeDict.ownKeys) : ctx.PlainKeys op :=
  fun o live entry mem => AttributeDict.ownKeys_oneLine _ (own o live entry mem)

/-- An operation with everything nested in it has a text, which is its lines: each object has one,
in the order in which it is held, with two levels for every region around it and one less if it is a
block.  There are no line breaks but those between the lines, whatever strings are printed, as long
as the keys of the attributes have none. -/
theorem printed_in_lines (reachable : ctx.Reachable) (acyclic : ctx.Acyclic)
    (live : ctx.Live (.operation root))
    (names : ∀ op, ReflTransGen ctx.Holds (.operation root) (.operation op) → ctx.NamesOperands op)
    (keys : ∀ op, ReflTransGen ctx.Holds (.operation root) (.operation op) → ctx.PlainKeys op) :
    ∃ first rest, ctx.LaidOut root (first :: rest) ∧ first.object = .operation root ∧
      ∀ l, ∃ text, (ctx.print (.operation root)).run l = .ok (text, l) ∧
        text.toList.splitOn '\n' =
          first.text.toList :: rest.map fun line => (shown l line).toList := by
  have sound := reachable.sound
  have wf := sound.wellFormed
  obtain ⟨t, tree⟩ := wf.tree_ok live fun x _ => acyclic.irreflexive x
  have heads : ∀ z, ReflTransGen ctx.Holds (.operation root) z → ctx.Headed z := by
    intro z below inner beside
    have present := wf.live_of_below live below
    cases z with
    | operation op =>
      obtain ⟨o, found⟩ := present
      obtain ⟨head, printed⟩ := sound.printHead_ok found (names op below)
      exact ⟨_, Except.map_eq_ok.mpr ⟨head, printed, rfl⟩⟩
    | region r => exact ⟨_, rfl⟩
    | block b => exact sound.printBlockHead_ok reachable.argumentsInterned present
  obtain ⟨first, rest, laid, object, printed⟩ := print_in_lines wf tree heads
  have out := laid.laidOut wf acyclic
  have plain : ∀ line ∈ first :: rest, OneLine line.text := by
    intro line mem
    obtain ⟨-, inner, beside, -, text⟩ := out.texts line mem
    refine lineText_oneLine text fun op object => keys op ?_
    rw [← object, ← out.nested]
    exact List.mem_map_of_mem mem
  refine ⟨first, rest, out, object, fun l => ⟨_, printed l, ?_⟩⟩
  exact splitOn_shownBelow (plain first List.mem_cons_self) fun line mem =>
    plain line (List.mem_cons_of_mem _ mem)

/-- The operations of the nested module have no operands and no attributes of others. -/
theorem plain_nestedModule {op : OpRef}
    (below : ReflTransGen nestedModule.Holds (.operation ⟨0, 0⟩) (.operation op)) :
    nestedModule.NamesOperands op ∧ nestedModule.PlainKeys op := by
  have wf := standard_nestedModule.reachable.sound.wellFormed
  have mem : op ∈ [⟨0, 0⟩, ⟨1, 0⟩, ⟨3, 0⟩, ⟨2, 0⟩] :=
    (preorder_nestedModule.mem_iff wf).mpr ⟨_, List.mem_cons_self, below⟩
  have each : ∀ op ∈ ([⟨0, 0⟩, ⟨1, 0⟩, ⟨3, 0⟩, ⟨2, 0⟩] : List OpRef), ∃ o,
      nestedModule.operation op = .ok o ∧ o.operands = [] ∧
        ∀ entry ∈ o.attributes.entries, entry.1 ∈ AttributeDict.ownKeys := by
    simp only [List.forall_mem_cons, List.not_mem_nil, false_imp_iff, implies_true, and_true]
    exact ⟨⟨_, rfl, rfl, by decide⟩, ⟨_, rfl, rfl, by decide⟩, ⟨_, rfl, rfl, by decide⟩,
      ⟨_, rfl, rfl, by decide⟩⟩
  obtain ⟨o, found, none, own⟩ := each op mem
  constructor
  · intro o' found' b index used
    cases found.symm.trans found'
    rw [none] at used
    cases used
  · refine plainKeys_of_ownKeys fun o' found' => ?_
    cases found.symm.trans found'
    exact own

/-- The terminator of the definition has two regions around it, so that at an indentation of three
blanks and a width of four there are nineteen blanks before it. -/
theorem printed_in_lines_nested :
    ∃ text, (nestedModule.print (.operation ⟨0, 0⟩)).run ⟨4, 3⟩ = .ok (text, ⟨4, 3⟩) ∧
      List.replicate 19 ' ' ++ "arc.output()".toList ∈ text.toList.splitOn '\n' := by
  have reachable := standard_nestedModule.reachable
  have wf := reachable.sound.wellFormed
  obtain ⟨first, rest, out, object, printed⟩ := printed_in_lines reachable acyclic_nestedModule
    ⟨_, rfl⟩ (fun op below => (plain_nestedModule below).1) fun op below =>
      (plain_nestedModule below).2
  obtain ⟨text, run, split⟩ := printed ⟨4, 3⟩
  refine ⟨text, run, ?_⟩
  obtain ⟨region, block, define, region', block', output⟩ := holds_nestedModule
  have deep : nestedModule.Depth (.operation ⟨0, 0⟩) (.operation ⟨3, 0⟩) 2 :=
    .operation (.block (.region (.operation (.block (.region .root region) block) define) region')
      block') output
  have below : ReflTransGen nestedModule.Holds (.operation ⟨0, 0⟩) (.operation ⟨3, 0⟩) :=
    .tail (.tail (.tail (.tail (.tail (.single region) block) define) region') block') output
  obtain ⟨line, mem, same⟩ := List.mem_map.mp ((out.nested _).mpr below)
  have level : line.level = 4 := by
    rw [out.levels line mem 2 (same ▸ deep), same]
    rfl
  have shownText : line.text = "arc.output()" := by
    obtain ⟨-, inner, beside, holdings, own⟩ := out.texts line mem
    rw [same] at holdings own
    have nothing : nestedModule.holdings (.operation ⟨3, 0⟩) = .ok [] := rfl
    cases holdings.symm.trans nothing
    have head : nestedModule.lineText [] beside (.operation ⟨3, 0⟩) = .ok "arc.output()" := rfl
    exact Except.ok.inj (own.symm.trans head)
  rcases List.mem_cons.mp mem with rfl | later
  · rw [object] at same
    cases same
  · rw [split]
    refine List.mem_cons_of_mem _ (List.mem_map.mpr ⟨line, later, ?_⟩)
    simp [shown, level, shownText]

end Context

end HardwareIR
