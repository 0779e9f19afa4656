import HardwareIR.Proofs.Except
import HardwareIR.Proofs.Text.OneLine
import HardwareIR.Context.Printer

/-! # Heads of printed objects

What an operation or a block shows before what is nested in it is on one line, if the keys of the
attributes are, and does not begin with a blank.
-/

namespace HardwareIR

open Text (OneLine)

namespace Text

/-- A text does not begin with a blank. -/
def Flush (text : String) : Prop :=
  ∃ c cs, text.toList = c :: cs ∧ c ≠ ' '

theorem Flush.append {s : String} (flush : Flush s) (t : String) : Flush (s ++ t) := by
  obtain ⟨c, cs, chars, visible⟩ := flush
  exact ⟨c, cs ++ t.toList, by rw [String.toList_append, chars, List.cons_append], visible⟩

theorem flush_commaSeparated {first : String} (flush : Flush first) (rest : List String) :
    Flush (commaSeparated (first :: rest)) := by
  cases rest with
  | nil => simpa [commaSeparated] using flush
  | cons second rest =>
    rw [commaSeparated, String.intercalate_cons_cons]
    exact (flush.append _).append _

end Text

theorem Identifier.flush (n : Identifier) : Text.Flush n.text := by
  have valid := n.valid
  unfold isIdentifier at valid
  cases chars : n.text.toList with
  | nil => simp [chars] at valid
  | cons first rest =>
    refine ⟨first, rest, chars, ?_⟩
    rintro rfl
    rw [chars] at valid
    exact absurd valid (by simp +decide)

theorem QualifiedName.toString_flush (id : QualifiedName) : Text.Flush (toString id) :=
  (id.dialect.flush.append _).append _

namespace Context

variable {ctx : Context} {op : OpRef} {o : Operation} {b : BlockRef} {text : String}

/-! ## Values -/

theorem blockName_oneLine (named : ctx.blockName b = .ok text) : OneLine text := by
  obtain ⟨content, -, named⟩ := Except.bind_eq_ok.mp named
  split at named
  · cases named
    exact Identifier.oneLine _
  · cases named
    simp +decide [Handle.name, ObjectKind.word, Nat.toString_eq_repr]

theorem printValue_oneLine {value : Value} (printed : ctx.printValue value = .ok text) :
    OneLine text := by
  cases value with
  | result op index =>
    cases printed
    simp +decide [Handle.name, ObjectKind.word, Nat.toString_eq_repr]
  | argument b index =>
    obtain ⟨name, named, same⟩ := Except.bind_eq_ok.mp printed
    cases same
    simp +decide [blockName_oneLine named, Nat.toString_eq_repr]

theorem printValue_flush {value : Value} (printed : ctx.printValue value = .ok text) :
    Text.Flush text := by
  have percent : Text.Flush "%" := ⟨'%', [], rfl, by decide⟩
  cases value with
  | result op index =>
    cases printed
    exact ((percent.append _).append _).append _
  | argument b index =>
    obtain ⟨name, -, same⟩ := Except.bind_eq_ok.mp printed
    cases same
    exact ((percent.append _).append _).append _

theorem oneLine_of_mapM {α : Type} {f : α → Except Fault String} {as : List α}
    {texts : List String} (each : ∀ a text, f a = .ok text → OneLine text)
    (found : as.mapM f = .ok texts) : OneLine (commaSeparated texts) := by
  refine Text.oneLine_commaSeparated fun text mem => ?_
  obtain ⟨a, -, printed⟩ := (Except.mem_of_mapM_ok found).mp mem
  exact each a text printed

/-! ## Heads -/

theorem printBlockHead_oneLine (printed : ctx.printBlockHead b = .ok text) : OneLine text := by
  obtain ⟨name, named, printed⟩ := Except.bind_eq_ok.mp printed
  obtain ⟨content, -, printed⟩ := Except.bind_eq_ok.mp printed
  obtain ⟨arguments, described, same⟩ := Except.bind_eq_ok.mp printed
  cases same
  have each : OneLine (commaSeparated arguments) := by
    refine oneLine_of_mapM (fun argument text printed => ?_) described
    obtain ⟨value, first, printed⟩ := Except.bind_eq_ok.mp printed
    obtain ⟨type, typed, same⟩ := Except.bind_eq_ok.mp printed
    cases same
    simp +decide [printValue_oneLine first, TypeStore.print_oneLine typed]
  simp +decide [blockName_oneLine named, each]

/-- What the text of an operation up to its regions is put together from. -/
theorem printHead_eq_ok (printed : ctx.printHead op = .ok text) :
    ∃ o results operands attributes types, ctx.operation op = .ok o ∧
      (o.results op).mapM ctx.printValue = .ok results ∧
      o.operands.mapM ctx.printValue = .ok operands ∧
      (attributes = "" ∨ ∃ inner, o.attributes.print ctx.types = .ok inner ∧
        attributes = " " ++ inner) ∧
      o.resultTypes.mapM ctx.types.print = .ok types ∧
      text = (if results.isEmpty then "" else commaSeparated results ++ " = ") ++
        toString o.id ++ "(" ++ commaSeparated operands ++ ")" ++ attributes ++
        (if types.isEmpty then "" else " : " ++ commaSeparated types) := by
  obtain ⟨o, live, printed⟩ := Except.bind_eq_ok.mp printed
  obtain ⟨results, defined, printed⟩ := Except.bind_eq_ok.mp printed
  obtain ⟨operands, used, printed⟩ := Except.bind_eq_ok.mp printed
  dsimp only at printed
  split at printed
  · obtain ⟨attributes, none, printed⟩ := Except.bind_eq_ok.mp printed
    cases none
    obtain ⟨types, typed, same⟩ := Except.bind_eq_ok.mp printed
    cases same
    exact ⟨o, results, operands, "", types, live, defined, used, .inl rfl, typed, rfl⟩
  · obtain ⟨attributes, described, printed⟩ := Except.bind_eq_ok.mp printed
    obtain ⟨inner, shown, rfl⟩ := Except.map_eq_ok.mp described
    obtain ⟨types, typed, same⟩ := Except.bind_eq_ok.mp printed
    cases same
    exact ⟨o, results, operands, _, types, live, defined, used, .inr ⟨inner, shown, rfl⟩, typed,
      rfl⟩

theorem printHead_oneLine (live : ctx.operation op = .ok o)
    (keys : ∀ entry ∈ o.attributes.entries, OneLine entry.1)
    (printed : ctx.printHead op = .ok text) : OneLine text := by
  obtain ⟨o', results, operands, attributes, types, live', defined, used, described, typed, rfl⟩ :=
    printHead_eq_ok printed
  cases live.symm.trans live'
  have values := oneLine_of_mapM (fun _ _ => printValue_oneLine) defined
  have arguments := oneLine_of_mapM (fun _ _ => printValue_oneLine) used
  have signature := oneLine_of_mapM (fun _ _ => TypeStore.print_oneLine) typed
  have shown : OneLine attributes := by
    rcases described with rfl | ⟨inner, shown, rfl⟩
    · decide
    · simp +decide [AttributeDict.print_oneLine keys shown]
  split <;> split <;> simp +decide [values, arguments, signature, shown]

theorem printHead_flush (printed : ctx.printHead op = .ok text) : Text.Flush text := by
  obtain ⟨o, results, operands, attributes, types, -, defined, -, -, -, rfl⟩ :=
    printHead_eq_ok printed
  have first : Text.Flush
      ((if results.isEmpty then "" else commaSeparated results ++ " = ") ++ toString o.id) := by
    cases results with
    | nil => exact o.id.toString_flush
    | cons result rest =>
      obtain ⟨value, -, named⟩ := (Except.mem_of_mapM_ok defined).mp List.mem_cons_self
      exact ((Text.flush_commaSeparated (printValue_flush named) rest).append _).append _
  exact ((((first.append _).append _).append _).append _).append _

theorem printBlockHead_flush (printed : ctx.printBlockHead b = .ok text) : Text.Flush text := by
  obtain ⟨name, named, printed⟩ := Except.bind_eq_ok.mp printed
  obtain ⟨content, -, printed⟩ := Except.bind_eq_ok.mp printed
  obtain ⟨arguments, described, same⟩ := Except.bind_eq_ok.mp printed
  cases same
  have caret : Text.Flush "^" := ⟨'^', [], rfl, by decide⟩
  exact ((((caret.append _).append _).append _).append _)

end Context

end HardwareIR
