import HardwareIR.Fault
import Mathlib.Data.List.Basic

/-! # What qualified names are told apart by

A qualified name is printed with a dot between its parts, and there may be dots in the parts
themselves.  So a text tells which name it is of but for the place of the dot that joins the parts
(`NameRole.print_eq_print_iff`): `hw.param.value` is printed for `param.value` of `hw`, and for
`value` of `hw.param`.
-/

namespace HardwareIR

/-! ## Identifiers -/

namespace Identifier

theorem ofString?_eq_some_iff {text : String} {id : Identifier} :
    ofString? text = some id ↔ id.text = text := by
  unfold ofString?
  split_ifs with valid
  · constructor
    · intro same
      cases same
      rfl
    · rintro rfl
      rfl
  · refine ⟨nofun, ?_⟩
    rintro rfl
    exact absurd id.valid valid

end Identifier

theorem isIdentifier_iff {text : String} : isIdentifier text = true ↔ ∃ first rest,
    text.toList = first :: rest ∧ isIdentifierStart first = true ∧
      ∀ c ∈ rest, isIdentifierRest c = true := by
  unfold isIdentifier
  cases text.toList with
  | nil => simp
  | cons first rest => simp

/-- What stands before a dot in an identifier is an identifier. -/
theorem isIdentifier_of_append_dot {start rest : String}
    (valid : isIdentifier (start ++ "." ++ rest) = true) : isIdentifier start = true := by
  obtain ⟨first, others, chars, begins, continues⟩ := isIdentifier_iff.mp valid
  have split : start.toList ++ '.' :: rest.toList = first :: others := by
    simpa using chars
  rw [isIdentifier_iff]
  cases letters : start.toList with
  | nil =>
    -- No identifier begins with a dot.
    rw [letters] at split
    cases split
    cases begins
  | cons c cs =>
    rw [letters] at split
    cases split
    exact ⟨first, cs, rfl, begins, fun d mem => continues d (by simp [mem])⟩

/-! ## Dots -/

/-- Where a text goes on to the dot of another one, they share that dot or there is a part between
the dots. -/
theorem same_or_between {a b c d : String} {m : List Char} (before : c.toList = a.toList ++ m)
    (after : '.' :: b.toList = m ++ '.' :: d.toList) :
    a = c ∧ b = d ∨ ∃ m, c = a ++ "." ++ m ∧ b = m ++ "." ++ d := by
  cases m with
  | nil =>
    obtain ⟨-, after⟩ := List.cons.inj after
    exact .inl ⟨String.toList_inj.mp (by simpa using before.symm), String.toList_inj.mp after⟩
  | cons dot m =>
    obtain ⟨rfl, after⟩ := List.cons.inj after
    refine .inr ⟨.ofList m, String.toList_inj.mp ?_, String.toList_inj.mp ?_⟩
    · simpa using before
    · simpa using after

theorem append_dot_eq_iff {a b c d : String} : a ++ "." ++ b = c ++ "." ++ d ↔
    a = c ∧ b = d ∨ (∃ m, c = a ++ "." ++ m ∧ b = m ++ "." ++ d) ∨
      ∃ m, a = c ++ "." ++ m ∧ d = m ++ "." ++ b := by
  constructor
  · intro same
    have chars : a.toList ++ '.' :: b.toList = c.toList ++ '.' :: d.toList := by
      simpa using congrArg String.toList same
    rcases List.append_eq_append_iff.mp chars with ⟨m, before, after⟩ | ⟨m, before, after⟩
    · rcases same_or_between before after with equal | between
      · exact .inl equal
      · exact .inr (.inl between)
    · rcases same_or_between before after with ⟨rfl, rfl⟩ | between
      · exact .inl ⟨rfl, rfl⟩
      · exact .inr (.inr between)
  · rintro (⟨rfl, rfl⟩ | ⟨m, rfl, rfl⟩ | ⟨m, rfl, rfl⟩)
    · rfl
    · simp [String.append_assoc]
    · simp [String.append_assoc]

/-! ## Qualified names -/

namespace NameRole

variable {role role' : NameRole} {text d n d' n' : String} {id a b : QualifiedName}

theorem parse_eq_ok_iff {id : Identifier} : role.parse text = .ok id ↔ id.text = text := by
  rw [← Identifier.ofString?_eq_some_iff, parse]
  cases Identifier.ofString? text <;> simp [Misuse.throw]

/-- The texts of a dialect and of a name in it are accepted as the parts of a qualified name. -/
structure Accepts (role : NameRole) (dialect name : String) (id : QualifiedName) : Prop where
  dialect : ofDialect.parse dialect = .ok id.dialect
  name : role.parse name = .ok id.name

theorem Accepts.print_eq (accepted : role.Accepts d n id) : id.print = d ++ "." ++ n := by
  rw [QualifiedName.print, parse_eq_ok_iff.mp accepted.dialect, parse_eq_ok_iff.mp accepted.name]

/-- The second dialect is called like the first one and, behind a dot, an identifier that the name
in the first one begins with. -/
def Within (dialect name dialect' name' : String) : Prop :=
  ∃ m : Identifier, dialect' = dialect ++ "." ++ m.text ∧ name = m.text ++ "." ++ name'

/-- What is between the dots of an accepted name is an identifier. -/
theorem Accepts.within_iff (accepted : role.Accepts d n id) :
    Within d n d' n' ↔ ∃ m, d' = d ++ "." ++ m ∧ n = m ++ "." ++ n' := by
  constructor
  · rintro ⟨m, dialect, name⟩
    exact ⟨m.text, dialect, name⟩
  · rintro ⟨m, dialect, name⟩
    have valid := id.name.valid
    rw [parse_eq_ok_iff.mp accepted.name, name] at valid
    exact ⟨⟨m, isIdentifier_of_append_dot valid⟩, dialect, name⟩

/-- Accepted names have one text exactly if their parts are the same, or the one dialect is called
like the other one and the beginning of the name in it. -/
theorem print_eq_print_iff (accepted : role.Accepts d n a) (accepted' : role'.Accepts d' n' b) :
    a.print = b.print ↔ d = d' ∧ n = n' ∨ Within d n d' n' ∨ Within d' n' d n := by
  rw [accepted.print_eq, accepted'.print_eq, append_dot_eq_iff, accepted.within_iff,
    accepted'.within_iff]

/-! ## Two names with one text -/

/-- The operation `param.value` of `hw`. -/
def paramValueOfHw : QualifiedName :=
  ⟨{ text := "hw" }, { text := "param.value" }⟩

/-- The operation `value` of `hw.param`. -/
def valueOfHwParam : QualifiedName :=
  ⟨{ text := "hw.param" }, { text := "value" }⟩

theorem print_eq_print_iff_param :
    ofOperation.Accepts "hw" "param.value" paramValueOfHw ∧
      ofOperation.Accepts "hw.param" "value" valueOfHwParam ∧
      paramValueOfHw.print = valueOfHwParam.print := by
  have inner : ofOperation.Accepts "hw" "param.value" paramValueOfHw := ⟨rfl, rfl⟩
  have outer : ofOperation.Accepts "hw.param" "value" valueOfHwParam := ⟨rfl, rfl⟩
  have within : Within "hw" "param.value" "hw.param" "value" := ⟨{ text := "param" }, rfl, rfl⟩
  exact ⟨inner, outer, (print_eq_print_iff inner outer).mpr (.inr (.inl within))⟩

/-- Names of different dialects can have one text, be they of operations, types or attributes. -/
theorem accepted_namesakes :
    (ofOperation.Accepts "hw" "param.value" paramValueOfHw ∧
      ofOperation.Accepts "hw.param" "value" valueOfHwParam) ∧
    (ofType.Accepts "hw" "param.value" paramValueOfHw ∧
      ofType.Accepts "hw.param" "value" valueOfHwParam) ∧
    (ofAttribute.Accepts "hw" "param.value" paramValueOfHw ∧
      ofAttribute.Accepts "hw.param" "value" valueOfHwParam) ∧
    paramValueOfHw.print = valueOfHwParam.print ∧
    paramValueOfHw.dialect ≠ valueOfHwParam.dialect ∧ paramValueOfHw.name ≠ valueOfHwParam.name :=
  ⟨⟨⟨rfl, rfl⟩, ⟨rfl, rfl⟩⟩, ⟨⟨rfl, rfl⟩, ⟨rfl, rfl⟩⟩, ⟨⟨rfl, rfl⟩, ⟨rfl, rfl⟩⟩, by decide,
    by decide, by decide⟩

end NameRole

end HardwareIR
