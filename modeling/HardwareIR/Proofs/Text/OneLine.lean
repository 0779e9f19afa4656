import HardwareIR.Attribute.Dictionary
import HardwareIR.Proofs.Except
import HardwareIR.Proofs.Text.Hex

/-! # Texts of one line

Quoting escapes every line break, and nothing else that attributes and types are made of has one.
The texts of types and attributes are therefore on one line each, whatever strings are in them
(`TypeStore.print_oneLine`, `TypeStore.printAttribute_oneLine`).
-/

namespace HardwareIR

namespace Text

/-- There is no line break in a text. -/
def OneLine (text : String) : Prop :=
  '\n' ∉ text.toList

instance (text : String) : Decidable (OneLine text) :=
  inferInstanceAs (Decidable ('\n' ∉ text.toList))

variable {s t : String} {texts : List String}

@[simp] theorem oneLine_append : OneLine (s ++ t) ↔ OneLine s ∧ OneLine t := by
  simp [OneLine]

@[simp] theorem oneLine_toString : OneLine (toString s) ↔ OneLine s := Iff.rfl

theorem oneLine_ofList {cs : List Char} : OneLine (String.ofList cs) ↔ '\n' ∉ cs := by
  simp [OneLine]

theorem oneLine_intercalate (sep : OneLine s) (each : ∀ text ∈ texts, OneLine text) :
    OneLine (s.intercalate texts) := by
  induction texts with
  | nil => simp [OneLine]
  | cons first rest ih =>
    cases rest with
    | nil => simpa using each
    | cons second rest =>
      rw [String.intercalate_cons_cons, oneLine_append, oneLine_append]
      exact ⟨⟨each first List.mem_cons_self, sep⟩,
        ih fun text mem => each text (List.mem_cons_of_mem _ mem)⟩

theorem oneLine_commaSeparated (each : ∀ text ∈ texts, OneLine text) :
    OneLine (commaSeparated texts) :=
  oneLine_intercalate (by decide) each

/-! ## Numbers -/

@[simp] theorem oneLine_repr (n : Nat) : OneLine n.repr := by
  unfold OneLine
  rw [Nat.toList_repr]
  intro mem
  exact absurd (Nat.isDigit_of_mem_toDigits (by decide) (by decide) mem) (by decide)

@[simp] theorem oneLine_uint32 (n : UInt32) : OneLine (toString n) :=
  oneLine_repr n.toNat

@[simp] theorem oneLine_int (n : Int) : OneLine (toString n) := by
  cases n with
  | ofNat n => exact oneLine_repr n
  | negSucc n =>
    show OneLine ("-" ++ (n + 1).repr)
    exact oneLine_append.mpr ⟨by decide, oneLine_repr _⟩

theorem newline_not_mem_hexDigits (n : Nat) : '\n' ∉ hexDigits n := by
  induction n using Nat.strongRecOn with
  | _ n ih =>
    have digits : ∀ i : Fin 16, '\n' ≠ Nat.digitChar i := by decide
    have last := digits ⟨n % 16, Nat.mod_lt n (by decide)⟩
    rw [hexDigits_eq, List.mem_append, List.mem_singleton, not_or]
    refine ⟨?_, last⟩
    split
    · exact List.not_mem_nil
    · exact ih (n / 16) (by omega)

@[simp] theorem oneLine_hex (n : Nat) : OneLine (hex n) :=
  oneLine_ofList.mpr (newline_not_mem_hexDigits n)

/-! ## Quoted strings -/

theorem newline_not_mem_escape (c : Char) : '\n' ∉ escape c := by
  unfold escape
  by_cases newline : c = '\n'
  · subst newline
    decide
  · repeat' split
    all_goals first
      | decide
      | exact fun mem => newline (List.mem_singleton.mp mem).symm
      | simp [newline_not_mem_hexDigits]

/-- Quoted text is on one line, whatever it quotes. -/
@[simp] theorem oneLine_quote (text : String) : OneLine (quote text) := by
  rw [quote, oneLine_ofList]
  simp [newline_not_mem_escape]

end Text

/-! ## Identifiers -/

open Text (OneLine)

@[simp] theorem Identifier.oneLine (n : Identifier) : OneLine n.text := by
  have valid := n.valid
  intro mem
  unfold isIdentifier at valid
  cases chars : n.text.toList with
  | nil => simp [chars] at mem
  | cons first rest =>
    rw [chars] at valid mem
    simp only [Bool.and_eq_true, List.all_eq_true] at valid
    rcases List.mem_cons.mp mem with same | mem
    · rw [← same] at valid
      exact absurd valid.1 (by decide)
    · exact absurd (valid.2 _ mem) (by decide)

@[simp] theorem Identifier.toString_oneLine (n : Identifier) : OneLine (toString n) :=
  n.oneLine

@[simp] theorem QualifiedName.toString_oneLine (id : QualifiedName) : OneLine (toString id) := by
  show OneLine (id.dialect.text ++ "." ++ id.name.text)
  simp +decide

/-! ## Types and attributes -/

theorem Decimal.DecimalFraction.scientific_oneLine (d : DecimalFraction) :
    OneLine d.scientific := by
  have digits : ∀ c ∈ Nat.toDigits 10 d.digits, c ≠ '\n' := by
    intro c mem newline
    have digit := Nat.isDigit_of_mem_toDigits (by decide) (by decide) mem
    rw [newline] at digit
    exact absurd digit (by decide)
  unfold scientific
  split
  next => decide
  next first rest read =>
    rw [read, List.forall_mem_cons] at digits
    have fraction : '\n' ∉ (if rest.isEmpty then [] else '.' :: rest) := by
      split
      · exact List.not_mem_nil
      · simpa +decide using fun mem => digits.2 _ mem rfl
    rw [Text.oneLine_append, Text.oneLine_append, Text.oneLine_ofList, List.mem_cons, not_or]
    exact ⟨⟨⟨digits.1.symm, fraction⟩, by decide⟩, Text.oneLine_int _⟩

theorem Decimal.Double.print_oneLine (d : Decimal.Double) : OneLine d.print := by
  cases d with
  | nan => decide
  | infinite negative => cases negative <;> decide
  | zero negative => cases negative <;> decide
  | finite negative magnitude =>
    have digits := magnitude.shortest.scientific_oneLine
    cases negative <;> simp +decide [print, sign, digits]

theorem opcode_oneLine (op : Parameter.Opcode) : OneLine op.name := by
  cases op <;> decide

namespace Attribute

variable {printType : TypeRef → Except Fault String}

mutual
/-- An attribute is on one line if the types in it are. -/
theorem printWith_oneLine (types : ∀ ty text, printType ty = .ok text → OneLine text) :
    ∀ (a : Attribute) {text : String}, a.printWith printType = .ok text → OneLine text
  | .string s, _, printed => by
    cases printed
    exact Text.oneLine_quote s
  | .integer ty l, _, printed => by
    obtain ⟨type, typed, same⟩ := Except.bind_eq_ok.mp printed
    cases same
    simp +decide [Literal.hex, types ty type typed]
  | .float bits, _, printed => by
    cases printed
    exact Decimal.Double.print_oneLine _
  | .type ty, _, printed => types ty _ printed
  | .array as, _, printed => by
    obtain ⟨texts, elements, same⟩ := Except.bind_eq_ok.mp printed
    cases same
    simp +decide [Text.oneLine_commaSeparated (printAllWith_oneLine types as elements)]
  | .paramDecl n ty d, _, printed => by
    obtain ⟨type, typed, printed⟩ := Except.bind_eq_ok.mp printed
    obtain ⟨default, given, same⟩ := Except.bind_eq_ok.mp printed
    cases same
    simp +decide [types ty type typed, printDefaultWith_oneLine types d given]
  | .paramRef n ty, _, printed => by
    obtain ⟨type, typed, same⟩ := Except.bind_eq_ok.mp printed
    cases same
    simp +decide [types ty type typed]
  | .paramExpr op as ty, _, printed => by
    obtain ⟨operands, elements, printed⟩ := Except.bind_eq_ok.mp printed
    obtain ⟨type, typed, same⟩ := Except.bind_eq_ok.mp printed
    cases same
    simp +decide [opcode_oneLine op, types ty type typed,
      Text.oneLine_commaSeparated (printAllWith_oneLine types as elements)]
  | .verbatim t ty, _, printed => by
    obtain ⟨type, typed, same⟩ := Except.bind_eq_ok.mp printed
    cases same
    simp +decide [types ty type typed]
  | .zeroCount p, _, printed => by
    cases printed
    cases p <;> decide

theorem printAllWith_oneLine (types : ∀ ty text, printType ty = .ok text → OneLine text) :
    ∀ (as : List Attribute) {texts : List String}, printAllWith printType as = .ok texts →
      ∀ text ∈ texts, OneLine text
  | [], _, printed => by
    cases printed
    exact fun _ mem => absurd mem List.not_mem_nil
  | a :: as, _, printed => by
    obtain ⟨first, here, printed⟩ := Except.bind_eq_ok.mp printed
    obtain ⟨rest, others, same⟩ := Except.bind_eq_ok.mp printed
    cases same
    exact List.forall_mem_cons.mpr
      ⟨printWith_oneLine types a here, printAllWith_oneLine types as others⟩

theorem printDefaultWith_oneLine (types : ∀ ty text, printType ty = .ok text → OneLine text) :
    ∀ (d : Option Attribute) {text : String}, printDefaultWith printType d = .ok text →
      OneLine text
  | none, _, printed => by
    cases printed
    decide
  | some a, _, printed => by
    obtain ⟨text, here, same⟩ := Except.bind_eq_ok.mp printed
    cases same
    exact Text.oneLine_append.mpr ⟨by decide, printWith_oneLine types a here⟩
end

end Attribute

namespace TypeStore

variable {s : TypeStore} {text : String}

theorem printWithin_oneLine {depth : Nat} {ty : TypeRef}
    (printed : s.printWithin depth ty = .ok text) : OneLine text := by
  induction depth generalizing ty text with
  | zero => cases printed
  | succ depth ih =>
    obtain ⟨t, -, printed⟩ := Except.bind_eq_ok.mp printed
    cases t with
    | integer width sign =>
      cases printed
      cases sign <;> simp +decide [Signedness.mark]
    | parametric width =>
      obtain ⟨inner, typed, same⟩ := Except.bind_eq_ok.mp printed
      cases same
      simp +decide [width.printWith_oneLine (fun _ _ => ih) typed]
    | state value =>
      obtain ⟨inner, typed, same⟩ := Except.bind_eq_ok.mp printed
      cases same
      simp +decide [ih typed]
    | memory words word address =>
      obtain ⟨first, typed, printed⟩ := Except.bind_eq_ok.mp printed
      obtain ⟨second, typed', same⟩ := Except.bind_eq_ok.mp printed
      cases same
      simp +decide [ih typed, ih typed']
    | storage size =>
      cases printed
      simp +decide
    | simInstance model =>
      cases printed
      simp +decide

theorem print_oneLine {ty : TypeRef} (printed : s.print ty = .ok text) : OneLine text :=
  printWithin_oneLine printed

theorem printAttribute_oneLine {a : Attribute} (printed : s.printAttribute a = .ok text) :
    OneLine text :=
  a.printWith_oneLine (fun _ _ => print_oneLine) printed

end TypeStore

/-- A dictionary is on one line if its keys are. -/
theorem AttributeDict.print_oneLine {types : TypeStore} {d : AttributeDict} {text : String}
    (keys : ∀ entry ∈ d.entries, OneLine entry.1) (printed : d.print types = .ok text) :
    OneLine text := by
  obtain ⟨texts, entries, same⟩ := Except.bind_eq_ok.mp printed
  cases same
  have each : ∀ text ∈ texts, OneLine text := by
    intro text mem
    obtain ⟨entry, listed, printed⟩ := (Except.mem_of_mapM_ok entries).mp mem
    obtain ⟨value, described, same⟩ := Except.bind_eq_ok.mp printed
    cases same
    simp +decide [keys entry listed, TypeStore.printAttribute_oneLine described]
  simp +decide [Text.oneLine_commaSeparated each]

end HardwareIR
