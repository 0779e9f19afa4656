import HardwareIR.SortedMap

/-! # Identifiers and qualified names

An identifier starts with an ASCII letter or an underscore and goes on with letters, digits,
underscores, dollar signs and dots.  Every named thing carries one: dialects, the kinds of
operations, types and attributes, parameters, and the labels of blocks.

* `Identifier.ofString?` is the check, and the only way from text to an identifier;
* `QualifiedName` puts the name of a kind behind the name of its dialect.

Both are ordered by code point, dialect first.
-/

namespace HardwareIR

def isIdentifierStart (c : Char) : Bool :=
  c.isAlpha || c == '_'

/-- What may follow the first character of an identifier. -/
def isIdentifierRest (c : Char) : Bool :=
  c.isAlphanum || c == '_' || c == '$' || c == '.'

def isIdentifier (text : String) : Bool :=
  match text.toList with
  | [] => false
  | first :: rest => isIdentifierStart first && rest.all isIdentifierRest

/-- A text that is an identifier. -/
structure Identifier where
  text : String
  valid : isIdentifier text = true := by exact Eq.refl true
deriving DecidableEq

namespace Identifier

/-- `text` as an identifier, if it is one. -/
def ofString? (text : String) : Option Identifier :=
  if h : isIdentifier text = true then some ⟨text, h⟩ else none

instance : ToString Identifier := ⟨Identifier.text⟩

instance : Ord Identifier := ⟨fun a b => compare a.text b.text⟩

instance : Std.TransOrd Identifier where
  eq_swap := Std.OrientedOrd.eq_swap (α := String)
  isLE_trans := Std.TransOrd.isLE_trans (α := String)

instance : Std.LawfulEqOrd Identifier where
  compare_self := Std.ReflOrd.compare_self (α := String)
  eq_of_compare {a b} h := by
    have same : a.text = b.text := Std.LawfulEqOrd.eq_of_compare (α := String) h
    cases a
    cases b
    simp_all

end Identifier

/-- The name of a kind of operation, type or attribute: its dialect's name and its own. -/
structure QualifiedName where
  dialect : Identifier
  name : Identifier
deriving DecidableEq

namespace QualifiedName

def print (id : QualifiedName) : String :=
  id.dialect.text ++ "." ++ id.name.text

instance : ToString QualifiedName := ⟨print⟩

instance : Ord QualifiedName :=
  ⟨fun a b => (compare a.dialect b.dialect).then (compare a.name b.name)⟩

instance : Std.TransOrd QualifiedName :=
  inferInstanceAs
    (Std.TransCmp (compareLex (compareOn QualifiedName.dialect) (compareOn QualifiedName.name)))

instance : Std.LawfulEqOrd QualifiedName where
  eq_of_compare {a b} h := by
    obtain ⟨first, second⟩ := Ordering.then_eq_eq.mp h
    have dialect : a.dialect = b.dialect := Std.LawfulEqOrd.eq_of_compare first
    have name : a.name = b.name := Std.LawfulEqOrd.eq_of_compare second
    cases a
    cases b
    simp_all

end QualifiedName

end HardwareIR
