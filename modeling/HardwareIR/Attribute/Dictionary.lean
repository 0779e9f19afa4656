import HardwareIR.TypeStore.Printer

/-! # Attribute dictionaries

The attributes of an operation, by key.  A dictionary prints its entries in the order of their
keys.

The keys that operations of the known kinds use for themselves are named here.
-/

namespace HardwareIR

abbrev AttributeDict := SortedMap String Attribute

namespace AttributeDict

def symbolName : String := "builtin.sym_name"

def parameters : String := "hw.parameters"

def constantValue : String := "hw.constant.value"

def paramValue : String := "hw.param.value"

/-- The attribute at `key`, if it is of the kind asked for. -/
def getOfKind? (d : AttributeDict) (key : String) (kind : Attribute.Kind) : Option Attribute :=
  (d.get? key).filter fun a => a.kind = kind

def getString? (d : AttributeDict) (key : String) : Option String :=
  match d.get? key with
  | some (.string s) => some s
  | _ => none

/-- The elements of the list at `key`. -/
def getArray? (d : AttributeDict) (key : String) : Option (List Attribute) :=
  match d.get? key with
  | some (.array elements) => some elements
  | _ => none

def printEntry (types : TypeStore) (entry : String × Attribute) : Except Fault String := do
  return entry.1 ++ " = " ++ (← types.printAttribute entry.2)

/-- The text of a dictionary: its entries in brackets. -/
def print (types : TypeStore) (d : AttributeDict) : Except Fault String := do
  return "[" ++ commaSeparated (← d.entries.mapM (printEntry types)) ++ "]"

end AttributeDict

end HardwareIR
