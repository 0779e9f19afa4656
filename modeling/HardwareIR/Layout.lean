import HardwareIR.Fault

/-! # Laying out text in lines

Text that spans lines is printed by a `Printer`, which knows how far the current line is indented
and by how much a nested line is indented further.  `Printer.indented` prints something one level
deeper and comes back to the level that it started from.
-/

namespace HardwareIR

structure Layout where
  /-- How many blanks one level adds. -/
  width : Nat := 2
  /-- How many blanks the current level has. -/
  indent : Nat := 0
deriving DecidableEq, Repr

namespace Layout

def push (l : Layout) : Layout := { l with indent := l.indent + l.width }

def pop (l : Layout) : Layout := { l with indent := l.indent - l.width }

/-- A line break, with the blanks of the line that it begins. -/
def lineBreak (l : Layout) : String :=
  "\n" ++ String.ofList (List.replicate l.indent ' ')

/-- One level back from one level deeper is where it started. -/
@[simp] theorem pop_push (l : Layout) : l.push.pop = l := by
  simp [push, pop]

end Layout

/-- Printing, which may fail and may move between levels. -/
abbrev Printer (α : Type) := StateT Layout (Except Fault) α

/-- What goes between the items of a list. -/
inductive Separator where
  | newline
  /-- A character and a blank. -/
  | char (c : Char)
deriving DecidableEq, Repr

namespace Printer

/-- Starts a new line at the current level. -/
def newline : Printer String := do
  return (← get).lineBreak

/-- Prints one level deeper. -/
def indented (body : Printer String) : Printer String := do
  modify Layout.push
  let text ← body
  modify Layout.pop
  return text

def separator : Separator → Printer String
  | .newline => newline
  | .char c => return String.ofList [c, ' ']

/-- Items with a separator between them. -/
def separated (sep : Separator) (items : List String) : Printer String := do
  return (← separator sep).intercalate items

/-- Lines between braces, one level deeper, with the closing brace on a line of its own. -/
def braced (body : Printer String) : Printer String := do
  let text ← indented body
  return "\x7b" ++ text ++ (← newline) ++ "\x7d"

end Printer

end HardwareIR
