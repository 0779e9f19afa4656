import HardwareIR.Attribute.Dictionary
import HardwareIR.Proofs.Except
import HardwareIR.Proofs.SortedMap

/-! # Attribute dictionaries and what was set in them

The text of a dictionary lists what was set in it: every key once, in ascending order, with the text
of the attribute that was set last (`AttributeDict.Listing`).  There is one such listing at most, so
that nothing else of what was set shows (`AttributeDict.records_ofInsertions`).

`AttributeTable` is a dictionary as it is laid out for fast lookups, with its entries in no
particular order, which are sorted when it is printed.  It is in step with the dictionary
(`AttributeTable.inStep_of_filled`).
-/

namespace HardwareIR

open SortedMap (ofInsertions)

variable {types : TypeStore} {updates : List (String × Attribute)}

namespace AttributeDict

/-! ## Listings -/

/-- The key of an entry with the text of its attribute. -/
def showEntry (types : TypeStore) (entry : String × Attribute) : Except Fault (String × String) :=
  (types.printAttribute entry.2).map fun text => (entry.1, text)

/-- Keys with texts, in brackets. -/
def bracketed (shown : List (String × String)) : String :=
  "[" ++ ", ".intercalate (shown.map fun entry => entry.1 ++ " = " ++ entry.2) ++ "]"

theorem showEntry_eq_ok_iff {entry : String × Attribute} {shown : String × String} :
    showEntry types entry = .ok shown ↔
      entry.1 = shown.1 ∧ types.printAttribute entry.2 = .ok shown.2 := by
  rw [showEntry, Except.map_eq_ok]
  constructor
  · rintro ⟨text, printed, rfl⟩
    exact ⟨rfl, printed⟩
  · rintro ⟨key, printed⟩
    exact ⟨shown.2, printed, Prod.ext key rfl⟩

theorem mapM_printEntry (types : TypeStore) (entries : List (String × Attribute)) :
    entries.mapM (printEntry types) =
      (entries.mapM (showEntry types)).map fun shown =>
        shown.map fun entry => entry.1 ++ " = " ++ entry.2 := by
  induction entries with
  | nil => rfl
  | cons entry rest ih =>
    rw [List.mapM_cons, List.mapM_cons, ih, printEntry, showEntry]
    cases types.printAttribute entry.2 with
    | error fault => rfl
    | ok text => cases rest.mapM (showEntry types) <;> rfl

theorem print_eq (types : TypeStore) (d : AttributeDict) :
    d.print types = (d.entries.mapM (showEntry types)).map bracketed := by
  rw [print, mapM_printEntry]
  cases d.entries.mapM (showEntry types) <;> rfl

theorem map_fst_of_mapM_showEntry {entries : List (String × Attribute)}
    {shown : List (String × String)} (all : entries.mapM (showEntry types) = .ok shown) :
    shown.map (·.1) = entries.map (·.1) := by
  induction entries generalizing shown with
  | nil =>
    cases all
    rfl
  | cons entry rest ih =>
    obtain ⟨first, others, here, there, rfl⟩ := Except.mapM_cons_eq_ok.mp all
    rw [List.map_cons, List.map_cons, ih there, (showEntry_eq_ok_iff.mp here).1]

/-- Keys with texts list what was set: every key once, in ascending order, with the text of the
attribute that was set last. -/
structure Listing (types : TypeStore) (updates : List (String × Attribute))
    (shown : List (String × String)) : Prop where
  ascending : shown.Pairwise fun a b => a.1 < b.1
  keys : ∀ key, key ∈ shown.map (·.1) ↔ key ∈ updates.map (·.1)
  last : ∀ entry ∈ shown, ∃ value, lastAt? updates entry.1 = some value ∧
    types.printAttribute value = .ok entry.2

theorem mem_entries_iff_lastAt? {entry : String × Attribute} :
    entry ∈ (ofInsertions updates).entries ↔ lastAt? updates entry.1 = some entry.2 := by
  rw [SortedMap.mem_entries_iff, SortedMap.get?_ofInsertions]

theorem mem_keys_iff {key : String} :
    key ∈ (ofInsertions updates).entries.map (·.1) ↔ key ∈ updates.map (·.1) := by
  rw [List.mem_map]
  refine Iff.trans ?_ isSome_lastAt?_iff
  rw [Option.isSome_iff_exists]
  constructor
  · rintro ⟨entry, mem, rfl⟩
    exact ⟨_, mem_entries_iff_lastAt?.mp mem⟩
  · rintro ⟨value, last⟩
    exact ⟨(key, value), mem_entries_iff_lastAt?.mpr last, rfl⟩

/-- The entries of a dictionary list what was set in it. -/
theorem listing_of_mapM_showEntry {shown : List (String × String)}
    (all : (ofInsertions updates).entries.mapM (showEntry types) = .ok shown) :
    Listing types updates shown where
  ascending := by
    have sorted : ((ofInsertions updates).entries.map (·.1)).Pairwise (· < ·) :=
      List.pairwise_map.mpr ((ofInsertions updates).sorted.imp compareOfLessAndEq_eq_lt.mp)
    rw [← map_fst_of_mapM_showEntry all] at sorted
    exact List.pairwise_map.mp sorted
  keys := by
    intro key
    rw [map_fst_of_mapM_showEntry all, mem_keys_iff]
  last := by
    intro entry mem
    obtain ⟨set, mem, here⟩ := (Except.mem_of_mapM_ok all).mp mem
    obtain ⟨key, printed⟩ := showEntry_eq_ok_iff.mp here
    exact ⟨set.2, key ▸ mem_entries_iff_lastAt?.mp mem, printed⟩

namespace Listing

variable {shown shown' : List (String × String)}

theorem subset (listing : Listing types updates shown) (listing' : Listing types updates shown') :
    shown ⊆ shown' := by
  intro entry mem
  have set := (listing.keys entry.1).mp (List.mem_map_of_mem mem)
  obtain ⟨entry', mem', key_eq⟩ := List.mem_map.mp ((listing'.keys entry.1).mpr set)
  obtain ⟨value, last, printed⟩ := listing.last entry mem
  obtain ⟨value', last', printed'⟩ := listing'.last entry' mem'
  -- The same attribute was set last, and it has one text.
  rw [key_eq, last] at last'
  cases last'
  rw [printed] at printed'
  have entry_eq : entry' = entry := Prod.ext key_eq (Except.ok.inj printed').symm
  exact entry_eq ▸ mem'

theorem nodup (listing : Listing types updates shown) : shown.Nodup := by
  refine listing.ascending.imp fun {a b} before same => ?_
  rw [same] at before
  exact String.lt_irrefl _ before

/-- There is one listing at most. -/
theorem unique (listing : Listing types updates shown) (listing' : Listing types updates shown') :
    shown = shown' := by
  refine List.Perm.eq_of_pairwise ?_ listing.ascending listing'.ascending ?_
  · exact fun a b _ _ before after => absurd after (String.lt_asymm before)
  · refine (List.perm_ext_iff_of_nodup listing.nodup listing'.nodup).mpr fun entry => ?_
    exact ⟨fun mem => listing.subset listing' mem, fun mem => listing'.subset listing mem⟩

/-- If there is one, the entries of the dictionary make it. -/
theorem mapM_showEntry (listing : Listing types updates shown) :
    (ofInsertions updates).entries.mapM (showEntry types) = .ok shown := by
  have each : ∀ entry ∈ (ofInsertions updates).entries,
      ∃ known, showEntry types entry = .ok known := by
    intro entry mem
    have set := mem_keys_iff.mp (List.mem_map_of_mem mem)
    obtain ⟨known, mem', key_eq⟩ := List.mem_map.mp ((listing.keys entry.1).mpr set)
    obtain ⟨value, last, printed⟩ := listing.last known mem'
    rw [key_eq, mem_entries_iff_lastAt?.mp mem] at last
    cases last
    exact ⟨known, showEntry_eq_ok_iff.mpr ⟨key_eq.symm, printed⟩⟩
  obtain ⟨shown', all⟩ := Except.exists_mapM_ok each
  rw [all, (listing_of_mapM_showEntry all).unique listing]

end Listing

/-! ## Dictionaries -/

/-- A dictionary has a text if every attribute in it has one. -/
theorem exists_print {d : AttributeDict}
    (texts : ∀ key value, d.get? key = some value →
      ∃ text, types.printAttribute value = .ok text) :
    ∃ text, d.print types = .ok text := by
  have each : ∀ entry ∈ d.entries, ∃ shown, showEntry types entry = .ok shown := by
    intro entry mem
    obtain ⟨text, printed⟩ := texts entry.1 entry.2 (d.get?_of_mem mem)
    exact ⟨(entry.1, text), showEntry_eq_ok_iff.mpr ⟨rfl, printed⟩⟩
  obtain ⟨shown, all⟩ := Except.exists_mapM_ok each
  exact ⟨bracketed shown, by rw [print_eq, all, Except.map_ok]⟩

/-- A dictionary tells which attributes were set last, and nothing else of what was set. -/
structure Records (d : AttributeDict) (updates : List (String × Attribute)) : Prop where
  get?_eq : ∀ key, d.get? key = lastAt? updates key
  getOfKind?_eq_some_iff : ∀ key kind value, d.getOfKind? key kind = some value ↔
    lastAt? updates key = some value ∧ value.kind = kind
  /-- Its text lists them. -/
  print_eq_ok_iff : ∀ types text, d.print types = .ok text ↔
    ∃ shown, Listing types updates shown ∧ text = bracketed shown

theorem records_ofInsertions (updates : List (String × Attribute)) :
    Records (ofInsertions updates) updates where
  get?_eq := SortedMap.get?_ofInsertions updates
  getOfKind?_eq_some_iff := by
    intro key kind value
    rw [getOfKind?, SortedMap.get?_ofInsertions, Option.filter_eq_some_iff, decide_eq_true_iff]
  print_eq_ok_iff := by
    intro types text
    rw [print_eq, Except.map_eq_ok]
    constructor
    · rintro ⟨shown, all, rfl⟩
      exact ⟨shown, listing_of_mapM_showEntry all, rfl⟩
    · rintro ⟨shown, listing, rfl⟩
      exact ⟨shown, listing.mapM_showEntry, rfl⟩

end AttributeDict

/-! ## Tables -/

/-- Attributes by key, in no particular order. -/
abbrev AttributeTable := Table String Attribute

namespace AttributeTable

variable {table table' : AttributeTable}

/-- The attribute at `key`, if it is of the kind asked for. -/
def getOfKind? (table : AttributeTable) (key : String) (kind : Attribute.Kind) :
    Option Attribute :=
  (table.lookup key).filter fun a => a.kind = kind

/-- Whether two tables have the same attributes. -/
def same (table table' : AttributeTable) : Bool :=
  Table.same Attribute.same table table'

/-- The text of a table: its entries in brackets, sorted by their keys. -/
def print (types : TypeStore) (table : AttributeTable) : Except Fault String := do
  return "[" ++ commaSeparated (← table.sorted.mapM (AttributeDict.printEntry types)) ++ "]"

theorem same_iff : table.same table' = true ↔ ∀ key, table.lookup key = table'.lookup key :=
  Table.same_iff Attribute.same_iff

/-- A table answers as a dictionary does and has its text. -/
structure InStep (table : AttributeTable) (d : AttributeDict) : Prop where
  lookup_eq : ∀ key, table.lookup key = d.get? key
  getOfKind?_eq : ∀ key kind, table.getOfKind? key kind = d.getOfKind? key kind
  isEmpty_eq : table.entries.isEmpty = d.isEmpty
  print_eq : ∀ types, table.print types = d.print types

/-- A table is in step with the dictionary that the same was set in, whatever order its entries are
in. -/
theorem inStep_of_filled (filled : table.Filled updates) : table.InStep (ofInsertions updates) := by
  have lookup_eq : ∀ key, table.lookup key = (ofInsertions updates).get? key := by
    intro key
    rw [filled.lookup_eq, SortedMap.get?_ofInsertions]
  refine ⟨lookup_eq, fun key kind => ?_, filled.isEmpty_eq, fun types => ?_⟩
  · rw [getOfKind?, lookup_eq, AttributeDict.getOfKind?]
  · rw [print, filled.sorted_eq, AttributeDict.print]

end AttributeTable

end HardwareIR
