/-! # Source locations

Where in the design's sources an operation or an error comes from.  Locations nest: several can be
fused into one, and one can be labelled with a name such as that of a signal.

`Location.print` is the text of a location; file names and labels stand in it as they are.
-/

namespace HardwareIR

/-- A place in the sources. -/
inductive Location where
  | position (file : String) (line column : UInt32)
  /-- Several places merged into one. -/
  | fused (parts : List Location)
  /-- A place labelled with a name. -/
  | named (name : String) (inner : Location)
  | unknown
deriving Inhabited

namespace Location

mutual
/-- Whether two locations have the same shape and the same contents. -/
def same : Location → Location → Bool
  | .position f l c, .position f' l' c' => f == f' && l == l' && c == c'
  | .fused parts, .fused parts' => sameAll parts parts'
  | .named n inner, .named n' inner' => n == n' && inner.same inner'
  | .unknown, .unknown => true
  | _, _ => false

def sameAll : List Location → List Location → Bool
  | [], [] => true
  | a :: as, b :: bs => a.same b && sameAll as bs
  | _, _ => false
end

mutual
theorem eq_of_same : ∀ {a b : Location}, a.same b = true → a = b
  | .position .., b, h => by
      cases b <;> simp_all [same]
  | .fused parts, b, h => by
      cases b with
      | fused parts' => simp only [same] at h; rw [eq_of_sameAll h]
      | _ => simp [same] at h
  | .named n inner, b, h => by
      cases b with
      | named n' inner' =>
        simp only [same, Bool.and_eq_true, beq_iff_eq] at h
        rw [h.1, eq_of_same h.2]
      | _ => simp [same] at h
  | .unknown, b, h => by cases b <;> simp_all [same]

theorem eq_of_sameAll : ∀ {as bs : List Location}, sameAll as bs = true → as = bs
  | [], bs, h => by cases bs <;> simp_all [sameAll]
  | a :: as, bs, h => by
      cases bs with
      | nil => simp [sameAll] at h
      | cons b bs =>
        simp only [sameAll, Bool.and_eq_true] at h
        rw [eq_of_same h.1, eq_of_sameAll h.2]
end

mutual
theorem same_self : ∀ a : Location, a.same a = true
  | .position .. => by simp [same]
  | .fused parts => by simp only [same]; exact sameAll_self parts
  | .named _ inner => by simp [same, same_self inner]
  | .unknown => by simp [same]

theorem sameAll_self : ∀ as : List Location, sameAll as as = true
  | [] => by simp [sameAll]
  | a :: as => by simp [sameAll, same_self a, sameAll_self as]
end

instance : DecidableEq Location := fun a b =>
  decidable_of_iff (a.same b = true) ⟨eq_of_same, fun h => h ▸ same_self a⟩

mutual
def print : Location → String
  | .position file line column => s!"{file}: line: {line}, column: {column}"
  | .fused parts => "fused[" ++ ", ".intercalate (printAll parts) ++ "]"
  | .named name inner => "\"" ++ name ++ "\"(" ++ inner.print ++ ")"
  | .unknown => "<unknown>"

def printAll : List Location → List String
  | [] => []
  | part :: parts => part.print :: printAll parts
end

def isUnknown : Location → Bool
  | .unknown => true
  | _ => false

end Location

end HardwareIR
