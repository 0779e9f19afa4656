import HardwareIR.Proofs.Parameter.Literals
import HardwareIR.Proofs.TypeStore.Grounded
import Mathlib.Logic.Relation

/-! # Parts of verified types

A type is made of parts (`TypeStore.Part`): the value of a state, the words and addresses of a
memory, and the types that are values in the width of an integer type.  A width is checked with all
the types in it.  Of what is stored, a state or a memory only asks that it is an integer type, which
may have no bits at all (`TypeStore.Stores`).  So each part of a type that passes, at any depth,
passes itself or is such an integer type without bits.
-/

namespace HardwareIR

open Relation (ReflTransGen TransGen)

/-! ## Types as values -/

namespace Attribute

mutual
/-- The types that are values in an attribute, at any depth. -/
def typeValues : Attribute → List TypeRef
  | .type ty => [ty]
  | .array as => typeValuesAll as
  | .paramDecl _ _ d => typeValuesDefault d
  | .paramExpr _ as _ => typeValuesAll as
  | .string _ | .integer .. | .float _ | .paramRef .. | .verbatim .. | .zeroCount _ => []

/-- The types that are values in several attributes. -/
def typeValuesAll : List Attribute → List TypeRef
  | [] => []
  | a :: as => a.typeValues ++ typeValuesAll as

/-- The types that are values in a default value, if there is one. -/
def typeValuesDefault : Option Attribute → List TypeRef
  | none => []
  | some a => a.typeValues
end

mutual
theorem typeValues_subset : ∀ a : Attribute, a.typeValues ⊆ a.typeRefs
  | .type _ => List.Subset.refl _
  | .array as => typeValuesAll_subset as
  | .paramDecl _ _ d => fun _ mem => List.mem_cons_of_mem _ (typeValuesDefault_subset d mem)
  | .paramExpr _ as _ => fun _ mem => List.mem_cons_of_mem _ (typeValuesAll_subset as mem)
  | .string _ | .integer .. | .float _ | .paramRef .. | .verbatim .. | .zeroCount _ =>
    List.nil_subset _

theorem typeValuesAll_subset : ∀ as : List Attribute, typeValuesAll as ⊆ typeRefsAll as
  | [] => List.nil_subset _
  | a :: as => List.append_subset.mpr
    ⟨List.subset_append_of_subset_left _ (typeValues_subset a),
      List.subset_append_of_subset_right _ (typeValuesAll_subset as)⟩

theorem typeValuesDefault_subset : ∀ d : Option Attribute, typeValuesDefault d ⊆ typeRefsDefault d
  | none => List.nil_subset _
  | some a => typeValues_subset a
end

variable {s : TypeStore} {check check' : TypeRef → Except Fault Unit}

mutual
/-- The check of an attribute asks about the types that are values in it only. -/
theorem verifyWith_congr : ∀ a : Attribute, (∀ ty ∈ a.typeValues, check ty = check' ty) →
    a.verifyWith s check = a.verifyWith s check'
  | .type ty, same => same ty List.mem_cons_self
  | .array as, same => verifyAllWith_congr as same
  | .paramDecl _ _ d, same => verifyDefaultWith_congr d same
  | .paramExpr _ as _, same => by rw [verifyWith, verifyWith, verifyAllWith_congr as same]
  | .string _, _ | .integer .., _ | .float _, _ | .paramRef .., _ | .verbatim .., _
  | .zeroCount _, _ => rfl

theorem verifyAllWith_congr : ∀ as : List Attribute,
    (∀ ty ∈ typeValuesAll as, check ty = check' ty) →
    verifyAllWith s check as = verifyAllWith s check' as
  | [], _ => rfl
  | a :: as, same => by
    rw [verifyAllWith, verifyAllWith,
      verifyWith_congr a fun ty mem => same ty (List.mem_append_left _ mem),
      verifyAllWith_congr as fun ty mem => same ty (List.mem_append_right _ mem)]

theorem verifyDefaultWith_congr : ∀ d : Option Attribute,
    (∀ ty ∈ typeValuesDefault d, check ty = check' ty) →
    verifyDefaultWith s check d = verifyDefaultWith s check' d
  | none, _ => rfl
  | some a, same => verifyWith_congr a same
end

mutual
/-- An attribute that passes has types that pass for values. -/
theorem check_of_verifyWith : ∀ a : Attribute, a.verifyWith s check = .ok () →
    ∀ ty ∈ a.typeValues, check ty = .ok ()
  | .type _, passed, _, mem => by
    rw [List.mem_singleton.mp mem]
    exact passed
  | .array as, passed, ty, mem => check_of_verifyAllWith as passed ty mem
  | .paramDecl _ _ d, passed, ty, mem => check_of_verifyDefaultWith d passed ty mem
  | .paramExpr op as _, passed, ty, mem => by
    rw [verifyWith] at passed
    split at passed
    · exact check_of_verifyAllWith as passed ty mem
    · cases passed
  | .string _, _, _, mem | .integer .., _, _, mem | .float _, _, _, mem | .paramRef .., _, _, mem
  | .verbatim .., _, _, mem | .zeroCount _, _, _, mem => absurd mem List.not_mem_nil

theorem check_of_verifyAllWith : ∀ as : List Attribute, verifyAllWith s check as = .ok () →
    ∀ ty ∈ typeValuesAll as, check ty = .ok ()
  | [], _, _, mem => absurd mem List.not_mem_nil
  | a :: as, passed, ty, mem => by
    obtain ⟨_, first, others⟩ := Except.bind_eq_ok.mp passed
    rcases List.mem_append.mp mem with here | later
    · exact check_of_verifyWith a first ty here
    · exact check_of_verifyAllWith as others ty later

theorem check_of_verifyDefaultWith : ∀ d : Option Attribute,
    verifyDefaultWith s check d = .ok () → ∀ ty ∈ typeValuesDefault d, check ty = .ok ()
  | none, _, _, mem => absurd mem List.not_mem_nil
  | some a, passed, ty, mem => check_of_verifyWith a passed ty mem
end

end Attribute

/-! ## Parts -/

namespace TypeStore

variable {s : TypeStore} {ty part : TypeRef} {t : IRType}

/-- A state or a memory stores values of another type, or is addressed by them. -/
inductive Stores (s : TypeStore) : TypeRef → TypeRef → Prop where
  | value {ty value : TypeRef} : s.get ty = .ok (.state value) → Stores s ty value
  | word {ty word address : TypeRef} {words : UInt32} :
      s.get ty = .ok (.memory words word address) → Stores s ty word
  | address {ty word address : TypeRef} {words : UInt32} :
      s.get ty = .ok (.memory words word address) → Stores s ty address

/-- A type is made of another one. -/
inductive Part (s : TypeStore) : TypeRef → TypeRef → Prop where
  | stored {ty part : TypeRef} : s.Stores ty part → Part s ty part
  | width {ty part : TypeRef} {width : Attribute} :
      s.get ty = .ok (.parametric width) → part ∈ width.typeValues → Part s ty part

/-- An integer type of a fixed width has no parts. -/
theorem Part.not_integer {width : UInt32} {sign : Signedness} (made : s.Part ty part)
    (found : s.get ty = .ok (.integer width sign)) : False := by
  cases made with
  | stored stores => cases stores <;> simp_all
  | width parametric => simp_all

/-! ## Depth -/

/-- A check that is deep enough for a handle comes out the same at any greater depth. -/
theorem Grounded.verifyWithin_eq (grounded : s.Grounded) {depth depth' : Nat}
    (deep : ty.index < depth) (deep' : ty.index < depth') :
    s.verifyWithin depth ty = s.verifyWithin depth' ty := by
  induction depth generalizing ty depth' with
  | zero => omega
  | succ depth ih =>
    cases depth' with
    | zero => omega
    | succ depth' =>
      rw [verifyWithin, verifyWithin]
      cases found : s.get ty with
      | error fault => rfl
      | ok t =>
        cases t with
        | parametric width =>
          refine Attribute.verifyWith_congr width fun part mem => ?_
          have smaller := grounded ty _ found part (width.typeValues_subset mem)
          exact ih (by omega) (by omega)
        | _ => rfl

/-- The check of an integer type with a parametric width is that of the width. -/
theorem Grounded.verify_parametric (grounded : s.Grounded) {width : Attribute}
    (found : s.get ty = .ok (.parametric width)) : s.verify ty = s.verifyAttribute width := by
  rw [verify, verifyWithin, found, Except.bind_ok]
  refine Attribute.verifyWith_congr width fun part mem => ?_
  have smaller := grounded ty _ found part (width.typeValues_subset mem)
  exact grounded.verifyWithin_eq smaller (Nat.lt_succ_self _)

/-! ## Checks -/

theorem verify_integer {width : UInt32} {sign : Signedness}
    (found : s.get ty = .ok (.integer width sign)) :
    s.verify ty =
      if width = 0 then (Error.verification .zeroWidthInteger).throw else .ok () := by
  rw [verify, verifyWithin, found, Except.bind_ok]

/-- A state passes if its value is an integer. -/
theorem verify_state_eq_ok_iff {value : TypeRef} (found : s.get ty = .ok (.state value)) :
    s.verify ty = .ok () ↔ ∃ t, s.get value = .ok t ∧ t.isInteger = true := by
  rw [verify, verifyWithin, found, Except.bind_ok, Except.bind_eq_ok]
  refine exists_congr fun t => and_congr_right fun _ => ?_
  cases t.isInteger <;> simp [Error.throw]

/-- A memory passes if its words and its addresses are integers. -/
theorem verify_memory_eq_ok_iff {words : UInt32} {word address : TypeRef}
    (found : s.get ty = .ok (.memory words word address)) :
    s.verify ty = .ok () ↔ (∃ t, s.get word = .ok t ∧ t.isInteger = true) ∧
      ∃ t, s.get address = .ok t ∧ t.isInteger = true := by
  rw [verify, verifyWithin, found, Except.bind_ok]
  show (s.get word >>= fun t => s.get address >>= fun t' =>
    if t.isInteger && t'.isInteger then .ok () else (Error.verification .nonIntegerMemory).throw) =
      .ok () ↔ _
  cases s.get word with
  | error fault => simp
  | ok t =>
    cases s.get address with
    | error fault => simp
    | ok t' => cases t.isInteger <;> cases t'.isInteger <;> simp [Error.throw]

/-- What a type that passes stores is an integer. -/
theorem Stores.integer (stores : s.Stores ty part) (passed : s.verify ty = .ok ()) :
    ∃ width sign, s.get part = .ok (.integer width sign) := by
  have integer : ∃ t, s.get part = .ok t ∧ t.isInteger = true := by
    cases stores with
    | value found => exact (verify_state_eq_ok_iff found).mp passed
    | word found => exact ((verify_memory_eq_ok_iff found).mp passed).1
    | address found => exact ((verify_memory_eq_ok_iff found).mp passed).2
  obtain ⟨t, found, integer⟩ := integer
  cases t with
  | integer width sign => exact ⟨width, sign, found⟩
  | _ => cases integer

/-- A part of a type that passes does so too, or is stored and has no bits. -/
theorem Grounded.verify_part (grounded : s.Grounded) (made : s.Part ty part)
    (passed : s.verify ty = .ok ()) :
    s.verify part = .ok () ∨ s.Stores ty part ∧ ∃ sign, s.get part = .ok (.integer 0 sign) := by
  cases made with
  | stored stores =>
    obtain ⟨width, sign, found⟩ := stores.integer passed
    rw [verify_integer found]
    by_cases empty : width = 0
    · subst empty
      exact .inr ⟨stores, sign, found⟩
    · exact .inl (if_neg empty)
  | width found mem =>
    rw [grounded.verify_parametric found] at passed
    exact .inl (Attribute.check_of_verifyWith _ passed part mem)

/-- What a type that passes is made of at any depth, a type that passes is made of. -/
theorem Grounded.verify_parts (grounded : s.Grounded) (made : TransGen s.Part ty part)
    (passed : s.verify ty = .ok ()) :
    ∃ whole, ReflTransGen s.Part ty whole ∧ s.verify whole = .ok () ∧ s.Part whole part := by
  induction made using TransGen.head_induction_on with
  | single made => exact ⟨_, .refl, passed, made⟩
  | head first further ih =>
    rcases grounded.verify_part first passed with passed | ⟨-, sign, found⟩
    · obtain ⟨whole, below, rest⟩ := ih passed
      exact ⟨whole, .head first below, rest⟩
    · obtain ⟨_, made, -⟩ := TransGen.head'_iff.mp further
      exact (made.not_integer found).elim

end TypeStore

end HardwareIR
