import HardwareIR.Proofs.Text.Hex
import HardwareIR.Proofs.TypeStore.Unique
import Mathlib.Data.List.Forall2

/-! # Equality and digests of attributes

The comparison of attributes goes by their structure (`Attribute.Alike`): they are of one kind, and
their contents agree, lists element by element.  Two attributes have one digest exactly if they are
alike but for the widths of the words in them, as a digest can be read from the front: the kind
comes first, and a list comes after its length.  Interning therefore finds a type again that was
asked for with an equal attribute.
-/

namespace HardwareIR

open Parameter (Opcode)

/-! ## Words -/

namespace Literal

/-- Words of one width that are the same number. -/
def SameWord (l l' : Literal) : Prop :=
  l.width = l'.width ∧ l.bits.toNat = l'.bits.toNat

/-- Words that are the same number. -/
def SameNumber (l l' : Literal) : Prop :=
  l.bits.toNat = l'.bits.toNat

theorem sameWord_iff {l l' : Literal} : l.SameWord l' ↔ l = l' := by
  constructor
  · rintro ⟨width, bits⟩
    cases l
    cases l'
    cases width
    cases BitVec.eq_of_toNat_eq bits
    rfl
  · rintro rfl
    exact ⟨rfl, rfl⟩

theorem hex_eq_iff {l l' : Literal} : l.hex = l'.hex ↔ l.SameNumber l' :=
  ⟨Text.hex_inj, congrArg Text.hex⟩

end Literal

theorem TypeRef.eq_of_index {ty ty' : TypeRef} (same : ty.index = ty'.index) : ty = ty' := by
  cases ty
  cases ty'
  exact congrArg mk same

theorem Identifier.eq_of_text {n n' : Identifier} (same : n.text = n'.text) : n = n' := by
  cases n
  cases n'
  cases same
  rfl

namespace Attribute

/-! ## Structure -/

/-- Attributes of one kind with the same contents, where words only need to be related by `word`. -/
inductive Alike (word : Literal → Literal → Prop) : Attribute → Attribute → Prop where
  | string (s : String) : Alike word (.string s) (.string s)
  | integer (ty : TypeRef) {l l' : Literal} :
      word l l' → Alike word (.integer ty l) (.integer ty l')
  | float (bits : UInt64) : Alike word (.float bits) (.float bits)
  | type (ty : TypeRef) : Alike word (.type ty) (.type ty)
  | array {as bs : List Attribute} :
      List.Forall₂ (Alike word) as bs → Alike word (.array as) (.array bs)
  | paramDecl (n : Identifier) (ty : TypeRef) :
      Alike word (.paramDecl n ty none) (.paramDecl n ty none)
  | paramDeclDefault (n : Identifier) (ty : TypeRef) {a b : Attribute} :
      Alike word a b → Alike word (.paramDecl n ty (some a)) (.paramDecl n ty (some b))
  | paramRef (n : Identifier) (ty : TypeRef) : Alike word (.paramRef n ty) (.paramRef n ty)
  | paramExpr (op : Opcode) (ty : TypeRef) {as bs : List Attribute} :
      List.Forall₂ (Alike word) as bs → Alike word (.paramExpr op as ty) (.paramExpr op bs ty)
  | verbatim (t : String) (ty : TypeRef) : Alike word (.verbatim t ty) (.verbatim t ty)
  | zeroCount (p : ZeroCountPredicate) : Alike word (.zeroCount p) (.zeroCount p)

variable {a b : Attribute} {as bs : List Attribute} {word : Literal → Literal → Prop}

mutual
theorem alike_self (refl : ∀ l, word l l) : ∀ a : Attribute, a.Alike word a
  | .string s => .string s
  | .integer ty l => .integer ty (refl l)
  | .float bits => .float bits
  | .type ty => .type ty
  | .array as => .array (alikeAll_self refl as)
  | .paramDecl n ty none => .paramDecl n ty
  | .paramDecl n ty (some a) => .paramDeclDefault n ty (alike_self refl a)
  | .paramRef n ty => .paramRef n ty
  | .paramExpr op as ty => .paramExpr op ty (alikeAll_self refl as)
  | .verbatim t ty => .verbatim t ty
  | .zeroCount p => .zeroCount p

theorem alikeAll_self (refl : ∀ l, word l l) :
    ∀ as : List Attribute, List.Forall₂ (Alike word) as as
  | [] => .nil
  | a :: as => .cons (alike_self refl a) (alikeAll_self refl as)
end

mutual
/-- Attributes that are alike are equal if related words are. -/
theorem eq_of_alike (exact : ∀ l l', word l l' → l = l') :
    ∀ {a b : Attribute}, a.Alike word b → a = b
  | _, _, .string _ | _, _, .float _ | _, _, .type _ | _, _, .paramRef .. | _, _, .verbatim ..
  | _, _, .zeroCount _ | _, _, .paramDecl .. => rfl
  | _, _, .integer ty same => congrArg (Attribute.integer ty) (exact _ _ same)
  | _, _, .array each => congrArg Attribute.array (eq_of_alikeAll exact each)
  | _, _, .paramDeclDefault n ty alike =>
    congrArg (fun a => Attribute.paramDecl n ty (some a)) (eq_of_alike exact alike)
  | _, _, .paramExpr op ty each =>
    congrArg (fun as => Attribute.paramExpr op as ty) (eq_of_alikeAll exact each)

theorem eq_of_alikeAll (exact : ∀ l l', word l l' → l = l') :
    ∀ {as bs : List Attribute}, List.Forall₂ (Alike word) as bs → as = bs
  | _, _, .nil => rfl
  | _, _, .cons alike each => congrArg₂ List.cons (eq_of_alike exact alike)
    (eq_of_alikeAll exact each)
end

theorem same_iff_alike : a.same b = true ↔ a.Alike Literal.SameWord b := by
  rw [same_iff]
  constructor
  · rintro rfl
    exact alike_self (fun _ => Literal.sameWord_iff.mpr rfl) a
  · exact eq_of_alike fun _ _ => Literal.sameWord_iff.mp

/-! ## Digests -/

theorem Kind.eq_of_id {k k' : Kind} (same : k.id = k'.id) : k = k' := by
  cases k <;> cases k' <;> first | rfl | exact absurd same (by decide)

theorem opcode_eq_of_name {op op' : Opcode} (same : op.name = op'.name) : op = op' := by
  cases op <;> cases op' <;> first | rfl | exact absurd same (by decide)

theorem predicate_eq_of_name {p p' : ZeroCountPredicate} (same : p.name = p'.name) : p = p' := by
  cases p <;> cases p' <;> first | rfl | exact absurd same (by decide)

/-- A digest starts with the kind. -/
theorem digest_eq_cons (a : Attribute) : ∃ contents, a.digest = .tag a.kind.id :: contents := by
  cases a <;> exact ⟨_, rfl⟩

theorem kind_eq_of_digest {rest rest' : Digest} (same : a.digest ++ rest = b.digest ++ rest') :
    a.kind = b.kind := by
  obtain ⟨contents, first⟩ := digest_eq_cons a
  obtain ⟨contents', first'⟩ := digest_eq_cons b
  rw [first, first', List.cons_append, List.cons_append, List.cons.injEq, Token.tag.injEq] at same
  exact Kind.eq_of_id same.1

mutual
/-- Attributes that are alike but for widths have one digest. -/
theorem digest_eq_of_alike : ∀ {a b : Attribute}, a.Alike Literal.SameNumber b → a.digest = b.digest
  | _, _, .string _ | _, _, .float _ | _, _, .type _ | _, _, .paramRef .. | _, _, .verbatim ..
  | _, _, .zeroCount _ | _, _, .paramDecl .. => rfl
  | _, _, .integer ty same => by simp [digest, Literal.hex_eq_iff.mpr same]
  | _, _, .array each => by simp [digest, each.length_eq, digestAll_eq_of_alike each]
  | _, _, .paramDeclDefault n ty alike => by simp [digest, digestOption, digest_eq_of_alike alike]
  | _, _, .paramExpr op ty each => by simp [digest, each.length_eq, digestAll_eq_of_alike each]

theorem digestAll_eq_of_alike : ∀ {as bs : List Attribute},
    List.Forall₂ (Alike Literal.SameNumber) as bs → digestAll as = digestAll bs
  | _, _, .nil => rfl
  | _, _, .cons alike each => by
    rw [digestAll, digestAll, digest_eq_of_alike alike, digestAll_eq_of_alike each]
end

theorem digest_paramDecl {n n' : Identifier} {ty ty' : TypeRef} {d d' : Option Attribute}
    {rest rest' : Digest}
    (same : (paramDecl n ty d).digest ++ rest = (paramDecl n' ty' d').digest ++ rest') :
    n = n' ∧ ty = ty' ∧ digestOption d ++ rest = digestOption d' ++ rest' := by
  simp only [digest, TypeRef.digest, List.cons_append, List.nil_append, List.cons.injEq,
    Token.number.injEq, Token.text.injEq, true_and] at same
  obtain ⟨name, index, default⟩ := same
  exact ⟨Identifier.eq_of_text name, TypeRef.eq_of_index index, default⟩

mutual
/-- An attribute can be read from the front of its digest, but for the widths of words. -/
theorem alike_of_digest : ∀ {a b : Attribute} {rest rest' : Digest},
    a.digest ++ rest = b.digest ++ rest' → a.Alike Literal.SameNumber b ∧ rest = rest'
  | .string s, b, _, _, same => by
    cases b <;> cases kind_eq_of_digest same
    simp only [digest, List.cons_append, List.nil_append, List.cons.injEq, Token.text.injEq,
      true_and] at same
    obtain ⟨rfl, rests⟩ := same
    exact ⟨.string s, rests⟩
  | .integer ty l, b, _, _, same => by
    cases b <;> cases kind_eq_of_digest same
    simp only [digest, TypeRef.digest, List.cons_append, List.nil_append, List.cons.injEq,
      Token.number.injEq, Token.text.injEq, true_and] at same
    obtain ⟨index, hex, rests⟩ := same
    cases TypeRef.eq_of_index index
    exact ⟨.integer ty (Literal.hex_eq_iff.mp hex), rests⟩
  | .float bits, b, _, _, same => by
    cases b <;> cases kind_eq_of_digest same
    simp only [digest, List.cons_append, List.nil_append, List.cons.injEq, Token.number.injEq,
      true_and] at same
    cases UInt64.toNat_inj.mp same.1
    exact ⟨.float bits, same.2⟩
  | .type ty, b, _, _, same => by
    cases b <;> cases kind_eq_of_digest same
    simp only [digest, TypeRef.digest, List.cons_append, List.nil_append, List.cons.injEq,
      Token.number.injEq, true_and] at same
    cases TypeRef.eq_of_index same.1
    exact ⟨.type ty, same.2⟩
  | .array as, b, _, _, same => by
    cases b <;> cases kind_eq_of_digest same
    simp only [digest, List.cons_append, List.cons.injEq, Token.number.injEq, true_and] at same
    obtain ⟨length, elements⟩ := same
    obtain ⟨each, rests⟩ := alikeAll_of_digest length elements
    exact ⟨.array each, rests⟩
  | .paramDecl n ty none, b, _, _, same => by
    cases b with
    | paramDecl n' ty' d =>
      obtain ⟨rfl, rfl, default⟩ := digest_paramDecl same
      cases d with
      | none => exact ⟨.paramDecl n ty, (List.cons.inj default).2⟩
      | some b => cases default
    | _ => cases kind_eq_of_digest same
  | .paramDecl n ty (some a), b, _, _, same => by
    cases b with
    | paramDecl n' ty' d =>
      obtain ⟨rfl, rfl, default⟩ := digest_paramDecl same
      cases d with
      | none => cases default
      | some b =>
        obtain ⟨alike, rests⟩ := alike_of_digest (List.cons.inj default).2
        exact ⟨.paramDeclDefault n ty alike, rests⟩
    | _ => cases kind_eq_of_digest same
  | .paramRef n ty, b, _, _, same => by
    cases b <;> cases kind_eq_of_digest same
    simp only [digest, TypeRef.digest, List.cons_append, List.nil_append, List.cons.injEq,
      Token.number.injEq, Token.text.injEq, true_and] at same
    obtain ⟨name, index, rests⟩ := same
    cases Identifier.eq_of_text name
    cases TypeRef.eq_of_index index
    exact ⟨.paramRef n ty, rests⟩
  | .paramExpr op as ty, b, _, _, same => by
    cases b <;> cases kind_eq_of_digest same
    simp only [digest, List.cons_append, List.append_assoc, List.cons.injEq, Token.number.injEq,
      Token.text.injEq, true_and] at same
    obtain ⟨name, length, operands⟩ := same
    obtain ⟨each, after⟩ := alikeAll_of_digest length operands
    simp only [TypeRef.digest, List.cons_append, List.nil_append, List.cons.injEq,
      Token.number.injEq] at after
    cases opcode_eq_of_name name
    cases TypeRef.eq_of_index after.1
    exact ⟨.paramExpr op ty each, after.2⟩
  | .verbatim t ty, b, _, _, same => by
    cases b <;> cases kind_eq_of_digest same
    simp only [digest, TypeRef.digest, List.cons_append, List.nil_append, List.cons.injEq,
      Token.number.injEq, Token.text.injEq, true_and] at same
    obtain ⟨rfl, index, rests⟩ := same
    cases TypeRef.eq_of_index index
    exact ⟨.verbatim t ty, rests⟩
  | .zeroCount p, b, _, _, same => by
    cases b <;> cases kind_eq_of_digest same
    simp only [digest, List.cons_append, List.nil_append, List.cons.injEq, Token.text.injEq,
      true_and] at same
    cases predicate_eq_of_name same.1
    exact ⟨.zeroCount p, same.2⟩

theorem alikeAll_of_digest : ∀ {as bs : List Attribute} {rest rest' : Digest},
    as.length = bs.length → digestAll as ++ rest = digestAll bs ++ rest' →
    List.Forall₂ (Alike Literal.SameNumber) as bs ∧ rest = rest'
  | [], [], _, _, _, same => ⟨.nil, same⟩
  | a :: as, b :: bs, rest, rest', length, same => by
    rw [digestAll, digestAll, List.append_assoc, List.append_assoc] at same
    obtain ⟨alike, others⟩ := alike_of_digest same
    obtain ⟨each, rests⟩ := alikeAll_of_digest (Nat.succ.inj length) others
    exact ⟨.cons alike each, rests⟩
end

theorem digest_eq_iff_alike : a.digest = b.digest ↔ a.Alike Literal.SameNumber b := by
  refine ⟨fun same => ?_, digest_eq_of_alike⟩
  exact (alike_of_digest (congrArg (· ++ []) same)).1

end Attribute

/-! ## Interning -/

namespace TypeStore

/-- A type is found where it was interned. -/
theorem find?_add_self (s : TypeStore) (t : IRType) : (s.add t).2.find? t = some (s.add t).1 := by
  rcases s.add_cases t with ⟨found, same⟩ | ⟨absent, last, appended⟩
  · rw [same, found]
  · rw [find?, UniqueStore.lookup, Option.map_eq_none_iff] at absent
    rw [find?, UniqueStore.lookup, key_add, appended, last, List.findIdx?_append, absent]
    simp [equal]

/-- A type that was interned is interned again without a change, and no other type is. -/
theorem add_add_iff (s : TypeStore) {t t' : IRType} :
    (s.add t).2.add t' = s.add t ↔ t = t' := by
  constructor
  · intro again
    have found := (s.add t).2.get_add_self t'
    rw [again, s.get_add_self t] at found
    exact Except.ok.inj found
  · rintro rfl
    have found := s.find?_add_self t
    rcases (s.add t).2.add_cases t with ⟨again, same⟩ | ⟨absent, -⟩
    · rw [again, Option.some.injEq] at found
      exact Prod.ext found same
    · rw [absent] at found
      cases found

theorem request_request_iff (s : TypeStore) {t t' : IRType} :
    (s.request t).2.request t' = s.request t ↔ t.folded = t'.folded := by
  rw [request_eq, request_eq]
  exact add_add_iff s

end TypeStore

namespace Attribute

/-- The comparison of attributes goes by their structure, digests forget the widths of words only,
and types of equal widths are one type. -/
theorem same_structural :
    (Equivalence fun a b : Attribute => a.same b = true) ∧
    ∀ a b : Attribute,
      (a.same b = true ↔ a.Alike Literal.SameWord b) ∧
      (a.digest = b.digest ↔ a.Alike Literal.SameNumber b) ∧
      (a.same b = true → a.kind = b.kind ∧ a.digest = b.digest ∧ ∀ s : TypeStore,
        (s.request (.parametric a)).2.request (.parametric b) = s.request (.parametric a)) ∧
      ∀ s : TypeStore,
        (s.request (.parametric a)).2.request (.parametric b) = s.request (.parametric a) ↔
          (IRType.parametric a).folded = (IRType.parametric b).folded := by
  have equivalence : Equivalence fun a b : Attribute => a.same b = true := by
    refine ⟨same_self, fun same => ?_, fun same same' => ?_⟩
    · rw [same_iff.mp same]
      exact same_self _
    · rw [same_iff.mp same]
      exact same'
  refine ⟨equivalence, fun a b => ⟨same_iff_alike, digest_eq_iff_alike, fun same => ?_,
    fun s => s.request_request_iff⟩⟩
  have equal := same_iff.mp same
  rw [equal]
  exact ⟨rfl, rfl, fun s => s.request_request_iff.mpr rfl⟩

-- Words of different widths have one digest, and their attributes are different.
example :
    (Attribute.integer ⟨0⟩ ⟨8, 7, by decide⟩).digest =
        (Attribute.integer ⟨0⟩ ⟨16, 7, by decide⟩).digest ∧
      (Attribute.integer ⟨0⟩ ⟨8, 7, by decide⟩).same (.integer ⟨0⟩ ⟨16, 7, by decide⟩) = false :=
  ⟨by decide, by decide⟩

end Attribute

end HardwareIR
