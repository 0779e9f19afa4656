import HardwareIR.Proofs.TypeStore.Unique

/-! # Types without handles

Unfolding replaces every handle by the type that it stands for, in types and in the attributes in
them, to any depth (`TypeStore.unfold`).  In a grounded store with each type once, handles of
different types unfold differently (`TypeStore.unfold_injective`): the comparison of types by their
own fields compares them to any depth.
-/

namespace HardwareIR

open Parameter (Opcode)

/-! ## Trees -/

mutual
/-- A type with its parts instead of their handles. -/
inductive TypeTree where
  | integer (width : UInt32) (sign : Signedness)
  | parametric (width : AttributeTree)
  | state (value : TypeTree)
  | memory (words : UInt32) (word address : TypeTree)
  | storage (size : UInt32)
  | simInstance (model : Identifier)
  /-- What a handle that stands for no type unfolds to. -/
  | missing

/-- An attribute with types instead of their handles. -/
inductive AttributeTree where
  | string (value : String)
  | integer (type : TypeTree) (value : Literal)
  | float (bits : UInt64)
  | type (type : TypeTree)
  | array (elements : List AttributeTree)
  | paramDecl (name : Identifier) (type : TypeTree) (default? : Option AttributeTree)
  | paramRef (name : Identifier) (type : TypeTree)
  | paramExpr (opcode : Opcode) (operands : List AttributeTree) (type : TypeTree)
  | verbatim (text : String) (type : TypeTree)
  | zeroCount (predicate : ZeroCountPredicate)
end

namespace Attribute

mutual
/-- An attribute, given what the handles in it stand for. -/
def unfold (f : TypeRef → TypeTree) : Attribute → AttributeTree
  | .string s => .string s
  | .integer ty l => .integer (f ty) l
  | .float bits => .float bits
  | .type ty => .type (f ty)
  | .array as => .array (unfoldAll f as)
  | .paramDecl n ty d => .paramDecl n (f ty) (unfoldDefault f d)
  | .paramRef n ty => .paramRef n (f ty)
  | .paramExpr op as ty => .paramExpr op (unfoldAll f as) (f ty)
  | .verbatim t ty => .verbatim t (f ty)
  | .zeroCount p => .zeroCount p

def unfoldAll (f : TypeRef → TypeTree) : List Attribute → List AttributeTree
  | [] => []
  | a :: as => a.unfold f :: unfoldAll f as

def unfoldDefault (f : TypeRef → TypeTree) : Option Attribute → Option AttributeTree
  | none => none
  | some a => some (a.unfold f)
end

variable {f g : TypeRef → TypeTree}

mutual
/-- Only the handles in an attribute matter for what it unfolds to. -/
theorem unfold_congr : ∀ a : Attribute, (∀ ty ∈ a.typeRefs, f ty = g ty) → a.unfold f = a.unfold g
  | .string _, _ | .float _, _ | .zeroCount _, _ => rfl
  | .integer ty _, same | .type ty, same | .paramRef _ ty, same | .verbatim _ ty, same => by
    simp only [unfold, same ty (by simp [typeRefs])]
  | .array as, same => by
    simp only [unfold, unfoldAll_congr as same]
  | .paramDecl _ ty d, same => by
    simp only [unfold, same ty (by simp [typeRefs]),
      unfoldDefault_congr d fun ty mem => same ty (List.mem_cons_of_mem _ mem)]
  | .paramExpr _ as ty, same => by
    simp only [unfold, same ty (by simp [typeRefs]),
      unfoldAll_congr as fun ty mem => same ty (List.mem_cons_of_mem _ mem)]

theorem unfoldAll_congr : ∀ as : List Attribute, (∀ ty ∈ typeRefsAll as, f ty = g ty) →
    unfoldAll f as = unfoldAll g as
  | [], _ => rfl
  | a :: as, same => by
    simp only [unfoldAll, unfold_congr a fun ty mem => same ty (List.mem_append_left _ mem),
      unfoldAll_congr as fun ty mem => same ty (List.mem_append_right _ mem)]

theorem unfoldDefault_congr : ∀ d : Option Attribute, (∀ ty ∈ typeRefsDefault d, f ty = g ty) →
    unfoldDefault f d = unfoldDefault g d
  | none, _ => rfl
  | some a, same => by simp only [unfoldDefault, unfold_congr a same]
end

mutual
/-- Attributes that unfold to the same are the same, if that holds of the handles in them. -/
theorem unfold_injective : ∀ {a b : Attribute},
    (∀ ty ∈ a.typeRefs, ∀ ty' ∈ b.typeRefs, f ty = f ty' → ty = ty') →
    a.unfold f = b.unfold f → a = b
  | .string _, b, _, same => by cases b <;> simp_all [unfold]
  | .float _, b, _, same => by cases b <;> simp_all [unfold]
  | .zeroCount _, b, _, same => by cases b <;> simp_all [unfold]
  | .integer .., b, inj, same => by cases b <;> simp_all [unfold, typeRefs]
  | .type _, b, inj, same => by cases b <;> simp_all [unfold, typeRefs]
  | .paramRef .., b, inj, same => by cases b <;> simp_all [unfold, typeRefs]
  | .verbatim .., b, inj, same => by cases b <;> simp_all [unfold, typeRefs]
  | .array as, b, inj, same => by
    cases b with
    | array bs =>
      simp only [unfold, AttributeTree.array.injEq] at same
      rw [unfoldAll_injective inj same]
    | _ => simp [unfold] at same
  | .paramDecl n ty d, b, inj, same => by
    cases b with
    | paramDecl n' ty' d' =>
      simp only [unfold, AttributeTree.paramDecl.injEq] at same
      rw [same.1, inj ty List.mem_cons_self ty' List.mem_cons_self same.2.1,
        unfoldDefault_injective (fun ty mem ty' mem' =>
          inj ty (List.mem_cons_of_mem _ mem) ty' (List.mem_cons_of_mem _ mem')) same.2.2]
    | _ => simp [unfold] at same
  | .paramExpr op as ty, b, inj, same => by
    cases b with
    | paramExpr op' bs ty' =>
      simp only [unfold, AttributeTree.paramExpr.injEq] at same
      rw [same.1, inj ty List.mem_cons_self ty' List.mem_cons_self same.2.2,
        unfoldAll_injective (fun ty mem ty' mem' =>
          inj ty (List.mem_cons_of_mem _ mem) ty' (List.mem_cons_of_mem _ mem')) same.2.1]
    | _ => simp [unfold] at same

theorem unfoldAll_injective : ∀ {as bs : List Attribute},
    (∀ ty ∈ typeRefsAll as, ∀ ty' ∈ typeRefsAll bs, f ty = f ty' → ty = ty') →
    unfoldAll f as = unfoldAll f bs → as = bs
  | [], bs, _, same => by cases bs <;> simp_all [unfoldAll]
  | a :: as, bs, inj, same => by
    cases bs with
    | nil => simp [unfoldAll] at same
    | cons b bs =>
      simp only [unfoldAll, List.cons.injEq] at same
      rw [unfold_injective (fun ty mem ty' mem' =>
          inj ty (List.mem_append_left _ mem) ty' (List.mem_append_left _ mem')) same.1,
        unfoldAll_injective (fun ty mem ty' mem' =>
          inj ty (List.mem_append_right _ mem) ty' (List.mem_append_right _ mem')) same.2]

theorem unfoldDefault_injective : ∀ {d d' : Option Attribute},
    (∀ ty ∈ typeRefsDefault d, ∀ ty' ∈ typeRefsDefault d', f ty = f ty' → ty = ty') →
    unfoldDefault f d = unfoldDefault f d' → d = d'
  | none, d', _, same => by cases d' <;> simp_all [unfoldDefault]
  | some a, d', inj, same => by
    cases d' with
    | none => simp [unfoldDefault] at same
    | some b =>
      simp only [unfoldDefault, Option.some.injEq] at same
      rw [unfold_injective inj same]
end

end Attribute

namespace IRType

/-- A type, given what the handles in it stand for. -/
def unfold (f : TypeRef → TypeTree) : IRType → TypeTree
  | .integer width sign => .integer width sign
  | .parametric width => .parametric (width.unfold f)
  | .state value => .state (f value)
  | .memory words word address => .memory words (f word) (f address)
  | .storage size => .storage size
  | .simInstance model => .simInstance model

variable {f g : TypeRef → TypeTree}

theorem unfold_congr {t : IRType} (same : ∀ ty ∈ t.typeRefs, f ty = g ty) :
    t.unfold f = t.unfold g := by
  cases t with
  | parametric width => simp only [unfold, Attribute.unfold_congr width same]
  | state value => simp only [unfold, same value (by simp [typeRefs])]
  | memory words word address =>
    simp only [unfold, same word (by simp [typeRefs]), same address (by simp [typeRefs])]
  | integer | storage | simInstance => rfl

theorem unfold_injective {t t' : IRType}
    (inj : ∀ ty ∈ t.typeRefs, ∀ ty' ∈ t'.typeRefs, f ty = f ty' → ty = ty')
    (same : t.unfold f = t'.unfold f) : t = t' := by
  cases t with
  | parametric width =>
    cases t' with
    | parametric width' =>
      simp only [unfold, TypeTree.parametric.injEq] at same
      rw [Attribute.unfold_injective inj same]
    | _ => simp [unfold] at same
  | _ => cases t' <;> simp_all [unfold, typeRefs]

theorem eq_integer_of_unfold {t : IRType} {width : UInt32} {sign : Signedness}
    (unfolded : t.unfold f = .integer width sign) : t = .integer width sign := by
  cases t <;> simp_all [unfold]

end IRType

namespace TypeStore

variable {s s' : TypeStore} {ty ty' : TypeRef} {t t' : IRType}

/-! ## Unfolding handles -/

/-- What a handle stands for.  A part that does not come before its type counts as missing. -/
def unfold (s : TypeStore) (ty : TypeRef) : TypeTree :=
  match s.get ty with
  | .ok t => t.unfold fun part => if part.index < ty.index then s.unfold part else .missing
  | .error _ => .missing
termination_by ty.index

/-- What a type describes that is made of types in the store. -/
def describe (s : TypeStore) (t : IRType) : TypeTree :=
  t.folded.unfold s.unfold

theorem Grounded.unfold_eq (grounded : s.Grounded) (found : s.get ty = .ok t) :
    s.unfold ty = t.unfold s.unfold := by
  rw [TypeStore.unfold, found]
  exact IRType.unfold_congr fun part mem => if_pos (grounded ty t found part mem)

/-- A store that grows does not change what its handles stand for. -/
theorem Grounded.unfold_of_grown (grounded : s.Grounded)
    (grown : ∀ ty t, s.get ty = .ok t → s'.get ty = .ok t) (has : s.Has ty) :
    s'.unfold ty = s.unfold ty := by
  -- The induction is on the handle, which is greater than those of the parts.
  induction index : ty.index using Nat.strongRecOn generalizing ty with
  | _ n ih =>
    subst index
    obtain ⟨t, found⟩ := has
    rw [TypeStore.unfold, TypeStore.unfold, found, grown ty t found]
    apply IRType.unfold_congr
    intro part mem
    have smaller := grounded ty t found part mem
    rw [if_pos smaller, if_pos smaller]
    exact ih part.index smaller (Has.of_lt ⟨t, found⟩ smaller) rfl

/-- Handles that stand for the same are the same. -/
theorem unfold_injective (grounded : s.Grounded) (unique : s.Unique) (has : s.Has ty)
    (has' : s.Has ty') (same : s.unfold ty = s.unfold ty') : ty = ty' := by
  induction index : ty.index using Nat.strongRecOn generalizing ty ty' with
  | _ n ih =>
    subst index
    obtain ⟨t, found⟩ := has
    obtain ⟨t', found'⟩ := has'
    rw [grounded.unfold_eq found, grounded.unfold_eq found'] at same
    have equal : t = t' := by
      -- The parts come first, so that those that stand for the same are the same.
      apply IRType.unfold_injective _ same
      intro part mem part' mem' equal
      have smaller := grounded ty t found part mem
      have smaller' := grounded ty' t' found' part' mem'
      exact ih part.index smaller (Has.of_lt ⟨t, found⟩ smaller) (Has.of_lt ⟨t', found'⟩ smaller')
        equal rfl
    subst equal
    exact unique.eq_of_get found found'

end TypeStore

end HardwareIR
