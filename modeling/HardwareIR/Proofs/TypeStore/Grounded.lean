import HardwareIR.Proofs.Except
import HardwareIR.TypeStore.Printer

/-! # Grounded type stores

A store is grounded if every type in it is made of types with smaller handles
(`TypeStore.Grounded`).  Stores grow and stay grounded as long as types are asked for after their
parts, and in a grounded store everything has a text: `TypeStore.printWithin` does not run out of
depth.

A request for a type of a width that a literal gives is a request for the type of that fixed width
(`IRType.folded`), and any other request is for the type itself.
-/

namespace HardwareIR

/-! ## Handles in attributes and types -/

mutual
/-- The types that an attribute mentions. -/
def Attribute.typeRefs : Attribute → List TypeRef
  | .string _ | .float _ | .zeroCount _ => []
  | .integer ty _ | .type ty | .paramRef _ ty | .verbatim _ ty => [ty]
  | .array as => Attribute.typeRefsAll as
  | .paramDecl _ ty d => ty :: Attribute.typeRefsDefault d
  | .paramExpr _ as ty => ty :: Attribute.typeRefsAll as

/-- The types that several attributes mention. -/
def Attribute.typeRefsAll : List Attribute → List TypeRef
  | [] => []
  | a :: as => a.typeRefs ++ Attribute.typeRefsAll as

/-- The types that a default value mentions. -/
def Attribute.typeRefsDefault : Option Attribute → List TypeRef
  | none => []
  | some a => a.typeRefs
end

theorem Attribute.mem_typeRefsAll {as : List Attribute} {ty : TypeRef} :
    ty ∈ typeRefsAll as ↔ ∃ a ∈ as, ty ∈ a.typeRefs := by
  induction as with
  | nil => simp [typeRefsAll]
  | cons a as ih => simp [typeRefsAll, ih]

/-- The types that a type is made of. -/
def IRType.typeRefs : IRType → List TypeRef
  | .integer .. | .storage _ | .simInstance _ => []
  | .parametric width => width.typeRefs
  | .state value => [value]
  | .memory _ word address => [word, address]

/-- The type that is interned when a type is asked for. -/
def IRType.folded : IRType → IRType
  | .parametric (.integer ty literal) =>
    match literal.width32? with
    | some fixed => .integer fixed .signless
    | none => .parametric (.integer ty literal)
  | type => type

theorem IRType.mem_typeRefs_of_folded {t : IRType} {ty : TypeRef} (mem : ty ∈ t.folded.typeRefs) :
    ty ∈ t.typeRefs := by
  unfold folded at mem
  split at mem
  · split at mem
    · cases mem
    · exact mem
  · exact mem

namespace TypeStore

variable {s s' : TypeStore} {ty : TypeRef} {t : IRType}

/-! ## Growth -/

/-- A handle is that of a type in the store. -/
def Has (s : TypeStore) (ty : TypeRef) : Prop :=
  ∃ t, s.get ty = .ok t

/-- Every type is made of types with smaller handles. -/
def Grounded (s : TypeStore) : Prop :=
  ∀ ty t, s.get ty = .ok t → ∀ part ∈ t.typeRefs, part.index < ty.index

theorem get_eq_ok : s.get ty = .ok t ↔ (s.items[ty.index]?).map (·.2) = some t := by
  unfold get UniqueStore.get?
  cases (s.items[ty.index]?).map (·.2) with
  | none => simp [Misuse.throw]
  | some found => simp

theorem has_iff : s.Has ty ↔ ty.index < s.items.length := by
  constructor
  · rintro ⟨t, found⟩
    obtain ⟨item, stored, -⟩ := Option.map_eq_some_iff.mp (get_eq_ok.mp found)
    exact (List.getElem?_eq_some_iff.mp stored).1
  · intro bound
    refine ⟨s.items[ty.index].2, get_eq_ok.mpr ?_⟩
    rw [List.getElem?_eq_getElem bound]
    rfl

theorem Has.of_lt {ty' : TypeRef} (has : s.Has ty) (less : ty'.index < ty.index) : s.Has ty' :=
  has_iff.mpr (Nat.lt_trans less (has_iff.mp has))

/-- What is interned is found, or is put at the end. -/
theorem add_cases (s : TypeStore) (t : IRType) :
    (s.find? t = some (s.add t).1 ∧ (s.add t).2 = s) ∨
    (s.find? t = none ∧ (s.add t).1 = ⟨s.items.length⟩ ∧
      (s.add t).2.items = s.items ++ [(s.key t, t)]) := by
  unfold find? add UniqueStore.intern
  cases s.lookup (s.key t) (equal t) with
  | some index => exact .inl ⟨rfl, rfl⟩
  | none => exact .inr ⟨rfl, rfl, rfl⟩

theorem get_add (found : s.get ty = .ok t) (new : IRType) : (s.add new).2.get ty = .ok t := by
  rcases s.add_cases new with ⟨-, same⟩ | ⟨-, -, appended⟩
  · rw [same]
    exact found
  · have bound := has_iff.mp ⟨t, found⟩
    rw [get_eq_ok] at found ⊢
    rw [appended, List.getElem?_append_left bound]
    exact found

theorem Grounded.add (grounded : s.Grounded) {new : IRType}
    (parts : ∀ part ∈ new.typeRefs, s.Has part) :
    (s.add new).2.Grounded := by
  rcases s.add_cases new with ⟨-, same⟩ | ⟨-, -, appended⟩
  · rw [same]
    exact grounded
  · intro ty t found part mem
    by_cases old : ty.index < s.items.length
    · have before : s.get ty = .ok t := by
        rw [get_eq_ok, appended, List.getElem?_append_left old] at found
        exact get_eq_ok.mpr found
      exact grounded ty t before part mem
    · -- The handle is that of the new type, and its parts were there before.
      rw [get_eq_ok, appended, List.getElem?_append_right (by omega),
        Option.map_eq_some_iff] at found
      obtain ⟨item, stored, rfl⟩ := found
      rw [List.mem_singleton.mp (List.mem_of_getElem? stored)] at mem
      have bound := has_iff.mp (parts part mem)
      omega

theorem request_eq (s : TypeStore) (t : IRType) : s.request t = s.add t.folded := by
  cases t with
  | parametric width =>
    cases width with
    | integer type literal =>
      simp only [request, addParametric, IRType.folded]
      cases literal.width32? <;> rfl
    | _ => rfl
  | _ => rfl

theorem get_request (found : s.get ty = .ok t) (new : IRType) :
    (s.request new).2.get ty = .ok t := by
  rw [request_eq]
  exact get_add found new.folded

theorem Grounded.request (grounded : s.Grounded) {new : IRType}
    (parts : ∀ part ∈ new.typeRefs, s.Has part) : (s.request new).2.Grounded := by
  rw [request_eq]
  exact grounded.add fun part mem => parts part (IRType.mem_typeRefs_of_folded mem)

theorem empty_grounded (hash : Digest → UInt64) : Grounded { hash } := by
  intro ty t found
  have bound := has_iff.mp ⟨t, found⟩
  exact absurd bound (Nat.not_lt_zero _)

end TypeStore

/-! ## Texts -/

namespace Attribute

variable {printType : TypeRef → Except Fault String}

mutual
/-- An attribute has a text if the types in it have. -/
theorem printWith_ok : ∀ a : Attribute, (∀ ty ∈ a.typeRefs, ∃ text, printType ty = .ok text) →
    ∃ text, a.printWith printType = .ok text
  | .string _, _ => ⟨_, rfl⟩
  | .float _, _ => ⟨_, rfl⟩
  | .zeroCount _, _ => ⟨_, rfl⟩
  | .integer ty _, h => by
    obtain ⟨text, printed⟩ := h ty (by simp [typeRefs])
    simp [printWith, printed]
  | .type ty, h => h ty (by simp [typeRefs])
  | .paramRef _ ty, h => by
    obtain ⟨text, printed⟩ := h ty (by simp [typeRefs])
    simp [printWith, printed]
  | .verbatim _ ty, h => by
    obtain ⟨text, printed⟩ := h ty (by simp [typeRefs])
    simp [printWith, printed]
  | .array as, h => by
    obtain ⟨texts, printed⟩ := printAllWith_ok as h
    simp [printWith, printed]
  | .paramDecl _ ty d, h => by
    obtain ⟨text, printed⟩ := h ty (by simp [typeRefs])
    obtain ⟨texts, printed'⟩ :=
      printDefaultWith_ok d fun ty mem => h ty (List.mem_cons_of_mem _ mem)
    simp [printWith, printed, printed']
  | .paramExpr _ as ty, h => by
    obtain ⟨text, printed⟩ := h ty (by simp [typeRefs])
    obtain ⟨texts, printed'⟩ :=
      printAllWith_ok as fun ty mem => h ty (List.mem_cons_of_mem _ mem)
    simp [printWith, printed, printed']

theorem printAllWith_ok : ∀ as : List Attribute,
    (∀ ty ∈ typeRefsAll as, ∃ text, printType ty = .ok text) →
    ∃ texts, printAllWith printType as = .ok texts
  | [], _ => ⟨_, rfl⟩
  | a :: as, h => by
    obtain ⟨text, printed⟩ := printWith_ok a fun ty mem => h ty (List.mem_append_left _ mem)
    obtain ⟨texts, printed'⟩ :=
      printAllWith_ok as fun ty mem => h ty (List.mem_append_right _ mem)
    simp [printAllWith, printed, printed']

theorem printDefaultWith_ok : ∀ d : Option Attribute,
    (∀ ty ∈ typeRefsDefault d, ∃ text, printType ty = .ok text) →
    ∃ text, printDefaultWith printType d = .ok text
  | none, _ => ⟨_, rfl⟩
  | some a, h => by
    obtain ⟨text, printed⟩ := printWith_ok a h
    simp [printDefaultWith, printed]
end

end Attribute

namespace TypeStore

variable {s : TypeStore}

theorem Grounded.printWithin_ok (grounded : s.Grounded) {depth : Nat} {ty : TypeRef}
    (has : s.Has ty) (deep : ty.index < depth) : ∃ text, s.printWithin depth ty = .ok text := by
  induction depth generalizing ty with
  | zero => omega
  | succ depth ih =>
    obtain ⟨t, found⟩ := has
    have bound := has_iff.mp ⟨t, found⟩
    -- Parts have smaller handles, so that one level less is deep enough for them.
    have parts : ∀ part ∈ t.typeRefs, ∃ text, s.printWithin depth part = .ok text := by
      intro part mem
      have smaller := grounded ty t found part mem
      exact ih (has_iff.mpr (by omega)) (by omega)
    cases t with
    | integer width sign => simp [printWithin, found]
    | parametric width =>
      obtain ⟨text, printed⟩ := Attribute.printWith_ok width parts
      simp [printWithin, found, printed]
    | state value =>
      obtain ⟨text, printed⟩ := parts value (by simp [IRType.typeRefs])
      simp [printWithin, found, printed]
    | memory words word address =>
      obtain ⟨text, printed⟩ := parts word (by simp [IRType.typeRefs])
      obtain ⟨text', printed'⟩ := parts address (by simp [IRType.typeRefs])
      simp [printWithin, found, printed, printed']
    | storage size => simp [printWithin, found]
    | simInstance model => simp [printWithin, found]

/-- Every type of a grounded store has a text. -/
theorem Grounded.print_ok (grounded : s.Grounded) {ty : TypeRef} (has : s.Has ty) :
    ∃ text, s.print ty = .ok text :=
  grounded.printWithin_ok has (Nat.lt_succ_self _)

/-- So has every attribute that mentions types of the store only. -/
theorem Grounded.printAttribute_ok (grounded : s.Grounded) {a : Attribute}
    (has : ∀ ty ∈ a.typeRefs, s.Has ty) : ∃ text, s.printAttribute a = .ok text :=
  Attribute.printWith_ok a fun ty mem => grounded.print_ok (has ty mem)

end TypeStore

end HardwareIR
