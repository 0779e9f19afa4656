import HardwareIR.Parameter.Check

/-! # Parameter values and what is wrong with others

`ParameterValue` derives the attributes that are parameter values, apart from any procedure.  An
attribute that is none has offending parts: `Attribute.parts` lists an expression before its
operands and operands from left to right, `ParameterScope.Offence` says what is wrong with one part,
and `ParameterScope.FirstOffence` what is wrong with the first of several that offends.
-/

namespace HardwareIR

open Parameter (Opcode)

/-! ## Numbers of operands -/

namespace Parameter

/-- The operators that combine any number of operands from two on. -/
def Opcode.associative : List Opcode :=
  [.add, .mul, .and, .or, .xor, .strConcat]

/-- How many operands an operator takes. -/
inductive Opcode.Takes : Opcode → Nat → Prop where
  | logarithm : Takes .clog2 1
  | pair {op : Opcode} (binary : op ≠ .clog2) : Takes op 2
  | many {op : Opcode} {n : Nat} (associative : op ∈ Opcode.associative) (several : 2 ≤ n) :
      Takes op n

theorem Opcode.acceptsArity_iff (op : Opcode) (n : Nat) :
    op.acceptsArity n = true ↔ op.Takes n := by
  constructor
  · intro accepted
    cases op <;> simp only [acceptsArity, arity, Arity.admits, beq_iff_eq, decide_eq_true_eq]
      at accepted
    case clog2 => exact accepted ▸ .logarithm
    case add | mul | and | or | xor | strConcat => exact .many (by decide) accepted
    all_goals exact accepted ▸ .pair (by decide)
  · rintro (_ | binary | ⟨associative, several⟩)
    · rfl
    · cases op <;> first | rfl | exact absurd rfl binary
    · cases op <;> first | exact decide_eq_true several | exact absurd associative (by decide)

end Parameter

/-! ## Parameter values -/

/-- The first declaration of a name has a type. -/
def Declares (declarations : List ParamDecl) (name : Identifier) (type : TypeRef) : Prop :=
  ∃ before d after, declarations = before ++ d :: after ∧ d.name = name ∧ d.type = type ∧
    ∀ e ∈ before, e.name ≠ name

section Declares

variable {declarations : List ParamDecl} {name : Identifier} {type : TypeRef}

theorem declares_iff : Declares declarations name type ↔
    ∃ d, declarations.find? (fun d => d.name == name) = some d ∧ d.type = type := by
  constructor
  · rintro ⟨before, d, after, rfl, rfl, rfl, others⟩
    refine ⟨d, List.find?_eq_some_iff_append.mpr ⟨beq_self_eq_true _, before, after, rfl, ?_⟩, rfl⟩
    exact fun e mem => by simpa using others e mem
  · rintro ⟨d, found, rfl⟩
    obtain ⟨called, before, after, rfl, others⟩ := List.find?_eq_some_iff_append.mp found
    exact ⟨before, d, after, rfl, eq_of_beq called, rfl, fun e mem => by simpa using others e mem⟩

theorem Declares.type_unique {type' : TypeRef} (declares : Declares declarations name type)
    (declares' : Declares declarations name type') : type = type' := by
  obtain ⟨d, found, rfl⟩ := declares_iff.mp declares
  obtain ⟨d', found', rfl⟩ := declares_iff.mp declares'
  rw [Option.some.inj (found.symm.trans found')]

theorem Declares.mem (declares : Declares declarations name type) :
    ∃ d ∈ declarations, d.name = name ∧ d.type = type := by
  obtain ⟨before, d, after, rfl, called, typed, -⟩ := declares
  exact ⟨d, by simp, called, typed⟩

end Declares

/-- An attribute can be the value of a parameter where `declarations` are in scope and references
are allowed or not. -/
inductive ParameterValue (declarations : List ParamDecl) (allowReferences : Bool) :
    Attribute → Prop where
  | integer (type : TypeRef) (literal : Literal) :
      ParameterValue declarations allowReferences (.integer type literal)
  | float (bits : UInt64) : ParameterValue declarations allowReferences (.float bits)
  | string (text : String) : ParameterValue declarations allowReferences (.string text)
  | verbatim (text : String) (type : TypeRef) :
      ParameterValue declarations allowReferences (.verbatim text type)
  | expression {op : Opcode} {operands : List Attribute} (type : TypeRef)
      (takes : op.Takes operands.length)
      (values : ∀ operand ∈ operands, ParameterValue declarations allowReferences operand) :
      ParameterValue declarations allowReferences (.paramExpr op operands type)
  | reference {name : Identifier} {type : TypeRef} (allowed : allowReferences = true)
      (declares : Declares declarations name type) :
      ParameterValue declarations allowReferences (.paramRef name type)

/-- Scopes enter into parameter values by the references that they allow. -/
theorem ParameterValue.mono {declarations declarations' : List ParamDecl}
    {allowReferences allowReferences' : Bool} {value : Attribute}
    (keeps : ∀ name type, allowReferences = true → Declares declarations name type →
      allowReferences' = true ∧ Declares declarations' name type)
    (valid : ParameterValue declarations allowReferences value) :
    ParameterValue declarations' allowReferences' value := by
  induction valid with
  | integer type literal => exact .integer type literal
  | float bits => exact .float bits
  | string text => exact .string text
  | verbatim text type => exact .verbatim text type
  | expression type takes _ ih => exact .expression type takes ih
  | reference allowed declares =>
    obtain ⟨allowed', declares'⟩ := keeps _ _ allowed declares
    exact .reference allowed' declares'

namespace Attribute

/-! ## Parts -/

mutual
/-- A value and the operands in it at any depth, in preorder. -/
def parts : Attribute → List Attribute
  | .paramExpr op operands ty => .paramExpr op operands ty :: partsAll operands
  | value => [value]

/-- The parts of several values, one value after the other. -/
def partsAll : List Attribute → List Attribute
  | [] => []
  | value :: rest => value.parts ++ partsAll rest
end

theorem mem_partsAll {values : List Attribute} {part : Attribute} :
    part ∈ partsAll values ↔ ∃ value ∈ values, part ∈ value.parts := by
  induction values with
  | nil => simp [partsAll]
  | cons value rest ih => simp [partsAll, ih]

/-- An attribute is of a kind that is never a parameter value. -/
inductive Excluded : Attribute → Prop where
  | type (ty : TypeRef) : Excluded (.type ty)
  | array (elements : List Attribute) : Excluded (.array elements)
  | paramDecl (name : Identifier) (ty : TypeRef) (default? : Option Attribute) :
      Excluded (.paramDecl name ty default?)
  | zeroCount (predicate : ZeroCountPredicate) : Excluded (.zeroCount predicate)

end Attribute

namespace ParameterScope

variable {scope : ParameterScope} {part value : Attribute} {parts rest : List Attribute}
  {fault fault' : ParameterFault}

/-! ## Offences -/

/-- What is wrong with a part of a value, whatever its own operands are. -/
inductive Offence (scope : ParameterScope) : Attribute → ParameterFault → Prop where
  | arity {op : Opcode} {operands : List Attribute} {type : TypeRef}
      (refused : ¬ op.Takes operands.length) :
      Offence scope (.paramExpr op operands type) (.arity op operands.length)
  | notAllowed {name : Identifier} {type : TypeRef} (forbidden : scope.allowReferences = false) :
      Offence scope (.paramRef name type) (.referenceNotAllowed name)
  | unknown {name : Identifier} {type : TypeRef} (allowed : scope.allowReferences = true)
      (undeclared : ∀ d ∈ scope.declarations, d.name ≠ name) :
      Offence scope (.paramRef name type) (.unknown name)
  | typeMismatch {name : Identifier} {type declared : TypeRef} {used wanted : String}
      (allowed : scope.allowReferences = true)
      (declares : Declares scope.declarations name declared) (differ : declared ≠ type)
      (usedText : scope.types.print type = .ok used)
      (wantedText : scope.types.print declared = .ok wanted) :
      Offence scope (.paramRef name type) (.typeMismatch name used wanted)
  | invalid {value : Attribute} {text : String} (excluded : value.Excluded)
      (printed : scope.types.printAttribute value = .ok text) :
      Offence scope value (.invalid text)

theorem Offence.unique (offence : scope.Offence part fault) (offence' : scope.Offence part fault') :
    fault = fault' := by
  cases offence with
  | arity refused =>
    cases offence' with
    | arity _ => rfl
    | invalid excluded _ => cases excluded
  | notAllowed forbidden =>
    cases offence' with
    | notAllowed _ => rfl
    | unknown allowed _ => simp [allowed] at forbidden
    | typeMismatch allowed _ _ _ _ => simp [allowed] at forbidden
    | invalid excluded _ => cases excluded
  | unknown allowed undeclared =>
    cases offence' with
    | notAllowed forbidden => simp [allowed] at forbidden
    | unknown _ _ => rfl
    | typeMismatch _ declares _ _ _ =>
      obtain ⟨d, mem, called, -⟩ := declares.mem
      exact absurd called (undeclared d mem)
    | invalid excluded _ => cases excluded
  | typeMismatch allowed declares _ usedText wantedText =>
    cases offence' with
    | notAllowed forbidden => simp [allowed] at forbidden
    | unknown _ undeclared =>
      obtain ⟨d, mem, called, -⟩ := declares.mem
      exact absurd called (undeclared d mem)
    | typeMismatch _ declares' _ usedText' wantedText' =>
      cases declares.type_unique declares'
      cases usedText.symm.trans usedText'
      cases wantedText.symm.trans wantedText'
      rfl
    | invalid excluded _ => cases excluded
  | invalid excluded printed =>
    cases offence' with
    | invalid _ printed' =>
      cases printed.symm.trans printed'
      rfl
    | _ => cases excluded

/-- What is wrong with the first of several parts that offends. -/
inductive FirstOffence (scope : ParameterScope) : List Attribute → ParameterFault → Prop where
  | here {part : Attribute} {rest : List Attribute} {fault : ParameterFault}
      (offence : scope.Offence part fault) : FirstOffence scope (part :: rest) fault
  | later {part : Attribute} {rest : List Attribute} {fault : ParameterFault}
      (clean : ∀ fault, ¬ scope.Offence part fault) (first : FirstOffence scope rest fault) :
      FirstOffence scope (part :: rest) fault

theorem FirstOffence.append_left (first : scope.FirstOffence parts fault) (rest : List Attribute) :
    scope.FirstOffence (parts ++ rest) fault := by
  induction first with
  | here offence => exact .here offence
  | later clean _ ih => exact .later clean ih

theorem FirstOffence.append_right (clean : ∀ part ∈ parts, ∀ fault, ¬ scope.Offence part fault)
    (first : scope.FirstOffence rest fault) : scope.FirstOffence (parts ++ rest) fault := by
  induction parts with
  | nil => exact first
  | cons part parts ih =>
    exact .later (clean part List.mem_cons_self)
      (ih fun part' mem => clean part' (List.mem_cons_of_mem part mem))

theorem FirstOffence.exists_mem (first : scope.FirstOffence parts fault) :
    ∃ part ∈ parts, scope.Offence part fault := by
  induction first with
  | here offence => exact ⟨_, List.mem_cons_self, offence⟩
  | later _ _ ih =>
    obtain ⟨part, mem, offence⟩ := ih
    exact ⟨part, List.mem_cons_of_mem _ mem, offence⟩

theorem FirstOffence.unique (first : scope.FirstOffence parts fault)
    (first' : scope.FirstOffence parts fault') : fault = fault' := by
  induction first with
  | here offence =>
    cases first' with
    | here offence' => exact offence.unique offence'
    | later clean _ => exact absurd offence (clean _)
  | later clean _ ih =>
    cases first' with
    | here offence' => exact absurd offence' (clean _)
    | later _ first' => exact ih first'

end ParameterScope

/-! ## Values have no offending parts -/

section Clean

variable {scope : ParameterScope} {value : Attribute} {fault : ParameterFault}

/-- No part of a parameter value offends. -/
theorem ParameterValue.clean
    (valid : ParameterValue scope.declarations scope.allowReferences value) :
    ∀ part ∈ value.parts, ∀ fault, ¬ scope.Offence part fault := by
  induction valid with
  | integer | float | string | verbatim =>
    intro part mem fault offence
    rw [Attribute.parts, List.mem_singleton] at mem
    · subst mem
      cases offence with
      | invalid excluded _ => cases excluded
    · rintro _ _ _ ⟨⟩
  | expression type takes _ ih =>
    intro part mem fault offence
    rw [Attribute.parts] at mem
    rcases List.mem_cons.mp mem with rfl | inside
    · cases offence with
      | arity refused => exact refused takes
      | invalid excluded _ => cases excluded
    · obtain ⟨operand, listed, mem⟩ := Attribute.mem_partsAll.mp inside
      exact ih operand listed part mem fault offence
  | reference allowed declares =>
    intro part mem fault offence
    rw [Attribute.parts, List.mem_singleton] at mem
    · subst mem
      cases offence with
      | notAllowed forbidden => simp [allowed] at forbidden
      | unknown _ undeclared =>
        obtain ⟨d, mem, called, -⟩ := declares.mem
        exact undeclared d mem called
      | typeMismatch _ declares' differ _ _ => exact differ (declares'.type_unique declares)
      | invalid excluded _ => cases excluded
    · rintro _ _ _ ⟨⟩

end Clean

end HardwareIR
