import HardwareIR.Proofs.Context.Attributes
import HardwareIR.Proofs.Session.Materialization
import HardwareIR.Proofs.Session.Verdict

/-! # Attributes of verified operations

A tree of operations that passes has in it the attributes that the kinds of the operations ask for,
each of which is valid by itself, but for literals that do not fit their types in the values of
parameter valued constants and in default values.  Nothing is demanded of other attributes.
-/

namespace HardwareIR

open Relation (ReflTransGen)

namespace Context

variable {ctx : Context} {root : OpRef}

/-- Every operation in a tree that passes has the attributes that its kind asks for.  An attribute
that is checked as a parameter value, or for its default values, is valid by itself exactly if the
literals in it fit their types, and any other one is valid by itself. -/
theorem verified_attributes (reachable : ctx.Reachable)
    (verified : (ctx.verify (.operation root)).result = .ok ()) {op : OpRef}
    (below : ReflTransGen ctx.Holds (.operation root) (.operation op)) :
    ∃ o kind, ctx.operation op = .ok o ∧ ctx.kindOf op = .ok kind ∧
      ∀ key ∈ kind.attributeKeys, ctx.HasChecked o key := by
  have sound := reachable.sound
  obtain ⟨root_live, -, passes⟩ := sound.wellFormed.verify_eq_ok_iff.mp verified
  obtain ⟨o, live⟩ := sound.wellFormed.live_of_below root_live below
  obtain ⟨kind, known, attributes⟩ := sound.attributes_of_passes live (passes op below)
  exact ⟨o, kind, live, known, attributes⟩

/-! ## A value with a literal in it -/

/-- A logarithm of nothing, which is no valid expression. -/
def emptyLogarithm : Attribute :=
  .paramExpr .clog2 [] ⟨0⟩

/-- The parameter of the standard module plus a literal that is given the type of the parameter. -/
def plusLiteral (literal : Literal) : Attribute :=
  .paramExpr .add [wReference, .integer ⟨0⟩ literal] ⟨0⟩

/-- The sum is the value of a constant in the body of the module.  The constant has an attribute
that nothing asks for as well. -/
def sumModule (literal : Literal) : Context :=
  standardModule.after [.newParamValue ⟨0⟩ (plusLiteral literal),
    .link .ops ⟨1, 0⟩ (.back ⟨0, 0⟩), .setAttribute ⟨1, 0⟩ "note" emptyLogarithm]

section SumModule

variable (literal : Literal)

theorem standard_sumModule : (sumModule literal).Standard := by
  refine .call (.setAttribute ..) (.call (.link ..) (.call (.newParamValue ..)
    standard_standardModule ?_) ?_) ?_
  · intro ty mem
    have same : ty = ⟨0⟩ := by
      simpa [Call.typeRefs, plusLiteral, wReference, Attribute.typeRefs, Attribute.typeRefsAll]
        using mem
    exact same ▸ ⟨.integer 8 .signless, rfl⟩
  · exact fun _ mem => absurd mem List.not_mem_nil
  · intro ty mem
    have same : ty = ⟨0⟩ := by
      simpa [Call.typeRefs, emptyLogarithm, Attribute.typeRefs, Attribute.typeRefsAll] using mem
    subst same
    exact ⟨.integer 8 .signless, rfl⟩

theorem acyclic_sumModule : (sumModule literal).Acyclic := by
  apply (standard_sumModule literal).reachable.sound.wellFormed.acyclic_of_slots
  refine List.forall_mem_cons.mpr ⟨?_, List.forall_mem_cons.mpr ⟨?_, ?_⟩⟩
  · rintro _ ⟨⟩ _ ⟨⟩
  · rintro _ ⟨⟩ _ ⟨⟩
    exact Nat.zero_lt_one
  · exact fun _ mem => absurd mem List.not_mem_nil

/-- What the constant is, has and is called. -/
theorem exists_sum :
    ∃ o, (sumModule literal).operation ⟨1, 0⟩ = .ok o ∧
      (sumModule literal).kindOf ⟨1, 0⟩ = .ok .paramValue ∧ ConstantShape o ⟨0⟩ ∧
      o.attributes.get? AttributeDict.paramValue = some (plusLiteral literal) ∧
      o.attributes.get? "note" = some emptyLogarithm := by
  obtain ⟨o, live, called, shape, attributes⟩ :
      ∃ o, (sumModule literal).operation ⟨1, 0⟩ = .ok o ∧ o.id = OpKind.paramValue.id ∧
        ConstantShape o ⟨0⟩ ∧ o.attributes = (SortedMap.insert ∅ AttributeDict.paramValue
          (plusLiteral literal)).insert "note" emptyLogarithm :=
    ⟨_, rfl, rfl, ⟨rfl, rfl, rfl⟩, rfl⟩
  have known := (standard_sumModule literal).kind?_eq .paramValue
  refine ⟨o, live, kindOf_of_known live (called ▸ known), shape, ?_, ?_⟩
  · rw [attributes, SortedMap.get?_insert, if_neg (by decide), SortedMap.get?_insert, if_pos rfl]
  · rw [attributes, SortedMap.get?_insert, if_pos rfl]

/-- The constant passes with whatever literal. -/
theorem verify_sumModule :
    ((sumModule literal).verify (.operation ⟨1, 0⟩)).result = .ok () := by
  have standard := standard_sumModule literal
  obtain ⟨o, live, known, shape, stored, -⟩ := exists_sum literal
  have parent : (sumModule literal).parent ⟨1, 0⟩ = .ok (some ⟨0, 0⟩) := rfl
  have enclosing : (sumModule literal).enclosing ⟨1, 0⟩ .hwModule = .ok (some ⟨0, 0⟩) :=
    standard.reachable.sound.enclosing_of_innermost (acyclic_sumModule literal)
      (standard.registered .hwModule) parent (.here rfl rfl)
  have parameters : (sumModule literal).parameters ⟨0, 0⟩ = .ok _ := rfl
  rw [shape.verify_eq live known rfl]
  show ((sumModule literal).verifyParamValue ⟨1, 0⟩).result = .ok ()
  rw [verifyParamValue_eq live stored enclosing parameters]
  rfl

end SumModule

/-- A literal of eight bits fits, so that the sum is valid by itself. -/
theorem verified_attributes_fitting :
    ∃ o value, (sumModule ⟨8, 5, by decide⟩).operation ⟨1, 0⟩ = .ok o ∧
      o.attributes.get? AttributeDict.paramValue = some value ∧
      (sumModule ⟨8, 5, by decide⟩).types.verifyAttribute value = .ok () := by
  obtain ⟨o, kind, live, known, attributes⟩ :=
    verified_attributes (standard_sumModule _).reachable (verify_sumModule ⟨8, 5, by decide⟩) .refl
  obtain ⟨o', live', known', -, stored', -⟩ := exists_sum ⟨8, 5, by decide⟩
  cases live.symm.trans live'
  cases known.symm.trans known'
  obtain ⟨value, stored, valid_iff, -⟩ := attributes AttributeDict.paramValue List.mem_cons_self
  cases stored.symm.trans stored'
  refine ⟨o, _, live, stored, valid_iff.mpr ?_⟩
  intro type literal mem
  cases List.mem_singleton.mp mem
  exact ⟨.integer 8 .signless, rfl, 8, .signless, rfl, rfl⟩

/-- A literal of sixteen bits does not fit, so that neither attribute of the constant is valid by
itself, but the constant passes. -/
theorem invalid_attributes_verified :
    (sumModule ⟨16, 5, by decide⟩).Standard ∧ (sumModule ⟨16, 5, by decide⟩).Acyclic ∧
      ((sumModule ⟨16, 5, by decide⟩).verify (.operation ⟨1, 0⟩)).result = .ok () ∧
      ∃ o value note, (sumModule ⟨16, 5, by decide⟩).operation ⟨1, 0⟩ = .ok o ∧
        o.attributes.get? AttributeDict.paramValue = some value ∧
        (sumModule ⟨16, 5, by decide⟩).types.verifyAttribute value =
          .error (.rejected (.verification (.literalWidth 16 8))) ∧
        o.attributes.get? "note" = some note ∧
        (sumModule ⟨16, 5, by decide⟩).types.verifyAttribute note =
          .error (.rejected (.verification (.expressionArity .clog2 0))) := by
  obtain ⟨o, live, -, -, stored, noted⟩ := exists_sum ⟨16, 5, by decide⟩
  exact ⟨standard_sumModule _, acyclic_sumModule _, verify_sumModule _, o, _, _, live, stored, rfl,
    noted, rfl⟩

end Context

end HardwareIR
