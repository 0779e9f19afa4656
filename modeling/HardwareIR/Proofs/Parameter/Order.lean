import HardwareIR.Proofs.Parameter.Value

/-! # The order of declarations

A reference means the first declaration of its name.  Which one that is depends on the order of the
declarations, and makes a difference if a name is declared with two types: putting one of them first
makes the references with its type valid and those with the other type invalid.  Where every name
has one type, what is a parameter value does not depend on the order.
-/

namespace HardwareIR

/-- No name is declared with two types. -/
def Unambiguous (declarations : List ParamDecl) : Prop :=
  ∀ d ∈ declarations, ∀ d' ∈ declarations, d.name = d'.name → d.type = d'.type

variable {declarations declarations' : List ParamDecl} {value : Attribute}

/-- Where names are unambiguous, every declaration counts. -/
theorem Unambiguous.declares_iff (unambiguous : Unambiguous declarations) {name : Identifier}
    {type : TypeRef} :
    Declares declarations name type ↔ ∃ d ∈ declarations, d.name = name ∧ d.type = type := by
  constructor
  · exact Declares.mem
  · rintro ⟨d, mem, rfl, rfl⟩
    have declared : (declarations.find? fun e => e.name == d.name).isSome :=
      List.find?_isSome.mpr ⟨d, mem, beq_self_eq_true _⟩
    obtain ⟨first, found⟩ := Option.isSome_iff_exists.mp declared
    have called : first.name = d.name := by simpa using List.find?_some found
    have typed := unambiguous first (List.mem_of_find?_eq_some found) d mem called
    exact HardwareIR.declares_iff.mpr ⟨first, found, typed⟩

/-- The declarations enter into parameter values by what they declare. -/
theorem ParameterValue.of_declares {allowReferences : Bool}
    (keeps : ∀ name type, Declares declarations name type → Declares declarations' name type)
    (valid : ParameterValue declarations allowReferences value) :
    ParameterValue declarations' allowReferences value :=
  valid.mono fun _ _ allowed declares => ⟨allowed, keeps _ _ declares⟩

theorem Unambiguous.parameterValue_of_perm (unambiguous : Unambiguous declarations)
    (perm : declarations'.Perm declarations) {allowReferences : Bool} :
    ParameterValue declarations' allowReferences value ↔
      ParameterValue declarations allowReferences value := by
  have unambiguous' : Unambiguous declarations' := fun d mem d' mem' =>
    unambiguous d (perm.mem_iff.mp mem) d' (perm.mem_iff.mp mem')
  have same : ∀ name type, Declares declarations' name type ↔ Declares declarations name type := by
    intro name type
    rw [unambiguous'.declares_iff, unambiguous.declares_iff]
    simp only [perm.mem_iff]
  exact ⟨.of_declares fun name type => (same name type).mp,
    .of_declares fun name type => (same name type).mpr⟩

/-- Names are unambiguous if every declaration that is put first declares what was declared
before. -/
theorem unambiguous_of_perm (keeps : ∀ declarations', declarations'.Perm declarations →
    ∀ d ∈ declarations,
      Declares declarations' d.name d.type → Declares declarations d.name d.type) :
    Unambiguous declarations := by
  have counts : ∀ d ∈ declarations, Declares declarations d.name d.type := by
    intro d mem
    obtain ⟨before, after, split⟩ := List.append_of_mem mem
    have perm : (d :: (before ++ after)).Perm declarations := split ▸ List.perm_middle.symm
    refine keeps _ perm d mem ⟨[], d, before ++ after, rfl, rfl, rfl, ?_⟩
    exact fun _ listed => absurd listed List.not_mem_nil
  intro d mem d' mem' called
  exact (counts d mem).type_unique (called ▸ counts d' mem')

end HardwareIR
