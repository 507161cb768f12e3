import SemanticSchema.Constraint.Validate
import SemanticSchema.Proofs.Registry.Unwrap

/-!
# Well-formed constraints

What the checks of constraints are for: a constraint names properties that exist, and a path from a
parameter starts at a parameter of the operation whose result is constrained.

* `Registry.PropertyResolves`, `Registry.ParameterPathResolves` : a property of a type is found, a path
  from a parameter of an operation leads somewhere;
* `Registry.WellFormed` : what is asked of a constraint of each form. Nothing is asked of the
  properties of a target whose type is imported;
* `Registry.constraintReportsOn_standard` : the standard validators report the faults of a constraint;
* `Registry.wellFormed_of_constraintReportsOn` : a constraint without reports is well formed.
-/

set_option autoImplicit false

namespace SemanticSchema.Registry

variable {r : Registry} {o : Operation} {path : PropertyPath} {target : TypeRef} {subject : PropertyRef}

/-- A property is found in the object type behind a type. -/
def PropertyResolves (r : Registry) (target : TypeRef) (subject : PropertyRef) : Prop :=
  ∃ object f, r.UnwrapsTo target object ∧ subject.resolve r object = .ok f

/-- A path starts at a parameter of an operation, and what follows is found in the parameter. -/
inductive ParameterPathResolves (r : Registry) (o : Operation) : PropertyPath → Prop
  | parameter {head : String} {p : Parameter} (hp : o.parameter? head = some p) :
    ParameterPathResolves r o ⟨[head]⟩
  | property {head next : String} {rest : List String} {p : Parameter} {object : TypeId} {f : Field}
    (hp : o.parameter? head = some p) (hobject : r.UnwrapsTo p.type object)
    (hf : r.fieldOnPath object ⟨next :: rest⟩ = .ok f) : ParameterPathResolves r o ⟨head :: next :: rest⟩

/-- A value is given along a path from a parameter of the operation whose result is constrained. -/
def DerivesFrom (r : Registry) (site : ConstraintSite) (path : PropertyPath) : Prop :=
  ∃ o, site = .returnContract o ∧ r.ParameterPathResolves o path

/-- What is asked of a constraint on values of the type `target`. -/
def WellFormed (r : Registry) (site : ConstraintSite) (target : TypeRef) : Constraint → Prop
  | .expression _ _ => True
  | .property subject _ expected _ =>
    ¬ r.EndsInImport target → r.PropertyResolves target subject ∧
      ∀ path, expected = .relative path → r.DerivesFrom site path
  | .derivedFrom path _ => r.DerivesFrom site path
  | .namedConstant field _ _ => ¬ r.EndsInImport target → r.PropertyResolves target (.byPath ⟨[field]⟩)
  | .typedConstant type _ _ => ¬ r.EndsInImport target → r.PropertyResolves target (.byType type)

/-! ## Faults -/

theorem propertyResolves_of_faults {otherwise : Malformation}
    (h : r.propertyFaults target subject otherwise = []) : r.PropertyResolves target subject := by
  unfold propertyFaults at h
  cases hobject : r.unwrapObject? target with
  | none => rw [hobject] at h; cases h
  | some object =>
    simp only [hobject] at h
    cases hf : subject.resolve r object with
    | error e => rw [hf] at h; cases h
    | ok f => exact ⟨object, f, unwrapsTo_of_unwrapObject? hobject, hf⟩

theorem parameterPathResolves_of_error?_eq_none (h : r.parameterPathError? o path = none) :
    r.ParameterPathResolves o path := by
  obtain ⟨parts⟩ := path
  cases parts with
  | nil => cases h
  | cons head rest =>
    unfold parameterPathError? at h
    cases hp : o.parameter? head with
    | none => simp only [hp] at h; cases h
    | some p =>
      simp only [hp] at h
      cases rest with
      | nil => exact .parameter hp
      | cons next rest =>
        rw [if_neg (by simp)] at h
        cases hobject : r.unwrapObject? p.type with
        | none => rw [hobject] at h; cases h
        | some object =>
          simp only [hobject] at h
          cases hf : r.fieldOnPath object ⟨next :: rest⟩ with
          | error e => rw [hf] at h; cases h
          | ok f => exact .property hp (unwrapsTo_of_unwrapObject? hobject) hf

theorem derivesFrom_of_derivationFaults {site : ConstraintSite} (h : r.derivationFaults site path = []) :
    r.DerivesFrom site path := by
  unfold derivationFaults at h
  cases site with
  | returnContract o =>
    refine ⟨o, rfl, parameterPathResolves_of_error?_eq_none ?_⟩
    cases herror : r.parameterPathError? o path with
    | none => rfl
    | some e => simp [herror] at h
  | field owner => cases h
  | parameter o => cases h

theorem derivesFrom_of_expectedFaults {site : ConstraintSite} (h : r.expectedFaults site (.relative path) = []) :
    r.DerivesFrom site path := by
  refine derivesFrom_of_derivationFaults ?_
  cases site with
  | returnContract o => exact h
  | field owner => cases h
  | parameter o => cases h

/-! ## Reports -/

/-- The faults of a constraint of any form. -/
def faults (r : Registry) (site : ConstraintSite) (target : TypeRef) : Constraint → List Malformation
  | .expression _ _ => []
  | .property subject _ expected _ => r.comparisonFaults site target subject expected
  | .derivedFrom path _ => r.derivationFaults site path
  | .namedConstant field _ _ => r.constantFaults target (.byPath ⟨[field]⟩)
  | .typedConstant type _ _ => r.constantFaults target (.byType type)

/-- The standard validators report the faults of a constraint, each once. -/
theorem constraintReportsOn_standard (r : Registry) (site : ConstraintSite) (target : ConstraintTarget)
    (c : Constraint) : r.constraintReportsOn .standard site target c =
      (r.faults site target.type c).map (Malformation.toDiagnostic r c target) := by
  have hvalidators : Providers.standard.validators =
      [Provider.comparison, Provider.derivedValue, Provider.constantValue].filterMap Provider.validator := rfl
  unfold constraintReportsOn
  rw [hvalidators]
  cases c with
  | expression body span => rfl
  | property subject operator expected span => exact List.append_nil _
  | derivedFrom path span => exact List.append_nil _
  | namedConstant field value span => exact List.append_nil _
  | typedConstant type value span => exact List.append_nil _

/-- It does not matter to the standard validators on which object type a field stands. -/
theorem constraintReportsOn_field (r : Registry) (id owner : TypeId) (target : ConstraintTarget)
    (c : Constraint) : r.constraintReportsOn .standard (.field id) target c =
      r.constraintReportsOn .standard (.field owner) target c := by
  have hfaults : r.faults (.field id) target.type c = r.faults (.field owner) target.type c := by
    cases c with
    | property subject operator expected span => cases expected <;> rfl
    | expression body span => rfl
    | derivedFrom path span => rfl
    | namedConstant field value span => rfl
    | typedConstant type value span => rfl
  rw [constraintReportsOn_standard, constraintReportsOn_standard, hfaults]

theorem propertyResolves_of_constantFaults (himport : ¬ r.EndsInImport target)
    (h : r.constantFaults target subject = []) : r.PropertyResolves target subject := by
  unfold constantFaults at h
  rw [if_neg fun hexternal => himport (endsInImport_of_isExternal hexternal)] at h
  exact propertyResolves_of_faults h

theorem wellFormed_of_faults {site : ConstraintSite} {c : Constraint} (h : r.faults site target c = []) :
    r.WellFormed site target c := by
  cases c with
  | expression body span => exact trivial
  | property subject operator expected span =>
    intro himport
    change r.comparisonFaults site target subject expected = [] at h
    unfold comparisonFaults at h
    rw [if_neg fun hexternal => himport (endsInImport_of_isExternal hexternal)] at h
    obtain ⟨hproperty, hexpected⟩ := List.append_eq_nil_iff.1 h
    refine ⟨propertyResolves_of_faults hproperty, fun path hpath => ?_⟩
    rw [hpath] at hexpected
    exact derivesFrom_of_expectedFaults hexpected
  | derivedFrom path span => exact derivesFrom_of_derivationFaults h
  | namedConstant field value span => exact fun himport => propertyResolves_of_constantFaults himport h
  | typedConstant type value span => exact fun himport => propertyResolves_of_constantFaults himport h

/-- A constraint that the standard validators have nothing to say about is well formed. -/
theorem wellFormed_of_constraintReportsOn {site : ConstraintSite} {target : ConstraintTarget} {c : Constraint}
    (h : r.constraintReportsOn .standard site target c = []) : r.WellFormed site target.type c := by
  rw [constraintReportsOn_standard, List.map_eq_nil_iff] at h
  exact wellFormed_of_faults h

end SemanticSchema.Registry
