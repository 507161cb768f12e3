import SemanticSchema.Proofs.Constraint.Imported
import SemanticSchema.Proofs.Registry.Paths

/-!
# Paths into imported types

A path may end at an imported type, but not go on behind it: what is left of it is reported, although only
the schema that defines the type knows its fields. The exception are comparisons on a target that is
itself imported, which are not looked into.

* `Registry.ParameterLeads` : the parameter and the fields that the parts of a path name;
* `ParameterPathError.Blames` : the errors that say of a type that it has no properties;
* `Registry.parameterPathError?_of_leads` : what is wrong with a path that comes to an imported type;
* `Registry.importedPath_reports` : what is reported of a path that comes to an imported type.
-/

set_option autoImplicit false

namespace SemanticSchema

/-- An error that says of a type, given by its name, that it has no properties. -/
inductive ParameterPathError.Blames (type : QualifiedName) : ParameterPathError → Prop
  | parameter (name : String) : Blames type (.noProperties name type)
  | field : Blames type (.property (.notAnObject type))

namespace Registry

variable {r : Registry} {o : Operation} {path : PropertyPath} {t : TypeRef} {left : List String}

/-- The walk along the parts of a path from the parameters of an operation, up to the type of the parameter
or of some field, and the parts that are left behind it. -/
inductive ParameterLeads (r : Registry) (o : Operation) : PropertyPath → TypeRef → List String → Prop
  | parameter {head : String} {p : Parameter} (rest : List String) (hp : o.parameter? head = some p) :
    ParameterLeads r o ⟨head :: rest⟩ p.type rest
  | field {head : String} {p : Parameter} {object : TypeId} {rest left : List String} {f : Field}
    (hp : o.parameter? head = some p) (hobject : r.UnwrapsTo p.type object) (hf : r.Leads object rest f left) :
    ParameterLeads r o ⟨head :: rest⟩ f.type left

theorem parameterPathError?_of_unwrapsTo {head next : String} {rest : List String} {p : Parameter} {object : TypeId}
    (hp : o.parameter? head = some p) (hobject : r.UnwrapsTo p.type object) :
    r.parameterPathError? o ⟨head :: next :: rest⟩ =
      match r.fieldOnPath object ⟨next :: rest⟩ with
      | .ok _ => none
      | .error e => some (.property e) := by
  have hinner := unwrapObject?_eq_some_iff.2 hobject
  cases hfield : r.fieldOnPath object ⟨next :: rest⟩ <;> simp [parameterPathError?, hp, hinner, hfield]

/-- A path from a parameter that comes to an imported type is right if it ends there, and otherwise the type
is said to have no properties. -/
theorem parameterPathError?_of_leads (h : r.ParameterLeads o path t left) (himport : r.EndsInImport t) :
    (left = [] → r.parameterPathError? o path = none) ∧
    (left ≠ [] → ∃ e, r.parameterPathError? o path = some e ∧ e.Blames (r.nameOf t)) := by
  have hnone : r.unwrapObject? t = none := unwrapObject?_of_endsInImport himport
  cases h with
  | @parameter head p rest hp =>
    cases left with
    | nil => exact ⟨fun _ => by simp [parameterPathError?, hp], fun hleft => absurd rfl hleft⟩
    | cons next rest =>
      refine ⟨fun hleft => absurd hleft (List.cons_ne_nil _ _),
        fun _ => ⟨.noProperties head (r.nameOf p.type), ?_, .parameter head⟩⟩
      simp only [parameterPathError?, hp, List.isEmpty_cons, Bool.false_eq_true, if_false, hnone]
  | @field head p object rest left f hp hobject hf =>
    cases rest with
    | nil => cases hf
    | cons next rest =>
      rw [parameterPathError?_of_unwrapsTo hp hobject]
      refine ⟨fun hleft => ?_, fun hleft => ⟨.property (.notAnObject (r.nameOf f.type)), ?_, .field⟩⟩
      · subst hleft
        rw [fieldOnPath_eq_ok_iff.2 hf]
      · rw [fieldOnPath_of_blocked hf hleft hnone]

/-- What is reported of a path that comes to an imported type, perhaps behind aliases and arrays. If it ends
there it is let pass. If parts are left, a derivation is reported just for that, and so is a comparison
with a value along the path, unless aliases alone lead from the member of its target to an import, when
nothing is reported. A comparison of a property at the end of such a path is always reported. -/
theorem importedPath_reports (r : Registry) (target : ConstraintTarget) {t : TypeRef} (himport : r.EndsInImport t)
    (left : List String) :
    (∀ o path, r.ParameterLeads o path t left →
      (left = [] → ∀ span, r.constraintReportsOn .standard (.returnContract o) target (.derivedFrom path span) = []) ∧
      (left ≠ [] → ∃ e : ParameterPathError, e.Blames (r.nameOf t) ∧
        (∀ span, let c := Constraint.derivedFrom path span
          ∃ d, r.constraintReportsOn .standard (.returnContract o) target c = [d] ∧
            (Malformation.parameterPath e).Reported r c target d) ∧
        ∀ subject operator span, let c := Constraint.property subject operator (.relative path) span
          (r.AliasesImport target.type.member → r.constraintReportsOn .standard (.returnContract o) target c = []) ∧
          (¬ r.AliasesImport target.type.member →
            ∃ d ∈ r.constraintReportsOn .standard (.returnContract o) target c,
              (Malformation.parameterPath e).Reported r c target d))) ∧
    ∀ object path f, r.UnwrapsTo target.type object → r.Leads object path.withoutThis.parts f left → f.type = t →
      left ≠ [] → ∀ site operator expected span, let c := Constraint.property (.byPath path) operator expected span
        ∃ d ∈ r.constraintReportsOn .standard site target c,
          (Malformation.property (.notAnObject (r.nameOf t))).Reported r c target d := by
  refine ⟨fun o path hpath => ?_, ?_⟩
  · obtain ⟨hend, hon⟩ := parameterPathError?_of_leads hpath himport
    refine ⟨fun hleft span => ?_, fun hleft => ?_⟩
    · rw [constraintReportsOn_standard, faults, derivationFaults, hend hleft]
      rfl
    · obtain ⟨e, herror, hblames⟩ := hon hleft
      refine ⟨e, hblames, fun span => ?_, fun subject operator span =>
        ⟨reports_of_aliasesImport rfl, fun hmember => ?_⟩⟩
      · intro c
        refine ⟨_, ?_, Malformation.reported r c target _⟩
        rw [constraintReportsOn_standard, faults, derivationFaults, herror]
        rfl
      · refine ⟨_, ?_, Malformation.reported r _ target _⟩
        rw [reports_of_not_aliasesImport rfl hmember, expectedFaults, herror]
        exact List.mem_map_of_mem (List.mem_append_right _ (List.mem_singleton_self _))
  · rintro object path f hobject hpath rfl hleft site operator expected span c
    have hfield : (PropertyRef.byPath path).resolve r object = .error (.notAnObject (r.nameOf f.type)) :=
      fieldOnPath_of_blocked hpath hleft (unwrapObject?_of_endsInImport himport)
    have hmember : ¬ r.AliasesImport target.type.member := by
      rw [← isExternal_iff, isExternal_of_unwrapsTo hobject]
      exact Bool.false_ne_true
    refine ⟨_, ?_, Malformation.reported r c target _⟩
    rw [reports_of_not_aliasesImport rfl hmember]
    simp only [propertyFaults, unwrapObject?_eq_some_iff.2 hobject, hfield]
    exact List.mem_map_of_mem (List.mem_append_left _ (List.mem_singleton_self _))

/-- The total of an order is of an imported type. A result may be derived from the total, but not from its
currency. -/
theorem importedPath_reports_total :
    let money := QualifiedName.ofParts "ref" "Money"
    let total : Field := { name := "total", type := .imported money }
    let r := ({} : Registry).run [.addImport money, .register (.ofParts "pay" "Order") (.object { fields := [total] })]
    let charge : Operation :=
      { name := "charge", params := [{ name := some "order", type := .user ⟨0⟩ }], returns := .primitive .string }
    let result : ConstraintTarget := .contract ⟨.primitive .string, []⟩
    r.EndsInImport total.type ∧ r.ParameterLeads charge ⟨["order", "total", "currency"]⟩ total.type ["currency"] ∧
      r.constraintReportsOn .standard (.returnContract charge) result (.derivedFrom ⟨["order", "total"]⟩ .unknown) = [] ∧
      ∃ d, r.constraintReportsOn .standard (.returnContract charge) result
          (.derivedFrom ⟨["order", "total", "currency"]⟩ ⟨0, 60, 90, 4⟩) = [d] ∧
        d.problem = .malformedConstraint ∧ d.severity = .error ∧ d.span = ⟨0, 60, 90, 4⟩ := by
  intro money total r charge result
  have himport : r.EndsInImport total.type := ⟨money, .refl⟩
  have hobject : r.UnwrapsTo (.user ⟨0⟩) ⟨0⟩ := ⟨.refl, _, rfl⟩
  have hfield : r.field? ⟨0⟩ "total" = some total := by cbv
  have hcurrency : r.ParameterLeads charge ⟨["order", "total", "currency"]⟩ total.type ["currency"] :=
    .field rfl hobject (.field _ hfield)
  obtain ⟨hend, -⟩ := (importedPath_reports r result himport []).1 charge ⟨["order", "total"]⟩
    (.field rfl hobject (.field _ hfield))
  obtain ⟨-, hon⟩ := (importedPath_reports r result himport ["currency"]).1 charge _ hcurrency
  obtain ⟨e, -, hreports, -⟩ := hon (by decide)
  obtain ⟨d, honly, hreported⟩ := hreports ⟨0, 60, 90, 4⟩
  exact ⟨himport, hcurrency, hend rfl .unknown, d, honly, hreported.problem, hreported.severity, hreported.span⟩

/-- A derivation from the currency of a parameter of an imported type is reported, and so are comparisons with
this currency and of the currency of a field of the type. -/
theorem importedPath_reports_currency :
    let money := QualifiedName.ofParts "ref" "Money"
    let total : Field := { name := "total", type := .imported money }
    let id : Field := { name := "id", type := .primitive .string }
    let r := ({} : Registry).run
      [.addImport money, .register (.ofParts "pay" "Order") (.object { fields := [id, total] })]
    let price : Parameter := { name := some "price", type := .imported money }
    let bill : Operation := { name := "bill", params := [price], returns := .user ⟨0⟩ }
    let result : ConstraintTarget := .contract ⟨.user ⟨0⟩, []⟩
    let reports := r.constraintReportsOn .standard (.returnContract bill) result
    r.Reachable ∧ r.EndsInImport (.imported money) ∧
      r.ParameterLeads bill ⟨["price", "currency"]⟩ (.imported money) ["currency"] ∧
      r.Leads ⟨0⟩ ["total", "currency"] total ["currency"] ∧
      (reports (.derivedFrom ⟨["price", "currency"]⟩ .unknown)).length = 1 ∧
      (reports (.property (.byPath ⟨["id"]⟩) .equal (.relative ⟨["price", "currency"]⟩) .unknown)).length = 1 ∧
      (reports (.property (.byPath ⟨["total", "currency"]⟩) .equal (.constant (.text "GBP")) .unknown)).length = 1 := by
  intro money total id r price bill result reports
  have hprice : bill.parameter? "price" = some price := rfl
  refine ⟨⟨_, rfl⟩, ⟨money, .refl⟩, .parameter _ hprice, .field _ (by cbv), ?_, ?_, ?_⟩
  · decide +kernel
  · decide +kernel
  · decide +kernel

end Registry

end SemanticSchema
