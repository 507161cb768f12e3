import SemanticSchema.Constraint.Build
import SemanticSchema.Proofs.Constraint.Imported
import SemanticSchema.Proofs.Registry.Lineage
import SemanticSchema.Proofs.Registry.Paths

/-!
# Constraints on named fields

A field can be constrained by its name in two ways, by a constant for it and by a comparison of a path
from `this`. Both ask for a field of that name, and neither can name a field `this`.

* `Registry.constantReports_eq_nil_iff` : a comparison with a constant passes the checks just when its
  property is found;
* `Registry.exists_resolve_singleton_iff` : when a path of one part finds a field;
* `Registry.namedField_reports` : when either of the two ways to name a field passes the checks.
-/

set_option autoImplicit false

namespace SemanticSchema.Registry

variable {r : Registry} {target : ConstraintTarget} {object : TypeId} {c : Constraint} {subject : PropertyRef}
  {value : Literal}

theorem propertyFaults_eq_nil_iff {otherwise : Malformation} (hobject : r.UnwrapsTo target.type object) :
    r.propertyFaults target.type subject otherwise = [] ↔ ∃ f, subject.resolve r object = .ok f := by
  simp only [propertyFaults, unwrapObject?_eq_some_iff.2 hobject]
  cases subject.resolve r object <;> simp

/-- A comparison with a constant, on a target with an object type behind it, passes the checks just when its
property is found in the object type. -/
theorem constantReports_eq_nil_iff (site : ConstraintSite) (hc : c.comparison? = some (subject, .constant value))
    (hobject : r.UnwrapsTo target.type object) :
    r.constraintReportsOn .standard site target c = [] ↔ ∃ f, subject.resolve r object = .ok f := by
  rw [constraintReportsOn_standard, List.map_eq_nil_iff, faults_of_comparison hc,
    if_neg (by rw [isExternal_of_unwrapsTo hobject]; exact Bool.false_ne_true)]
  exact (List.append_eq_nil_iff.trans (and_iff_left rfl)).trans (propertyFaults_eq_nil_iff hobject)

theorem exists_fieldNamed_iff {name : String} :
    (∃ f, r.fieldNamed object name = .ok f) ↔ ∃ f ∈ r.allFields object, f.name = name := by
  rw [← hasField_iff, hasField, Option.isSome_iff_exists]
  exact exists_congr fun f => fieldNamed_eq_ok_iff

theorem exists_resolve_singleton_iff {name : String} :
    (∃ f, (PropertyRef.byPath ⟨[name]⟩).resolve r object = .ok f) ↔
      name ≠ "this" ∧ ∃ f ∈ r.allFields object, f.name = name := by
  rw [PropertyRef.resolve_singleton]
  by_cases hthis : name = "this"
  · simp [hthis]
  · rw [if_neg hthis, exists_fieldNamed_iff]
    exact (and_iff_right hthis).symm

/-- On a target with an object type behind it, a constant for a field given by its name, and a comparison of
`this` and the name with a literal as the standard providers build it, pass the checks just when the
object type has a field of that name, inherited ones included, and the name is not `this`. A field of this
name is not found either way. -/
theorem namedField_reports (r : Registry) {target : ConstraintTarget} {object : TypeId}
    (hobject : r.UnwrapsTo target.type object) (site : ConstraintSite) (name : String) (operator : Operator)
    (value : Literal) (span : Span) :
    (r.constraintReportsOn .standard site target (.namedConstant name value span) = [] ↔
      name ≠ "this" ∧ ∃ f ∈ r.allFields object, f.name = name) ∧
    ∃ c, (∀ before, Providers.standard.build before
        (.comparison (.thisPath ⟨["this", name]⟩) operator (.constant value) span) = (.ok c, before)) ∧
      (r.constraintReportsOn .standard site target c = [] ↔
        name ≠ "this" ∧ ∃ f ∈ r.allFields object, f.name = name) := by
  have hfound := @exists_resolve_singleton_iff r object name
  refine ⟨?_, .property (.byPath ⟨[name]⟩) operator (.constant value) span, fun before => rfl, ?_⟩
  · exact (constantReports_eq_nil_iff site rfl hobject).trans hfound
  · exact (constantReports_eq_nil_iff site rfl hobject).trans hfound

/-- A price with an alias of an array of amounts of money: its currency may be constrained, and what an
amount does not have may not. -/
theorem namedField_reports_currency :
    let r := ({} : Registry).run
      [.register (.ofParts "pay" "Money") (.object { fields := [{ name := "currency", type := .primitive .string }] }),
        .register (.ofParts "pay" "Prices") (.typeAlias { target := .array (.user ⟨0⟩) })]
    let price : ConstraintTarget := .field { name := "price", type := .user ⟨1⟩ }
    r.UnwrapsTo price.type ⟨0⟩ ∧
      r.constraintReportsOn .standard (.field ⟨2⟩) price (.namedConstant "currency" (.text "GBP") .unknown) = [] ∧
      r.constraintReportsOn .standard (.field ⟨2⟩) price (.namedConstant "ccy" (.text "GBP") .unknown) ≠ [] := by
  intro r price
  have halias : r.AliasStep (.user ⟨1⟩) (.array (.user ⟨0⟩)) := by decide
  have hobject : r.UnwrapsTo price.type ⟨0⟩ := ⟨.head halias.unwrapStep (.single (.member _)), _, rfl⟩
  obtain ⟨hcurrency, -⟩ := namedField_reports r hobject (.field ⟨2⟩) "currency" .equal (.text "GBP") .unknown
  obtain ⟨hccy, -⟩ := namedField_reports r hobject (.field ⟨2⟩) "ccy" .equal (.text "GBP") .unknown
  refine ⟨hobject, hcurrency.2 (by decide +kernel), fun h => absurd (hccy.1 h).2 (by decide +kernel)⟩

/-- A note has a field `this`. A constant for it is reported, and so is a comparison of `this.this`. -/
theorem namedField_reports_this :
    let r := ({} : Registry).run
      [.register (.ofParts "pay" "Note") (.object { fields := [{ name := "this", type := .primitive .string }] })]
    let note : ConstraintTarget := .field { name := "note", type := .user ⟨0⟩ }
    r.Reachable ∧ r.UnwrapsTo note.type ⟨0⟩ ∧ (∃ f ∈ r.allFields ⟨0⟩, f.name = "this") ∧
      (r.constraintReportsOn .standard (.field ⟨1⟩) note (.namedConstant "this" (.text "x") .unknown)).length = 1 ∧
      ∃ c, Providers.standard.build r
          (.comparison (.thisPath ⟨["this", "this"]⟩) .equal (.constant (.text "x")) .unknown) = (.ok c, r) ∧
        (r.constraintReportsOn .standard (.field ⟨1⟩) note c).length = 1 := by
  intro r note
  refine ⟨⟨_, rfl⟩, ⟨.refl, _, rfl⟩, by decide +kernel, by decide +kernel, _, rfl, ?_⟩
  decide +kernel

end SemanticSchema.Registry
