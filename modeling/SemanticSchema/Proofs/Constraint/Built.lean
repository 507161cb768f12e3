import SemanticSchema.Proofs.Builder.Clauses
import SemanticSchema.Proofs.Registry.Imports

/-!
# What becomes of a list of clauses

Each clause becomes one constraint or one report. What it becomes depends on the clause alone, but for
the type that it names, and that type stays the same while clauses are built. So a clause that is refused
leaves no trace on the others.

The type of what is constrained plays no part: no standard provider looks at it.

* `Registry.resolve_run_lookups` : a name keeps its type while clauses are built;
* `Providers.standard_buildAll_spec` : the constraints, the reports and the registry, read off the clauses;
* `Providers.standard_buildAll_isolates` : no clause makes a difference to another.
-/

set_option autoImplicit false

namespace SemanticSchema

namespace Clause

theorem flatMap_lookups_filter (clauses : List Clause) :
    (clauses.filter (¬ Refused ·)).flatMap lookups = clauses.flatMap lookups := by
  induction clauses with
  | nil => rfl
  | cons c rest ih =>
    by_cases h : c.Refused
    · rw [List.filter_cons_of_neg (by simpa using h), List.flatMap_cons, h.lookups_eq_nil, ih, List.nil_append]
    · rw [List.filter_cons_of_pos (by simpa using h), List.flatMap_cons, List.flatMap_cons, ih]

end Clause

namespace Registry

/-! ## Names keep their types -/

theorem definedIn_lookups (r : Registry) (clauses : List Clause) :
    r.definedIn (clauses.flatMap Clause.lookups) = [] := by
  induction clauses generalizing r with
  | nil => rfl
  | cons c rest ih =>
    have hc : r.definedIn c.lookups = [] := by
      unfold Clause.lookups
      cases c.typeName? <;> rfl
    rw [List.flatMap_cons, definedIn_append, hc, ih, List.nil_append]

/-- A name comes to the same type before clauses are built and after. -/
theorem resolve_run_lookups (r : Registry) (origin : Span) (name : QualifiedName) (clauses : List Clause) :
    (((r.resolve origin name).2.run (clauses.flatMap Clause.lookups)).resolve origin name).1 =
      (r.resolve origin name).1 := by
  obtain ⟨t, hfirst, hmeaning⟩ := exists_meaning_of_resolve r origin name
  have hkept : ((r.resolve origin name).2.run (clauses.flatMap Clause.lookups)).meaning? name.element = some t :=
    meaning?_run hmeaning (by rw [definedIn_lookups]; exact fun h => List.not_mem_nil h.2)
  rw [hfirst]
  exact congrArg Prod.fst (resolve_eq_of_known hkept)

/-- A clause becomes the same before the clauses behind it are built and after. -/
theorem constraint_run_lookups (r : Registry) (c : Clause) (rest : List Clause) :
    (c.constraint fun name => ((r.run ((c :: rest).flatMap Clause.lookups)).resolve c.span name).1) =
      c.constraint fun name => (r.resolve c.span name).1 := by
  refine Clause.constraint_congr fun name hname => ?_
  have hlookups : c.lookups = [.resolve c.span name] := by rw [Clause.lookups, hname]; rfl
  rw [List.flatMap_cons, hlookups]
  exact r.resolve_run_lookups c.span name rest

end Registry

namespace Providers

/-! ## Several clauses -/

/-- The types in the constraints are those that the names mean in the end. -/
theorem standard_buildAll_spec (r : Registry) (clauses : List Clause) :
    let final := r.run (clauses.flatMap Clause.lookups)
    Providers.standard.buildAll r clauses =
      ⟨(clauses.filter (¬ Clause.Refused ·)).map fun c => c.constraint fun name => (final.resolve c.span name).1,
        (clauses.filter Clause.Refused).map Clause.providerNotFound, final⟩ := by
  induction clauses generalizing r with
  | nil => rfl
  | cons c rest ih =>
    intro final
    unfold buildAll
    by_cases h : c.Refused
    · have hfinal : final = r.run (rest.flatMap Clause.lookups) := by
        simp only [final, List.flatMap_cons, h.lookups_eq_nil, List.nil_append]
      rw [standard_build_of_refused h, List.filter_cons_of_neg (by simpa using h),
        List.filter_cons_of_pos (by simpa using h), hfinal]
      simp only [ih r, List.map_cons, List.singleton_append]
    · have hfinal : final = (r.run c.lookups).run (rest.flatMap Clause.lookups) := by
        rw [← Registry.run_append]
        rfl
      have hc := r.constraint_run_lookups c rest
      rw [standard_build_of_not_refused h, List.filter_cons_of_pos (by simpa using h),
        List.filter_cons_of_neg (by simpa using h), List.map_cons, hc, hfinal]
      simp only [ih]

/-- Every clause becomes one constraint or, if it is refused, one error at its place that no provider was
found for its form; both in the order of the clauses. Clauses that are refused can be left out: the constraints and the registry
stay the same. Clauses behind others are built in the registry that these leave. -/
theorem standard_buildAll_isolates (r : Registry) (clauses : List Clause) :
    let built := Providers.standard.buildAll r clauses
    let accepted := clauses.filter (¬ Clause.Refused ·)
    built.constraints =
      accepted.map (fun c => c.constraint fun name => (built.registry.resolve c.span name).1) ∧
    built.errors = (clauses.filter Clause.Refused).map (fun c => ⟨.providerNotFound, .error, c.span,
      "No constraint provider found for " ++ c.shape.display ++ " constraint", [], []⟩) ∧
    built.registry = r.run (accepted.flatMap Clause.lookups) ∧
    Providers.standard.buildAll r accepted = { built with errors := [] } ∧
    ∀ more : List Clause, Providers.standard.buildAll r (clauses ++ more) =
      let rest := Providers.standard.buildAll built.registry more
      ⟨built.constraints ++ rest.constraints, built.errors ++ rest.errors, rest.registry⟩ := by
  intro built accepted
  have hbuilt := standard_buildAll_spec r clauses
  have haccepted := standard_buildAll_spec r accepted
  have hlookups : accepted.flatMap Clause.lookups = clauses.flatMap Clause.lookups :=
    Clause.flatMap_lookups_filter clauses
  have hall : accepted.filter (¬ Clause.Refused ·) = accepted := by simp [accepted]
  have hnone : accepted.filter Clause.Refused = [] := by simp [accepted]
  have hregistry : built.registry = r.run (clauses.flatMap Clause.lookups) := congrArg BuiltConstraints.registry hbuilt
  refine ⟨?_, congrArg BuiltConstraints.errors hbuilt, hregistry.trans (by rw [hlookups]), ?_,
    buildAll_append _ r clauses⟩
  · rw [hregistry]
    exact congrArg BuiltConstraints.constraints hbuilt
  · rw [haccepted, hall, hnone, hlookups, show built = _ from hbuilt]
    rfl

/-- A bare value, a comparison of a type, a comparison of `this` itself, a result that is derived from nothing
and a constant: the second and the last are built, and the others are reported. -/
theorem standard_buildAll_isolates_currency :
    let one : Clause := .expression (.literal (.int 1) (.primitive .int) ⟨0, 10, 11, 2⟩)
    let currency : Clause :=
      .comparison (.typeNamed (.ofParts "pay" "Currency")) .equal (.constant (.text "GBP")) ⟨0, 20, 37, 3⟩
    let self : Clause := .comparison (.thisPath ⟨["this"]⟩) .equal (.constant (.text "GBP")) ⟨0, 40, 53, 4⟩
    let nothing : Clause := .derivedFrom ⟨[]⟩ ⟨0, 60, 64, 5⟩
    let rate : Clause := .constant (.fieldNamed "rate") (.int 2) ⟨0, 70, 78, 6⟩
    let built := Providers.standard.buildAll {} [one, currency, self, nothing, rate]
    built.constraints = [
      .property (.byType (.user ⟨0⟩)) .equal (.constant (.text "GBP")) ⟨0, 20, 37, 3⟩,
      .namedConstant "rate" (.int 2) ⟨0, 70, 78, 6⟩] ∧
    built.errors = [
      ⟨.providerNotFound, .error, ⟨0, 10, 11, 2⟩, "No constraint provider found for expression constraint", [], []⟩,
      ⟨.providerNotFound, .error, ⟨0, 40, 53, 4⟩,
        "No constraint provider found for property comparison constraint", [], []⟩,
      ⟨.providerNotFound, .error, ⟨0, 60, 64, 5⟩,
        "No constraint provider found for derived value constraint", [], []⟩] ∧
    Providers.standard.buildAll {} [currency, rate] = { built with errors := [] } := by
  intro one currency self nothing rate built
  obtain ⟨hconstraints, herrors, -, haccepted, -⟩ :=
    standard_buildAll_isolates {} [one, currency, self, nothing, rate]
  exact ⟨hconstraints.trans (by decide +kernel), herrors.trans (by decide +kernel), haccepted⟩

end Providers

end SemanticSchema
