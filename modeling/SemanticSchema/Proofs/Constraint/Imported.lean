import SemanticSchema.Proofs.Constraint.WellFormed
import SemanticSchema.Proofs.Registry.Ends
import SemanticSchema.Proofs.Registry.Run

/-!
# Constraints on imported types

A constraint on an imported type is left to the schema that defines the type. A target counts as
imported when aliases alone lead from its member to an import; then nothing is asked of a comparison,
not even of its value, and else everything is.

* `Malformation.Reported` : a report on a malformed constraint;
* `Constraint.comparison?` : the property that a constraint is about and the value it is compared with;
* `Registry.faults_of_comparison` : what the standard validators ask of a comparison;
* `Registry.constantReports_of_endsInImport` : a constant on a target that ends in an import;
* `ConstraintSite.DeclaresHead`, `ConstraintSite.HeadFault` : whether a path starts at a parameter of the
  operation whose result is constrained, and what is wrong if it does not;
* `Registry.relativeReports_of_not_declaresHead` : a value along a path that starts at no parameter.
-/

set_option autoImplicit false

namespace SemanticSchema

/-- A report on a constraint that is malformed for some reason. It is an error at the place of the constraint. -/
structure Malformation.Reported (r : Registry) (c : Constraint) (target : ConstraintTarget) (reason : Malformation)
    (d : Diagnostic) : Prop where
  report : d = reason.toDiagnostic r c target
  problem : d.problem = .malformedConstraint
  severity : d.severity = .error
  span : d.span = c.span

theorem Malformation.reported (r : Registry) (c : Constraint) (target : ConstraintTarget) (reason : Malformation) :
    reason.Reported r c target (reason.toDiagnostic r c target) := ⟨rfl, rfl, rfl, rfl⟩

/-! ## Comparisons -/

namespace Constraint

/-- The property that a constraint is about, and the value that it is compared with. -/
def comparison? : Constraint → Option (PropertyRef × Expected)
  | property subject _ expected _ => some (subject, expected)
  | namedConstant field value _ => some (.byPath ⟨[field]⟩, .constant value)
  | typedConstant type value _ => some (.byType type, .constant value)
  | expression _ _ | derivedFrom _ _ => none

/-- What is wrong with a comparison whose target is no object type. -/
def noObjectFault (r : Registry) : Constraint → Malformation
  | property subject _ _ _ => .uncheckable (subject.describe r.spell)
  | _ => .notOnObject

end Constraint

namespace Registry

variable {r : Registry} {site : ConstraintSite} {target : ConstraintTarget} {c : Constraint}
  {subject : PropertyRef} {expected : Expected}

theorem faults_of_comparison {type : TypeRef} (hc : c.comparison? = some (subject, expected)) :
    r.faults site type c =
      if r.isExternal type then []
      else r.propertyFaults type subject (c.noObjectFault r) ++ r.expectedFaults site expected := by
  cases c with
  | property subject operator expected span =>
    cases hc
    rfl
  | namedConstant field value span =>
    cases hc
    exact (congrArg (ite _ []) (List.append_nil _)).symm
  | typedConstant type value span =>
    cases hc
    exact (congrArg (ite _ []) (List.append_nil _)).symm
  | expression body span => cases hc
  | derivedFrom path span => cases hc

theorem reports_of_aliasesImport (hc : c.comparison? = some (subject, expected))
    (h : r.AliasesImport target.type.member) : r.constraintReportsOn .standard site target c = [] := by
  rw [constraintReportsOn_standard, faults_of_comparison hc, if_pos (isExternal_iff.2 h)]
  rfl

theorem reports_of_not_aliasesImport (hc : c.comparison? = some (subject, expected))
    (h : ¬ r.AliasesImport target.type.member) :
    r.constraintReportsOn .standard site target c =
      (r.propertyFaults target.type subject (c.noObjectFault r) ++ r.expectedFaults site expected).map
        (Malformation.toDiagnostic r c target) := by
  have hexternal : ¬ r.isExternal target.type = true := fun hexternal => h (isExternal_iff.1 hexternal)
  rw [constraintReportsOn_standard, faults_of_comparison hc, if_neg hexternal]

/-! ## Constants -/

/-- A comparison with a constant whose target ends in an import is let pass if aliases alone lead from
the member of the target to the import. If an array stands behind one of the aliases there is one
report, that constraints are for object types only. -/
theorem constantReports_of_endsInImport {value : Literal} (site : ConstraintSite)
    (hc : c.comparison? = some (subject, .constant value)) (himport : r.EndsInImport target.type) :
    (r.AliasesImport target.type.member → r.constraintReportsOn .standard site target c = []) ∧
    (¬ r.AliasesImport target.type.member →
      ∃ d, r.constraintReportsOn .standard site target c = [d] ∧ (c.noObjectFault r).Reported r c target d) := by
  refine ⟨reports_of_aliasesImport hc, fun h => ⟨_, ?_, Malformation.reported r c target _⟩⟩
  have hfaults : r.propertyFaults target.type subject (c.noObjectFault r) = [c.noObjectFault r] := by
    simp only [propertyFaults, unwrapObject?_of_endsInImport himport]
  rw [reports_of_not_aliasesImport hc h, hfaults]
  rfl

/-- An array of an alias of an import, under a comparison with a constant. -/
theorem constantReports_array_of_alias :
    let money := QualifiedName.ofParts "ref" "Money"
    let r := ({} : Registry).run
      [.addImport money, .register (.ofParts "pay" "Amount") (.typeAlias { target := .imported money })]
    let lines : ConstraintTarget := .field { name := "lines", type := .array (.user ⟨0⟩) }
    let inPounds := Constraint.property (.byPath ⟨["currency"]⟩) .equal (.constant (.text "GBP")) .unknown
    r.EndsInImport lines.type ∧ r.constraintReportsOn .standard (.field ⟨1⟩) lines inPounds = [] := by
  intro money r lines inPounds
  have halias : r.AliasStep (.user ⟨0⟩) (.imported money) := by decide
  have himport : r.EndsInImport lines.type := ⟨money, .head (.member _) (.single halias.unwrapStep)⟩
  have hpass := (constantReports_of_endsInImport (.field ⟨1⟩) (c := inPounds) rfl himport).1
  exact ⟨himport, hpass ⟨money, .single halias⟩⟩

/-- An alias of an array of an import ends in an import, and constants on it are reported. -/
theorem constantReports_alias_of_array :
    let money := QualifiedName.ofParts "ref" "Money"
    let r := ({} : Registry).run
      [.addImport money, .register (.ofParts "pay" "Prices") (.typeAlias { target := .array (.imported money) })]
    let total : ConstraintTarget := .field { name := "total", type := .user ⟨0⟩ }
    let inPounds := Constraint.property (.byPath ⟨["currency"]⟩) .equal (.constant (.text "GBP")) ⟨0, 50, 73, 3⟩
    let pounds := Constraint.namedConstant "currency" (.text "GBP") ⟨0, 80, 95, 4⟩
    r.Reachable ∧ r.EndsInImport total.type ∧
      r.constraintReportsOn .standard (.field ⟨1⟩) total inPounds = [⟨.malformedConstraint, .error, ⟨0, 50, 73, 3⟩,
        "Constraint `this.currency == \"GBP\"` on field total type pay.Prices is malformed: field currency cannot be "
          ++ "checked, as constraints are only supported on object types", [], []⟩] ∧
      r.constraintReportsOn .standard (.field ⟨1⟩) total pounds = [⟨.malformedConstraint, .error, ⟨0, 80, 95, 4⟩,
        "Constraint `currency = \"GBP\"` on field total type pay.Prices is malformed: constraints are only supported "
          ++ "on object types", [], []⟩] := by
  intro money r total inPounds pounds
  have halias : r.AliasStep (.user ⟨0⟩) (.array (.imported money)) := by decide
  refine ⟨⟨_, rfl⟩, ⟨money, .head halias.unwrapStep (.single (.member _))⟩, ?_, ?_⟩
  · decide +kernel
  · decide +kernel

end Registry

/-! ## Relative values -/

namespace ConstraintSite

/-- Whether a path starts at a parameter of the operation whose result is constrained. -/
def DeclaresHead (site : ConstraintSite) (path : PropertyPath) : Prop :=
  ∃ o head rest p, site = .returnContract o ∧ path = ⟨head :: rest⟩ ∧ o.parameter? head = some p

/-- What is wrong with a path that starts at no parameter. -/
inductive HeadFault : ConstraintSite → PropertyPath → Malformation → Prop
  | field (owner : TypeId) (path : PropertyPath) : HeadFault (.field owner) path .relativeOutsideContract
  | parameter (o : Operation) (path : PropertyPath) : HeadFault (.parameter o) path .relativeOutsideContract
  | empty (o : Operation) : HeadFault (.returnContract o) ⟨[]⟩ (.parameterPath .empty)
  | unknown {o : Operation} {head : String} (rest : List String) (h : o.parameter? head = none) :
    HeadFault (.returnContract o) ⟨head :: rest⟩ (.parameterPath (.unknownParameter o.name head))

theorem exists_headFault {site : ConstraintSite} {path : PropertyPath} (h : ¬ site.DeclaresHead path) :
    ∃ reason, site.HeadFault path reason := by
  cases site with
  | field owner => exact ⟨_, .field owner path⟩
  | parameter o => exact ⟨_, .parameter o path⟩
  | returnContract o =>
    obtain ⟨parts⟩ := path
    cases parts with
    | nil => exact ⟨_, .empty o⟩
    | cons head rest =>
      cases hp : o.parameter? head with
      | none => exact ⟨_, .unknown rest hp⟩
      | some p => exact absurd ⟨o, head, rest, p, rfl, rfl, hp⟩ h

theorem HeadFault.expectedFaults {site : ConstraintSite} {path : PropertyPath} {reason : Malformation}
    (h : site.HeadFault path reason) (r : Registry) : r.expectedFaults site (.relative path) = [reason] := by
  cases h with
  | field owner path => rfl
  | parameter o path => rfl
  | empty o => rfl
  | unknown rest h => simp [Registry.expectedFaults, Registry.parameterPathError?, h]

end ConstraintSite

namespace Registry

/-- A comparison with a value along a path that starts at no parameter of the operation whose result is
constrained is reported as malformed for just that, whatever the target, unless aliases alone lead from
the member of the target to an import. Then there is no report at all. -/
theorem relativeReports_of_not_declaresHead (r : Registry) (target : ConstraintTarget) (subject : PropertyRef)
    (operator : Operator) (span : Span) {site : ConstraintSite} {path : PropertyPath}
    (hhead : ¬ site.DeclaresHead path) :
    let c := Constraint.property subject operator (.relative path) span
    (¬ r.AliasesImport target.type.member → ∃ reason, site.HeadFault path reason ∧
      ∃ d ∈ r.constraintReportsOn .standard site target c, reason.Reported r c target d) ∧
    (r.AliasesImport target.type.member → r.constraintReportsOn .standard site target c = []) := by
  intro c
  have hc : c.comparison? = some (subject, .relative path) := rfl
  refine ⟨fun h => ?_, reports_of_aliasesImport hc⟩
  obtain ⟨reason, hreason⟩ := ConstraintSite.exists_headFault hhead
  refine ⟨reason, hreason, reason.toDiagnostic r c target, ?_, reason.reported r c target⟩
  rw [reports_of_not_aliasesImport hc h, hreason.expectedFaults]
  exact List.mem_map_of_mem (List.mem_append_right _ (List.mem_singleton_self _))

/-- A result that is compared with a property of a parameter that the operation does not declare. -/
theorem relativeReports_unknown_parameter :
    let r := ({} : Registry).run
      [.register (.ofParts "pay" "Money") (.object { fields := [{ name := "currency", type := .primitive .string }] })]
    let convert : Operation := { name := "convert", returns := .user ⟨0⟩ }
    let result : ConstraintTarget := .contract ⟨.user ⟨0⟩, []⟩
    let same :=
      Constraint.property (.byPath ⟨["currency"]⟩) .equal (.relative ⟨["source", "currency"]⟩) ⟨0, 50, 73, 3⟩
    ¬ (ConstraintSite.returnContract convert).DeclaresHead ⟨["source", "currency"]⟩ ∧
      ¬ r.AliasesImport result.type.member ∧
      ∃ d ∈ r.constraintReportsOn .standard (.returnContract convert) result same,
        d.problem = .malformedConstraint ∧ d.severity = .error ∧ d.span = ⟨0, 50, 73, 3⟩ := by
  intro r convert result same
  have hhead : ¬ (ConstraintSite.returnContract convert).DeclaresHead ⟨["source", "currency"]⟩ := by
    rintro ⟨o, head, rest, p, ho, hpath, hp⟩
    cases ho
    cases hpath
    cases hp
  have hmember : ¬ r.AliasesImport result.type.member := by
    rw [← isExternal_iff]
    decide +kernel
  obtain ⟨reason, -, d, hd, hreported⟩ :=
    (relativeReports_of_not_declaresHead r result (.byPath ⟨["currency"]⟩) .equal ⟨0, 50, 73, 3⟩ hhead).1 hmember
  exact ⟨hhead, hmember, d, hd, hreported.problem, hreported.severity, hreported.span⟩

/-- A field of an imported type may be compared with a value along a path, though it belongs to no
operation. -/
theorem relativeReports_imported_field :
    let money := QualifiedName.ofParts "ref" "Money"
    let r := ({} : Registry).run [.addImport money]
    let total : ConstraintTarget := .field { name := "total", type := (r.resolve .unknown money).1 }
    let same := Constraint.property (.byPath ⟨["currency"]⟩) .equal (.relative ⟨["request", "currency"]⟩) .unknown
    r.Reachable ∧ ¬ (ConstraintSite.field ⟨0⟩).DeclaresHead ⟨["request", "currency"]⟩ ∧
      r.constraintReportsOn .standard (.field ⟨0⟩) total same = [] := by
  intro money r total same
  refine ⟨⟨_, rfl⟩, ?_, ?_⟩
  · rintro ⟨o, head, rest, p, ho, -⟩
    cases ho
  · rw [← List.length_eq_zero_iff]
    decide +kernel

end Registry

end SemanticSchema
