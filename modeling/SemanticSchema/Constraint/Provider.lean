import SemanticSchema.Constraint.Check
import SemanticSchema.Constraint.Clause

/-!
# Constraint providers

A provider builds the constraints of one form of clause, and may check them later.

* `Provider`, `Validator` : what a provider does;
* `Provider.comparison`, `Provider.derivedValue`, `Provider.constantValue`, `Provider.expression` :
  the standard providers;
* `Providers` : a table of providers. A clause is built by the first provider of its form that
  applies;
* `Providers.standard` : the table of the standard providers.
-/

set_option autoImplicit false

namespace SemanticSchema

/-! ## Providers -/

/-- The check of some constraints against the finished model. -/
structure Validator where
  appliesTo : Constraint → Bool
  faults : Registry → ConstraintSite → ConstraintTarget → Constraint → List Malformation

/-- Builds constraints from clauses of one form. -/
structure Provider where
  name : String
  shape : ClauseShape
  /-- Whether the provider builds a clause of its form. -/
  applies : Clause → Bool
  /-- The constraint or the reports, and the registry with the types that the clause names. -/
  build : Registry → Clause → Except (List Diagnostic) Constraint × Registry
  validator : Option Validator := none

namespace Provider

/-- The report on a clause that was given to a provider for another form. -/
def wrongShape (provider : String) (clause : Clause) : Diagnostic :=
  .error .internal clause.span
    ("constraint provider " ++ provider ++ " cannot build a " ++ clause.shape.display
      ++ " constraint")

/-- The property that a comparison is about, its type resolved. -/
def resolveProperty (r : Registry) (span : Span) : ComparedProperty → PropertyRef × Registry
  | .thisPath path => (.byPath path.withoutThis, r)
  | .typeNamed name =>
    let (type, r) := r.resolve span name
    (.byType type, r)

/-- Comparisons of a property with a constant or with a property of a parameter. -/
def comparison : Provider where
  name := "property-to-parameter"
  shape := .comparison
  applies
    | .comparison (.thisPath path) _ _ _ => !path.withoutThis.isEmpty
    | .comparison .. => true
    | _ => false
  build r
    | .comparison property operator expected span =>
      let (subject, r) := resolveProperty r span property
      (.ok (.property subject operator expected span), r)
    | clause => (.error [wrongShape "property-to-parameter" clause], r)
  validator := some {
    appliesTo
      | .property .. => true
      | _ => false
    faults r site target
      | .property subject _ expected _ => r.comparisonFaults site target.type subject expected
      | _ => [] }

/-- Results that are derived from a parameter. -/
def derivedValue : Provider where
  name := "return-value-derived-from-parameter"
  shape := .derivedFrom
  applies
    | .derivedFrom path _ => !path.isEmpty
    | _ => false
  build r
    | .derivedFrom path span => (.ok (.derivedFrom path span), r)
    | clause => (.error [wrongShape "return-value-derived-from-parameter" clause], r)
  validator := some {
    appliesTo
      | .derivedFrom .. => true
      | _ => false
    faults r site _
      | .derivedFrom path _ => r.derivationFaults site path
      | _ => [] }

def constantValue : Provider where
  name := "constant-value"
  shape := .constant
  applies
    | .constant .. => true
    | _ => false
  build r
    | .constant (.fieldNamed field) value span => (.ok (.namedConstant field value span), r)
    | .constant (.typeNamed name) value span =>
      let (type, r) := r.resolve span name
      (.ok (.typedConstant type value span), r)
    | clause => (.error [wrongShape "constant-value" clause], r)
  validator := some {
    appliesTo
      | .namedConstant .. => true
      | .typedConstant .. => true
      | _ => false
    faults r _ target
      | .namedConstant field _ _ => r.constantFaults target.type (.byPath ⟨[field]⟩)
      | .typedConstant type _ _ => r.constantFaults target.type (.byType type)
      | _ => [] }

/-- Boolean expressions; they are kept and not checked. -/
def expression : Provider where
  name := "expression"
  shape := .expression
  applies
    | .expression body => body.isBoolean
    | _ => false
  build r
    | .expression body => (.ok (.expression body body.span), r)
    | clause => (.error [wrongShape "expression" clause], r)

end Provider

/-! ## Tables -/

/-- Providers in the order of registration. -/
structure Providers where
  entries : List Provider := []

namespace Providers

def register (ps : Providers) (p : Provider) : Providers := ⟨ps.entries ++ [p]⟩

def standard : Providers := ⟨[.comparison, .derivedValue, .constantValue, .expression]⟩

instance : Inhabited Providers := ⟨standard⟩

/-- The providers of one form, in the order of registration. -/
def ofShape (ps : Providers) (shape : ClauseShape) : List Provider :=
  ps.entries.filter (·.shape == shape)

/-- The providers form by form, the forms in the order in which they first came. -/
def byShape (ps : Providers) : List Provider :=
  (ps.entries.map (·.shape)).eraseDups.flatMap ps.ofShape

/-- The first provider of a clause's form that applies to it. -/
def select? (ps : Providers) (clause : Clause) : Option Provider :=
  (ps.ofShape clause.shape).find? (·.applies clause)

def validators (ps : Providers) : List Validator := ps.byShape.filterMap (·.validator)

def names (ps : Providers) : List String := ps.byShape.map (·.name)

/-- A summary of the table for logs. -/
def summary (ps : Providers) : String :=
  "ConstraintProviders \x7b providers: ["
    ++ String.intercalate ", " (ps.names.map fun name => "\"" ++ name ++ "\"") ++ "] \x7d"

end Providers

end SemanticSchema
