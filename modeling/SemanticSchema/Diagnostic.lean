import SemanticSchema.Span

/-!
# Diagnostics

What is reported about a schema.

* `Severity` : ordered from `info` to `error`;
* `Problem` : the kinds of problem, with their names and codes;
* `Diagnostic` : one report, with further places and notes;
* `Diagnostic.display` : its one-line text.
-/

set_option autoImplicit false

namespace SemanticSchema

inductive Severity where
  | info
  | warning
  | error
deriving DecidableEq, Inhabited

namespace Severity

def display : Severity → String
  | info => "info"
  | warning => "warning"
  | error => "error"

def rank : Severity → Nat
  | info => 0
  | warning => 1
  | error => 2

end Severity

inductive Problem where
  | internal
  | unresolvedType
  | refinementConflict
  | providerNotFound
  | malformedConstraint
  | duplicateDefinition
  | invalidExtension
  | cyclicInheritance
  | ambiguousName
  | shadowedField
  | multipleEnumBases
deriving DecidableEq, Inhabited

namespace Problem

/-- Every kind, in the order of the codes. -/
def all : List Problem :=
  [internal, unresolvedType, refinementConflict, providerNotFound, malformedConstraint,
    duplicateDefinition, invalidExtension, cyclicInheritance, ambiguousName, shadowedField,
    multipleEnumBases]

/-- The code that users see. -/
def code : Problem → Nat
  | internal => 0
  | unresolvedType => 1
  | refinementConflict => 2
  | providerNotFound => 3
  | malformedConstraint => 4
  | duplicateDefinition => 5
  | invalidExtension => 6
  | cyclicInheritance => 7
  | ambiguousName => 8
  | shadowedField => 9
  | multipleEnumBases => 10

/-- The name that users see. -/
def display : Problem → String
  | internal => "internal error"
  | unresolvedType => "unresolved type"
  | refinementConflict => "field refinement conflict"
  | providerNotFound => "constraint provider not found"
  | malformedConstraint => "malformed constraint"
  | duplicateDefinition => "duplicate definition"
  | invalidExtension => "invalid extension"
  | cyclicInheritance => "cyclic inheritance"
  | ambiguousName => "ambiguous name"
  | shadowedField => "shadowed field"
  | multipleEnumBases => "multiple enum bases"

def ofCode? (n : Nat) : Option Problem := all[n]?

end Problem

/-- A further place that a diagnostic points at. -/
structure Label where
  span : Span
  message : String
deriving DecidableEq, Inhabited

structure Diagnostic where
  problem : Problem
  severity : Severity
  span : Span
  message : String
  labels : List Label := []
  notes : List String := []
deriving DecidableEq, Inhabited

namespace Diagnostic

/-- An error without labels and notes. -/
def error (problem : Problem) (span : Span) (message : String) : Diagnostic :=
  ⟨problem, .error, span, message, [], []⟩

def isError (d : Diagnostic) : Bool := d.severity == .error

/-- Severity, kind and message on one line. -/
def display (d : Diagnostic) : String :=
  d.severity.display ++ ": " ++ d.problem.display ++ ": " ++ d.message

end Diagnostic

end SemanticSchema
