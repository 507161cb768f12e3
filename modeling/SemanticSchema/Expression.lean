import SemanticSchema.Literal
import SemanticSchema.Path
import SemanticSchema.Span
import SemanticSchema.TypeRef

/-!
# Typed expressions

Expressions arrive with their types; here they are kept, inspected and spelled.

* `Operator` : the comparisons and their symbols;
* `Expression` : literals, types, properties and comparisons, each with its type and its place;
* `Expression.compare` : a comparison is boolean and lies where its sides lie;
* `Expression.source` : the text in schema source, given the spelling of types.
-/

set_option autoImplicit false

namespace SemanticSchema

inductive Operator where
  | equal
  | notEqual
  | greaterThan
  | lessThan
  | greaterThanOrEqual
  | lessThanOrEqual
deriving DecidableEq, Inhabited

namespace Operator

def symbol : Operator → String
  | equal => "=="
  | notEqual => "!="
  | greaterThan => ">"
  | lessThan => "<"
  | greaterThanOrEqual => ">="
  | lessThanOrEqual => "<="

/-- Reads a symbol; equality may be written with one sign. -/
def parse? (token : String) : Option Operator :=
  if token = "=" ∨ token = "==" then some equal
  else if token = "!=" then some notEqual
  else if token = ">" then some greaterThan
  else if token = "<" then some lessThan
  else if token = ">=" then some greaterThanOrEqual
  else if token = "<=" then some lessThanOrEqual
  else none

end Operator

/-- An expression with the type of its value and its place in the source. -/
inductive Expression where
  | literal (value : Literal) (returns : TypeRef) (span : Span)
  | type (ref : TypeRef) (returns : TypeRef) (span : Span)
  | property (path : PropertyPath) (returns : TypeRef) (span : Span)
  | comparison (lhs : Expression) (operator : Operator) (rhs : Expression) (returns : TypeRef)
      (span : Span)
deriving DecidableEq, Inhabited

namespace Expression

def returns : Expression → TypeRef
  | literal _ r _ | type _ r _ | property _ r _ | comparison _ _ _ r _ => r

def span : Expression → Span
  | literal _ _ s | type _ _ s | property _ _ s | comparison _ _ _ _ s => s

/-- The same expression with another type. -/
def returning (r : TypeRef) : Expression → Expression
  | literal v _ s => literal v r s
  | type t _ s => type t r s
  | property p _ s => property p r s
  | comparison a o b _ s => comparison a o b r s

/-- The same expression at another place. -/
def located (s : Span) : Expression → Expression
  | literal v r _ => literal v r s
  | type t r _ => type t r s
  | property p r _ => property p r s
  | comparison a o b r _ => comparison a o b r s

/-- A boolean comparison, placed where its sides are. -/
def compare (lhs : Expression) (operator : Operator) (rhs : Expression) : Expression :=
  comparison lhs operator rhs (.primitive .boolean) (lhs.span.merge rhs.span)

/-- A type used as an expression; its value has that type. -/
def ofType (ref : TypeRef) : Expression := type ref ref .unknown

/-- Whether the value is boolean. -/
def isBoolean (e : Expression) : Bool := e.returns == .primitive .boolean

/-- The text in schema source, types being spelled by `spell`. -/
def source (spell : TypeRef → String) : Expression → String
  | literal value _ _ => value.source
  | type ref _ _ => spell ref
  | property path _ _ => path.display
  | comparison lhs operator rhs _ _ =>
    lhs.source spell ++ " " ++ operator.symbol ++ " " ++ rhs.source spell

end Expression

end SemanticSchema
