import SemanticSchema.Diagnostic
import SemanticSchema.Expression

/-!
# Constraints

What a schema demands of the values of a field, a parameter or a result.

* `PropertyRef` : a property, named by a path or by its type;
* `Expected` : a constant, or the value found along a path from a parameter;
* `Constraint` : the forms of constraint; `Constraint.source` spells them;
* `Constraint.toProperty` : the property form of a comparison of a type with a literal.
-/

set_option autoImplicit false

namespace SemanticSchema

/-- A property of the constrained value. -/
inductive PropertyRef where
  | byPath (path : PropertyPath)
  | byType (type : TypeRef)
deriving DecidableEq, Inhabited

namespace PropertyRef

def source (spell : TypeRef → String) : PropertyRef → String
  | byPath path => "this." ++ path.withoutThis.display
  | byType type => spell type

/-- What messages call the property. -/
def describe (spell : TypeRef → String) : PropertyRef → String
  | byPath path => "field " ++ path.withoutThis.display
  | byType type => "type " ++ spell type

end PropertyRef

/-- The value that a property is compared with. -/
inductive Expected where
  | constant (value : Literal)
  | relative (path : PropertyPath)
deriving DecidableEq, Inhabited

def Expected.source : Expected → String
  | constant value => value.source
  | relative path => path.display

/-- A constraint with its place in the source. -/
inductive Constraint where
  | expression (body : Expression) (span : Span)
  | property (subject : PropertyRef) (operator : Operator) (expected : Expected) (span : Span)
  | derivedFrom (path : PropertyPath) (span : Span)
  | namedConstant (field : String) (value : Literal) (span : Span)
  | typedConstant (type : TypeRef) (value : Literal) (span : Span)
deriving DecidableEq, Inhabited

namespace Constraint

def span : Constraint → Span
  | expression _ s | property _ _ _ s | derivedFrom _ s | namedConstant _ _ s
  | typedConstant _ _ s => s

/-- The text in schema source, types being spelled by `spell`. -/
def source (spell : TypeRef → String) : Constraint → String
  | expression body _ => body.source spell
  | property subject operator expected _ =>
    subject.source spell ++ " " ++ operator.symbol ++ " " ++ expected.source
  | derivedFrom path _ => "from " ++ path.display
  | namedConstant field value _ => field ++ " = " ++ value.source
  | typedConstant type value _ => spell type ++ " = " ++ value.source

/-- The property form of a constraint that compares a type with a literal; every other constraint
has none. -/
def toProperty : Constraint → Except Diagnostic Constraint
  | expression (.comparison (.type ref _ _) operator (.literal value _ _) _ _) s =>
    .ok (property (.byType ref) operator (.constant value) s)
  | c => .error (.error .malformedConstraint c.span
    "Only expressions of the form `Type <op> literal` can be converted to a property constraint")

end Constraint

end SemanticSchema
