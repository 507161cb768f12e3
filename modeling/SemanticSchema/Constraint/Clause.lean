import SemanticSchema.Constraint

/-!
# Constraint clauses

Constraints as they are written, before the names of types in them are resolved.

* `Clause` : the forms in which a constraint can be written;
* `ClauseShape` : the form alone, which decides who may build the constraint.
-/

set_option autoImplicit false

namespace SemanticSchema

/-- The property that a comparison is about: a path from `this`, or a type. -/
inductive ComparedProperty where
  | thisPath (path : PropertyPath)
  | typeNamed (name : QualifiedName)
deriving DecidableEq, Inhabited

/-- The field that a constant is given for: by its name, or by its type. -/
inductive ConstantSubject where
  | fieldNamed (field : String)
  | typeNamed (name : QualifiedName)
deriving DecidableEq, Inhabited

/-- A constraint as written. -/
inductive Clause where
  | comparison (property : ComparedProperty) (operator : Operator) (expected : Expected)
      (span : Span)
  | constant (subject : ConstantSubject) (value : Literal) (span : Span)
  | derivedFrom (path : PropertyPath) (span : Span)
  | expression (body : Expression)
deriving DecidableEq, Inhabited

inductive ClauseShape where
  | comparison
  | constant
  | derivedFrom
  | expression
deriving DecidableEq, Inhabited

/-- What messages call a form. -/
def ClauseShape.display : ClauseShape → String
  | comparison => "property comparison"
  | constant => "constant value"
  | derivedFrom => "derived value"
  | expression => "expression"

namespace Clause

def shape : Clause → ClauseShape
  | comparison .. => .comparison
  | constant .. => .constant
  | derivedFrom .. => .derivedFrom
  | expression _ => .expression

def span : Clause → Span
  | comparison _ _ _ s | constant _ _ s | derivedFrom _ s => s
  | expression body => body.span

end Clause

end SemanticSchema
