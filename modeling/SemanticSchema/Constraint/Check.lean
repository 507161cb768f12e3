import SemanticSchema.Constraint.Property
import SemanticSchema.Service

/-!
# Checking constraints

A constraint is checked against the finished model: the properties that it names must exist, and a
path from a parameter must start at a parameter of the operation.

* `ConstraintTarget`, `ConstraintSite` : what is constrained, and where the constraint stands;
* `Registry.parameterPathError?` : what is wrong with a path from a parameter;
* `Malformation` : why a constraint is malformed;
* `Registry.comparisonFaults`, `Registry.derivationFaults`, `Registry.constantFaults` : the faults
  of a constraint of each form. A target of an imported type is left to the schema that defines it.
-/

set_option autoImplicit false

namespace SemanticSchema

/-! ## Targets and sites -/

/-- What is constrained. -/
inductive ConstraintTarget where
  | field (f : Field)
  | parameter (p : Parameter)
  | contract (c : Contract)
deriving Inhabited

namespace ConstraintTarget

/-- What messages call the target. -/
def describe (spell : TypeRef → String) : ConstraintTarget → String
  | field f => "field " ++ f.name
  | parameter p =>
    match p.name with
    | some name => "param " ++ name
    | none => "unnamed param"
  | contract c => "Operation returning " ++ spell c.returns

def constraints : ConstraintTarget → List Constraint
  | field f => f.constraints
  | parameter p => p.constraints
  | contract c => c.constraints

def type : ConstraintTarget → TypeRef
  | field f => f.type
  | parameter p => p.type
  | contract c => c.returns

end ConstraintTarget

/-- Where a constraint stands. -/
inductive ConstraintSite where
  | field (owner : TypeId)
  | parameter (operation : Operation)
  | returnContract (operation : Operation)
deriving Inhabited

/-! ## Paths from parameters -/

/-- What is wrong with a path from a parameter. -/
inductive ParameterPathError where
  | empty
  | unknownParameter (operation : String) (parameter : String)
  | noProperties (parameter : String) (type : QualifiedName)
  | property (e : PropertyError)
deriving DecidableEq

def ParameterPathError.message : ParameterPathError → String
  | empty => "the path is empty"
  | unknownParameter operation parameter =>
    "operation " ++ operation ++ " does not declare a parameter named " ++ parameter
  | noProperties parameter type =>
    "parameter " ++ parameter ++ " has type " ++ type.display ++ ", which has no properties"
  | property e => e.message

/-- What is wrong with a path from a parameter of an operation, if anything. -/
def Registry.parameterPathError? (r : Registry) (o : Operation) (path : PropertyPath) :
    Option ParameterPathError :=
  match path.parts with
  | [] => some .empty
  | head :: rest =>
    match o.parameter? head with
    | none => some (.unknownParameter o.name head)
    | some p =>
      if rest.isEmpty then none
      else match r.unwrapObject? p.type with
        | none => some (.noProperties head (r.nameOf p.type))
        | some object =>
          match r.fieldOnPath object ⟨rest⟩ with
          | .ok _ => none
          | .error e => some (.property e)

/-! ## Malformed constraints -/

inductive Malformation where
  | property (e : PropertyError)
  | parameterPath (e : ParameterPathError)
  | uncheckable (subject : String)
  | notOnObject
  | relativeOutsideContract
  | derivedOutsideContract
deriving DecidableEq

def Malformation.message : Malformation → String
  | property e => e.message
  | parameterPath e => e.message
  | uncheckable subject =>
    subject ++ " cannot be checked, as constraints are only supported on object types"
  | notOnObject => "constraints are only supported on object types"
  | relativeOutsideContract =>
    "relative values are only supported on an operation's return contract"
  | derivedOutsideContract =>
    "a derived value can only be declared on an operation's return contract"

def Malformation.toDiagnostic (r : Registry) (c : Constraint) (target : ConstraintTarget)
    (reason : Malformation) : Diagnostic :=
  .error .malformedConstraint c.span
    ("Constraint `" ++ c.source r.spell ++ "` on " ++ target.describe r.spell ++ " type "
      ++ r.spell target.type ++ " is malformed: " ++ reason.message)

namespace Registry

/-- The faults of a property that is to be found in a type; `otherwise` is the fault of a type that
is no object type. -/
def propertyFaults (r : Registry) (target : TypeRef) (subject : PropertyRef)
    (otherwise : Malformation) : List Malformation :=
  match r.unwrapObject? target with
  | none => [otherwise]
  | some object =>
    match subject.resolve r object with
    | .ok _ => []
    | .error e => [.property e]

def expectedFaults (r : Registry) (site : ConstraintSite) : Expected → List Malformation
  | .constant _ => []
  | .relative path =>
    match site with
    | .returnContract o => ((r.parameterPathError? o path).map .parameterPath).toList
    | _ => [.relativeOutsideContract]

/-- The faults of a comparison of a property; a target of an imported type is not looked into. -/
def comparisonFaults (r : Registry) (site : ConstraintSite) (target : TypeRef)
    (subject : PropertyRef) (expected : Expected) : List Malformation :=
  if r.isExternal target then []
  else r.propertyFaults target subject (.uncheckable (subject.describe r.spell))
    ++ r.expectedFaults site expected

def derivationFaults (r : Registry) (site : ConstraintSite) (path : PropertyPath) :
    List Malformation :=
  match site with
  | .returnContract o => ((r.parameterPathError? o path).map .parameterPath).toList
  | _ => [.derivedOutsideContract]

/-- The faults of a constant for a field; a target of an imported type is not looked into. -/
def constantFaults (r : Registry) (target : TypeRef) (subject : PropertyRef) : List Malformation :=
  if r.isExternal target then [] else r.propertyFaults target subject .notOnObject

end Registry

end SemanticSchema
