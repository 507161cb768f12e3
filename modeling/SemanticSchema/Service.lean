import SemanticSchema.AnnotationUse
import SemanticSchema.Constraint

/-!
# Services

Services and their operations, with the constraints on parameters and results.

* `Operation.parameter?` : the first parameter of some name;
* `Service.operation?` : the first operation of some name;
* `Service.find?`, `Service.put` : services kept in a list, each under its name.
-/

set_option autoImplicit false

namespace SemanticSchema

/-- A parameter of an operation; its name may be left out. -/
structure Parameter where
  name : Option String
  type : TypeRef
  annotations : List AnnotationUse := []
  constraints : List Constraint := []
  nullable : Bool := false
  span : Span := .unknown
deriving Inhabited

/-- What an operation promises of its result. -/
structure Contract where
  returns : TypeRef
  constraints : List Constraint
deriving Inhabited

structure Operation where
  name : String
  scope : Option String := none
  annotations : List AnnotationUse := []
  params : List Parameter := []
  returns : TypeRef
  contract : Option Contract := none
  doc : Option String := none
  span : Span := .unknown
deriving Inhabited

/-- The first parameter of some name. -/
def Operation.parameter? (o : Operation) (name : String) : Option Parameter :=
  o.params.find? (·.name == some name)

structure Service where
  name : QualifiedName
  operations : List Operation := []
  annotations : List AnnotationUse := []
  doc : Option String := none
  span : Span := .unknown
deriving Inhabited

namespace Service

/-- The first operation of some name. -/
def operation? (s : Service) (name : String) : Option Operation :=
  s.operations.find? (·.name == name)

/-- Adds an operation behind the others. -/
def addOperation (s : Service) (o : Operation) : Service :=
  { s with operations := s.operations ++ [o] }

def find? (services : List Service) (name : QualifiedName) : Option Service :=
  List.find? (fun s => s.name == name) services

/-- Stores a service under its name: in the place of the one that bore it, or at the end. -/
def put (service : Service) : List Service → List Service
  | [] => [service]
  | s :: ss => if s.name = service.name then service :: ss else s :: put service ss

end Service

end SemanticSchema
