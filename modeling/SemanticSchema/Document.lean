import SemanticSchema.EnumBase
import SemanticSchema.Inheritance
import SemanticSchema.Service

/-!
# Finished documents

A finished schema, to be read by name.

* `Document.lookup` : the defined type of some name;
* `Document.object`, `Document.enum`, `Document.typeAlias`, `Document.annotationType` : a type of
  some name and kind;
* `Document.baseEnum`, `Document.enumMembers` : the enum whose members an enum has;
* `Document.allFields`, `Document.field` : the fields of an object type, inherited ones included;
* `Document.service`, `Document.operation?`.
-/

set_option autoImplicit false

namespace SemanticSchema

/-- The types and services of a finished schema. -/
structure Document where
  registry : Registry
  services : List Service
deriving Inhabited

/-- Why a document has no answer. -/
inductive DocumentError where
  | notFound (name : QualifiedName)
  | wrongKind (name : QualifiedName) (expected actual : TypeKind)
  | serviceNotFound (name : QualifiedName)
  | multipleEnumBases (name : QualifiedName)
  | noSuchField (name : QualifiedName) (field : String)
deriving DecidableEq

def DocumentError.message : DocumentError → String
  | notFound name => "type " ++ name.display ++ " is not present in this document"
  | wrongKind name expected actual =>
    "type " ++ name.display ++ " is a " ++ actual.display ++ ", not a " ++ expected.display
  | serviceNotFound name => "service " ++ name.display ++ " is not present in this document"
  | multipleEnumBases name =>
    "enum " ++ name.display ++ " inherits from more than one base enum"
  | noSuchField name field => "type " ++ name.display ++ " has no field named " ++ field

namespace Document

/-- The document of a registry with services stored one after another, each under its name. -/
def ofServices (registry : Registry) (services : List Service) : Document :=
  ⟨registry, services.foldl (fun stored s => Service.put s stored) []⟩

/-! ## Types -/

/-- The defined types, in the order of their slots. -/
def types (d : Document) : List Record := d.registry.definedSlots.map (·.2)

/-- The defined type of some name, with its slot. -/
def lookup (d : Document) (name : QualifiedName) : Except DocumentError (TypeId × TypeBody) :=
  match d.registry.idOf? name with
  | none => .error (.notFound name)
  | some id =>
    match d.registry.get? id with
    | none => .error (.notFound name)
    | some x => if x.isDefined then .ok (id, x.body) else .error (.notFound name)

def containsType (d : Document) (name : QualifiedName) : Bool := (d.lookup name).isOk

def typeRef (d : Document) (name : QualifiedName) : Except DocumentError TypeRef :=
  (d.lookup name).map fun found => .user found.1

def nameOf (d : Document) (t : TypeRef) : QualifiedName := d.registry.nameOf t

/-- The object type of some name, with its slot. -/
def objectSlot (d : Document) (name : QualifiedName) : Except DocumentError (TypeId × ObjectType) :=
  match d.lookup name with
  | .ok (id, .object t) => .ok (id, t)
  | .ok (_, body) => .error (.wrongKind name .object body.kind)
  | .error e => .error e

def object (d : Document) (name : QualifiedName) : Except DocumentError ObjectType :=
  (d.objectSlot name).map (·.2)

def enumSlot (d : Document) (name : QualifiedName) : Except DocumentError (TypeId × EnumType) :=
  match d.lookup name with
  | .ok (id, .enum t) => .ok (id, t)
  | .ok (_, body) => .error (.wrongKind name .enum body.kind)
  | .error e => .error e

def enum (d : Document) (name : QualifiedName) : Except DocumentError EnumType :=
  (d.enumSlot name).map (·.2)

def typeAlias (d : Document) (name : QualifiedName) : Except DocumentError TypeAlias :=
  match d.lookup name with
  | .ok (_, .typeAlias t) => .ok t
  | .ok (_, body) => .error (.wrongKind name .typeAlias body.kind)
  | .error e => .error e

def annotationType (d : Document) (name : QualifiedName) : Except DocumentError AnnotationType :=
  match d.lookup name with
  | .ok (_, .annotationType t) => .ok t
  | .ok (_, body) => .error (.wrongKind name .annotationType body.kind)
  | .error e => .error e

/-! ## Members and fields -/

/-- The enum whose members the enum of some name has. -/
def baseEnum (d : Document) (name : QualifiedName) : Except DocumentError EnumType :=
  (d.enumSlot name).bind fun found =>
    match (d.registry.baseEnum? found.1).bind d.registry.enum? with
    | some t => .ok t
    | none => .error (.multipleEnumBases name)

/-- The members of the base enum. -/
def enumMembers (d : Document) (name : QualifiedName) : Except DocumentError (List EnumMember) :=
  (d.baseEnum name).map EnumType.members

/-- The fields of an object type, the inherited ones first. -/
def allFields (d : Document) (name : QualifiedName) : Except DocumentError (List Field) :=
  (d.objectSlot name).map fun found => d.registry.allFields found.1

def field (d : Document) (name : QualifiedName) (field : String) : Except DocumentError Field :=
  (d.objectSlot name).bind fun found =>
    match d.registry.field? found.1 field with
    | some f => .ok f
    | none => .error (.noSuchField name field)

def hasField (d : Document) (name : QualifiedName) (field : String) : Bool :=
  (d.field name field).isOk

/-! ## Services -/

def service (d : Document) (name : QualifiedName) : Except DocumentError Service :=
  match Service.find? d.services name with
  | some s => .ok s
  | none => .error (.serviceNotFound name)

def containsService (d : Document) (name : QualifiedName) : Bool :=
  (Service.find? d.services name).isSome

def operation? (d : Document) (service : QualifiedName) (operation : String) : Option Operation :=
  (Service.find? d.services service).bind (·.operation? operation)

end Document

end SemanticSchema
