import SemanticSchema.Constraint
import SemanticSchema.Inheritance
import SemanticSchema.Unwrap

/-!
# Finding properties

The field that a path or a type means in an object type.

* `Registry.fieldOnPath` : the field at the end of a path; every field on the way must have an
  object type, perhaps behind aliases and arrays;
* `Registry.fieldOfType` : the only field of a type, or else the only one that has just that type;
* `PropertyRef.resolve` : either of them.
-/

set_option autoImplicit false

namespace SemanticSchema

/-- Why a property is not found; types are given by their names. -/
inductive PropertyError where
  | notAnObject (type : QualifiedName)
  | noSuchField (type : QualifiedName) (property : String)
  | noFieldOfType (type : QualifiedName) (fieldType : QualifiedName)
  | ambiguous (type : QualifiedName) (fieldType : QualifiedName) (candidates : List String)
deriving DecidableEq

def PropertyError.message : PropertyError → String
  | notAnObject type => type.display ++ " is not an object type"
  | noSuchField type property =>
    "Type " ++ type.display ++ " does not contain a property " ++ property
  | noFieldOfType type fieldType =>
    "Type " ++ type.display ++ " does not contain a property of type " ++ fieldType.display
  | ambiguous type fieldType candidates =>
    "Type " ++ type.display ++ " has multiple fields with type " ++ fieldType.display ++ " ("
      ++ String.intercalate ", " candidates ++ "), so the reference is ambiguous"

namespace Registry

def fieldNamed (r : Registry) (object : TypeId) (name : String) : Except PropertyError Field :=
  match r.field? object name with
  | some f => .ok f
  | none => .error (.noSuchField (r.nameOf (.user object)) name)

/-- The object type that a field leads to. -/
def objectBehind (r : Registry) (f : Field) : Except PropertyError TypeId :=
  match r.unwrapObject? f.type with
  | some object => .ok object
  | none => .error (.notAnObject (r.nameOf f.type))

/-- The field at the end of the path `part :: rest`. -/
def fieldAlong (r : Registry) (object : TypeId) (part : String) :
    List String → Except PropertyError Field
  | [] => r.fieldNamed object part
  | next :: rest => do
    let f ← r.fieldNamed object part
    let inner ← r.objectBehind f
    fieldAlong r inner next rest

/-- The field at the end of a path; an empty path leads to no field. -/
def fieldOnPath (r : Registry) (object : TypeId) (path : PropertyPath) :
    Except PropertyError Field :=
  match path.parts with
  | [] => .error (.noSuchField (r.nameOf (.user object)) "")
  | part :: rest => r.fieldAlong object part rest

/-- The fields whose type is `type` or lies below it. -/
def fieldsAssignableTo (r : Registry) (object : TypeId) (type : TypeRef) : List Field :=
  (r.allFields object).filter fun f => r.isAssignable f.type type

/-- The only field whose type is `type` or lies below it; of several such fields, the only one of
exactly that type. -/
def fieldOfType (r : Registry) (object : TypeId) (type : TypeRef) : Except PropertyError Field :=
  match r.fieldsAssignableTo object type with
  | [] => .error (.noFieldOfType (r.nameOf (.user object)) (r.nameOf type))
  | [f] => .ok f
  | several =>
    match several.filter (·.type == type) with
    | [f] => .ok f
    | _ => .error (.ambiguous (r.nameOf (.user object)) (r.nameOf type) (several.map (·.name)))

end Registry

/-- The field of an object type that a reference means. -/
def PropertyRef.resolve (r : Registry) (object : TypeId) : PropertyRef → Except PropertyError Field
  | byPath path => r.fieldOnPath object path.withoutThis
  | byType type => r.fieldOfType object type

end SemanticSchema
