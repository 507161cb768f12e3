import SemanticSchema.Supertypes

/-!
# Inherited fields

The fields that an object type has from the types above it.

* `Registry.inheritedFields`, `Registry.allFields` : the fields from above, and with the own ones
  behind them;
* `Registry.field?` : the first of all fields that has some name;
* `Registry.shadowedFields` : the own fields that repeat the name of an inherited one.
-/

set_option autoImplicit false

namespace SemanticSchema.Registry

/-- The own fields of an object type, as its extensions make them. -/
def ownFields (r : Registry) (id : TypeId) : List Field :=
  match r.object? id with
  | some t => ObjectType.fields t
  | none => []

/-- The fields of the object types above, in the order of the walk. -/
def inheritedFields (r : Registry) (id : TypeId) : List Field :=
  ((r.supertypes (.user id)).filterMap (·.userId?)).flatMap r.ownFields

/-- The inherited fields, then the own ones. -/
def allFields (r : Registry) (id : TypeId) : List Field := r.inheritedFields id ++ r.ownFields id

def field? (r : Registry) (id : TypeId) (name : String) : Option Field :=
  (r.allFields id).find? (·.name == name)

def hasField (r : Registry) (id : TypeId) (name : String) : Bool := (r.field? id name).isSome

/-- The own fields that repeat the name of an inherited one. -/
def shadowedFields (r : Registry) (id : TypeId) : List Field :=
  let inherited := (r.inheritedFields id).map (·.name)
  (r.ownFields id).filter fun f => inherited.contains f.name

end SemanticSchema.Registry
