import SemanticSchema.Inheritance

/-!
# Referenced types

* `Registry.referencedTypes` : the other user types that a type names, once each: its supertypes,
  then the types of its own fields, then the target of an alias, the last two behind their array
  layers.
-/

set_option autoImplicit false

namespace SemanticSchema.Registry

/-- The references that a type names, in order. -/
def namedReferences (r : Registry) (id : TypeId) : List TypeRef :=
  r.directSupertypes (.user id) ++ (r.ownFields id).map (·.type.member)
    ++ ((r.typeAlias? id).bind (·.target?)).toList.map (·.member)

/-- The other user types that a type names, once each. -/
def referencedTypes (r : Registry) (id : TypeId) : List TypeId :=
  (((r.namedReferences id).filterMap (·.userId?)).filter (· ≠ id)).eraseDups

end SemanticSchema.Registry
