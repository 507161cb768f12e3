import SemanticSchema.EnumType
import SemanticSchema.Unwrap

/-!
# Base enums

An enum that inherits from another has the members of its base: the one enum among itself and the
enums above it that names no enum as a supertype.

* `Registry.enumRoots` : the enums at and above an enum that name no enum as a supertype;
* `Registry.baseEnum?` : the only such root; the enum itself if there is none, as on a cycle;
* `Registry.enumMembers` : the members of the base.
-/

set_option autoImplicit false

namespace SemanticSchema.Registry

def isEnum (r : Registry) (id : TypeId) : Bool := (r.enum? id).isSome

/-- Whether a type names an enum, or an alias of one, as a supertype. -/
def inheritsEnum (r : Registry) (id : TypeId) : Bool :=
  (r.directSupertypes (.user id)).any fun s => (r.underlying s).userId?.any r.isEnum

/-- The enums at and above an enum that name no enum as a supertype. -/
def enumRoots (r : Registry) (id : TypeId) : List TypeId :=
  if r.isEnum id then
    (id :: (r.supertypes (.user id)).filterMap (·.userId?)).filter fun x =>
      r.isEnum x && !r.inheritsEnum x
  else []

/-- The enum whose members an enum has; there is none when several are above it. -/
def baseEnum? (r : Registry) (id : TypeId) : Option TypeId :=
  match r.enumRoots id with
  | [root] => some root
  | [] => if r.isEnum id then some id else none
  | _ => none

/-- The members of the base, as its extensions make them. -/
def enumMembers (r : Registry) (id : TypeId) : List EnumMember :=
  match (r.baseEnum? id).bind r.enum? with
  | some t => EnumType.members t
  | none => []

end SemanticSchema.Registry
