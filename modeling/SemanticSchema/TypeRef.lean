import SemanticSchema.Name

/-!
# Type references

What fields, parameters and aliases point at.

* `Primitive` : the built-in scalar types; `Primitive.ofName?` reads one from a name;
* `TypeId` : the number of a user type in a registry;
* `TypeRef` : a built-in, an array, a user type, or an imported type that is defined elsewhere;
* `TypeRef.member` : the type behind all array layers.
-/

set_option autoImplicit false

namespace SemanticSchema

/-- The built-in scalar types. -/
inductive Primitive where
  | boolean
  | string
  | int
  | decimal
  | double
  | date
  | time
  | dateTime
  | instant
  | any
deriving DecidableEq, Inhabited

namespace Primitive

def all : List Primitive :=
  [boolean, string, int, decimal, double, date, time, dateTime, instant, any]

def simpleName : Primitive → String
  | boolean => "Boolean"
  | string => "String"
  | int => "Int"
  | decimal => "Decimal"
  | double => "Double"
  | date => "Date"
  | time => "Time"
  | dateTime => "DateTime"
  | instant => "Instant"
  | any => "Any"

/-- The name in the namespace of the built-ins. -/
def name (p : Primitive) : QualifiedName :=
  .ofParts QualifiedName.builtinNamespace p.simpleName

/-- The built-in scalar that a name means. -/
def ofName? (n : QualifiedName) : Option Primitive :=
  all.find? fun p => n.isBuiltin p.simpleName

end Primitive

/-- The number of a user type: its place in the registry. A number has 32 bits, so registries of
fewer than `2 ^ 32` records are meant. -/
structure TypeId where
  slot : Nat
deriving DecidableEq, Inhabited

/-- The text that stands for a user type without a record. -/
def TypeId.display (id : TypeId) : String := "#" ++ toString id.slot

inductive TypeRef where
  | primitive (p : Primitive)
  | void
  | array (member : TypeRef)
  | user (id : TypeId)
  | imported (name : QualifiedName)
deriving DecidableEq, Inhabited

namespace TypeRef

def voidName : String := "Void"

def arrayName : String := "Array"

/-- The user type that is referred to directly. -/
def userId? : TypeRef → Option TypeId
  | user id => some id
  | _ => none

theorem userId?_eq_some_iff {t : TypeRef} {id : TypeId} : t.userId? = some id ↔ t = .user id := by
  cases t <;> simp [userId?]

theorem mem_userIds_iff {ts : List TypeRef} {id : TypeId} : id ∈ ts.filterMap (·.userId?) ↔ .user id ∈ ts := by
  simp only [List.mem_filterMap, userId?_eq_some_iff, exists_eq_right]

def isArray : TypeRef → Bool
  | array _ => true
  | _ => false

/-- The type behind all array layers. -/
def member : TypeRef → TypeRef
  | array m => m.member
  | t => t

theorem member_member (t : TypeRef) : t.member.member = t.member := by
  induction t using member.induct with
  | case1 m ih => exact ih
  | case2 t hleaf => rw [member.eq_2 t hleaf, member.eq_2 t hleaf]

end TypeRef

end SemanticSchema
