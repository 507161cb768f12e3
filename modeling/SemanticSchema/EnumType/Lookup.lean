import SemanticSchema.EnumType
import SemanticSchema.Text.Lowercase

/-!
# Looking up enum members

A member is found by its name, or by the bare text of its value. A lenient enum compares lower-case
forms. When nothing matches, the default member answers, if there is one.

* `EnumType.matchesText` : how two texts are compared;
* `EnumType.ofName`, `EnumType.ofValue`, `EnumType.ofToken` : the member, or why there is none;
* `EnumType.hasExplicitValue`, `EnumType.resolvesToDefault` : whether a member matches by itself.
-/

set_option autoImplicit false

namespace SemanticSchema

/-- Why a lookup finds no member. -/
inductive EnumLookupError where
  | noSuchName (enumName : QualifiedName) (name : String)
  | noSuchValue (enumName : QualifiedName) (value : String)
  | noSuchNameOrValue (enumName : QualifiedName) (token : String)
deriving DecidableEq

def EnumLookupError.message : EnumLookupError → String
  | noSuchName e name => "Enum " ++ e.display ++ " does not contain a member named " ++ name
  | noSuchValue e value =>
    "Enum " ++ e.display ++ " does not contain a member with a value of " ++ value
  | noSuchNameOrValue e token =>
    "Enum " ++ e.display ++ " does not contain either a name nor a value of " ++ token

namespace EnumType

/-- Compares a name or value with the text asked for. -/
def matchesText (t : EnumType) (candidate requested : String) : Bool :=
  if t.isLenient then Text.lowercase candidate == Text.lowercase requested
  else candidate == requested

def matchesName (t : EnumType) (name : String) (m : EnumMember) : Bool :=
  t.matchesText m.name name

def matchesValue (t : EnumType) (value : String) (m : EnumMember) : Bool :=
  t.matchesText m.value.display value

def matchesToken (t : EnumType) (token : String) (m : EnumMember) : Bool :=
  t.matchesValue token m || t.matchesName token m

/-- The first member that is chosen, or else the default member. -/
def lookup? (t : EnumType) (chosen : EnumMember → Bool) : Option EnumMember :=
  (t.members.find? chosen).or t.defaultMember?

def ofName (t : EnumType) (name : String) : Except EnumLookupError EnumMember :=
  match t.lookup? (t.matchesName name) with
  | some m => .ok m
  | none => .error (.noSuchName t.name name)

/-- The member whose value has some text. -/
def ofValue (t : EnumType) (value : String) : Except EnumLookupError EnumMember :=
  match t.lookup? (t.matchesValue value) with
  | some m => .ok m
  | none => .error (.noSuchValue t.name value)

/-- The first member whose name or value has some text. -/
def ofToken (t : EnumType) (token : String) : Except EnumLookupError EnumMember :=
  match t.lookup? (t.matchesToken token) with
  | some m => .ok m
  | none => .error (.noSuchNameOrValue t.name token)

def hasName (t : EnumType) (name : String) : Bool := (t.ofName name).isOk

def hasValue (t : EnumType) (value : String) : Bool := (t.ofValue value).isOk

def has (t : EnumType) (token : String) : Bool := (t.ofToken token).isOk

/-- Whether the value of some member has a text, the default aside. -/
def hasExplicitValue (t : EnumType) (value : String) : Bool := t.members.any (t.matchesValue value)

/-- Whether only the default member answers to a text. -/
def resolvesToDefault (t : EnumType) (token : String) : Bool :=
  !t.members.any (t.matchesToken token) && t.members.any (·.isDefault)

end EnumType

end SemanticSchema
