import SemanticSchema.Declared
import SemanticSchema.Span
import SemanticSchema.TypeRef

/-!
# Enums

Types with named members, and the extensions that decorate the members.

* `EnumMember.ofName` : a member is named in the namespace that its enum's name spells, and its
  value is its name unless another is given;
* `EnumType.members` : the members as extended. Annotations, synonyms and doc texts of extensions
  come behind the member's own;
* `EnumType.extend` : adds an extension, unless the enum is undefined or lacks a member that the
  extension names.
-/

set_option autoImplicit false

namespace SemanticSchema

structure EnumMember where
  name : String
  value : Literal
  qualified : QualifiedName
  annotations : List AnnotationUse := []
  synonyms : List QualifiedName := []
  doc : Option String := none
  isDefault : Bool := false
deriving Inhabited

/-- The bare member of some name, with the value given or else its name. -/
def EnumMember.ofName (enumName : QualifiedName) (name : String) (value : Option Literal) :
    EnumMember where
  name := name
  value := value.getD (.text name)
  qualified := .ofParts enumName.qualified name

structure EnumDefinition where
  members : List EnumMember
  annotations : List AnnotationUse := []
  basicType : Primitive := .string
  lenient : Bool := false
  inherits : List TypeRef := []
  doc : Option String := none
  span : Span := .unknown
deriving Inhabited

/-- A definition in which repeated supertypes count once. -/
def EnumDefinition.ofParts (members : List EnumMember) (annotations : List AnnotationUse)
    (basicType : Option Primitive) (lenient : Bool) (inherits : List TypeRef) (doc : Option String)
    (span : Span) : EnumDefinition :=
  ⟨members, annotations, basicType.getD .string, lenient, inherits.eraseDups, doc, span⟩

instance : Documented EnumDefinition := ⟨(·.annotations), (·.doc)⟩

/-- What an extension adds to the member of some name. -/
structure MemberExtension where
  name : String
  annotations : List AnnotationUse := []
  synonyms : List QualifiedName := []
  doc : Option String := none
deriving Inhabited

structure EnumExtension where
  members : List MemberExtension := []
  annotations : List AnnotationUse := []
  doc : Option String := none
  span : Span := .unknown
deriving Inhabited

instance : Documented EnumExtension := ⟨(·.annotations), (·.doc)⟩

abbrev EnumType := Declared EnumDefinition EnumExtension

/-- Why an enum refuses an extension. -/
inductive EnumRefusal where
  | undefined (enumName : QualifiedName)
  | newMembers (members : List String) (enumName : QualifiedName)
deriving DecidableEq

def EnumRefusal.message : EnumRefusal → String
  | undefined enumName => "Cannot extend enum " ++ enumName.display ++ " as it is not defined"
  | newMembers members enumName =>
    "Cannot modify the members in an enum. An extension attempted to add new members "
      ++ String.intercalate ", " members ++ " to " ++ enumName.display

namespace EnumType

/-- What the extensions add to the member of some name, in order. -/
def memberExtensions (t : EnumType) (name : String) : List MemberExtension :=
  (t.extensions.flatMap (·.members)).filter (·.name == name)

/-- A member as the extensions make it. -/
def mergeMember (t : EnumType) (m : EnumMember) : EnumMember :=
  let added := t.memberExtensions m.name
  { m with
    annotations := m.annotations ++ added.flatMap (·.annotations)
    synonyms := m.synonyms ++ added.flatMap (·.synonyms)
    doc := match m.doc.toList ++ added.filterMap (·.doc) with
      | [] => none
      | texts => some (String.intercalate "\n" texts) }

def declaredMembers (t : EnumType) : List EnumMember :=
  match t.definition with
  | none => []
  | some d => d.members

/-- The members as the extensions make them. -/
def members (t : EnumType) : List EnumMember := t.declaredMembers.map t.mergeMember

def memberNames (t : EnumType) : List String := t.members.map (·.name)

/-- Whether lookups ignore letter case. -/
def isLenient (t : EnumType) : Bool :=
  match t.definition with
  | none => false
  | some d => d.lenient

def basicType? (t : EnumType) : Option Primitive := t.definition.map (·.basicType)

/-- The first member that is marked as the default. -/
def defaultMember? (t : EnumType) : Option EnumMember := t.members.find? (·.isDefault)

/-- Adds an extension that names only members of the enum. -/
def extend (t : EnumType) (e : EnumExtension) : Except EnumRefusal EnumType :=
  match t.definition with
  | none => .error (.undefined t.name)
  | some d =>
    match e.members.filter fun x => !d.members.any (·.name == x.name) with
    | [] => .ok (t.addExtension e)
    | added => .error (.newMembers (added.map (·.name)) t.name)

end EnumType

end SemanticSchema
