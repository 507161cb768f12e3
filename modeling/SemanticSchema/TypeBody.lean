import SemanticSchema.EnumType
import SemanticSchema.ObjectType

/-!
# User types

The four kinds of user type, their definitions and their extensions.

* `TypeAlias`, `AnnotationType` : the two kinds without fields or members to merge;
* `TypeKind` : the kinds and the words that messages use for them;
* `TypeBody`, `TypeDefinition`, `TypeExtension` : a type, a definition, or an extension, of some
  kind.
-/

set_option autoImplicit false

namespace SemanticSchema

/-! ## Aliases and annotation types -/

structure AliasDefinition where
  target : TypeRef
  annotations : List AnnotationUse := []
  doc : Option String := none
  span : Span := .unknown
deriving Inhabited

instance : Documented AliasDefinition := ⟨(·.annotations), (·.doc)⟩

structure AliasExtension where
  annotations : List AnnotationUse := []
  doc : Option String := none
  span : Span := .unknown
deriving Inhabited

instance : Documented AliasExtension := ⟨(·.annotations), (·.doc)⟩

/-- Another name for a type. -/
abbrev TypeAlias := Declared AliasDefinition AliasExtension

/-- The type that an alias stands for. -/
def TypeAlias.target? (t : TypeAlias) : Option TypeRef := t.definition.map (·.target)

/-- The definition of an annotation type; repeated fields are kept. -/
structure AnnotationTypeDefinition where
  fields : List Field
  annotations : List AnnotationUse := []
  doc : Option String := none
  span : Span := .unknown
deriving Inhabited

instance : Documented AnnotationTypeDefinition := ⟨(·.annotations), (·.doc)⟩

/-- A type of annotations; it has no extensions. -/
abbrev AnnotationType := Declared AnnotationTypeDefinition Empty

def AnnotationType.fields (t : AnnotationType) : List Field :=
  match t.definition with
  | none => []
  | some d => d.fields

/-! ## Types of any kind -/

inductive TypeKind where
  | object
  | enum
  | typeAlias
  | annotationType
deriving DecidableEq, Inhabited

/-- What messages call a kind. -/
def TypeKind.display : TypeKind → String
  | object => "object type"
  | enum => "enum"
  | typeAlias => "type alias"
  | annotationType => "annotation type"

inductive TypeBody where
  | object (t : ObjectType)
  | enum (t : EnumType)
  | typeAlias (t : TypeAlias)
  | annotationType (t : AnnotationType)
deriving Inhabited

namespace TypeBody

def name : TypeBody → QualifiedName
  | object t => t.name
  | enum t => t.name
  | typeAlias t => t.name
  | annotationType t => t.name

def isDefined : TypeBody → Bool
  | object t => t.isDefined
  | enum t => t.isDefined
  | typeAlias t => t.isDefined
  | annotationType t => t.isDefined

def kind : TypeBody → TypeKind
  | object _ => .object
  | enum _ => .enum
  | typeAlias _ => .typeAlias
  | annotationType _ => .annotationType

end TypeBody

inductive TypeDefinition where
  | object (d : ObjectDefinition)
  | enum (d : EnumDefinition)
  | typeAlias (d : AliasDefinition)
  | annotationType (d : AnnotationTypeDefinition)
deriving Inhabited

namespace TypeDefinition

def span : TypeDefinition → Span
  | object d => d.span
  | enum d => d.span
  | typeAlias d => d.span
  | annotationType d => d.span

def kind : TypeDefinition → TypeKind
  | object _ => .object
  | enum _ => .enum
  | typeAlias _ => .typeAlias
  | annotationType _ => .annotationType

/-- The type of some name that has this definition and no extensions. -/
def toBody (name : QualifiedName) : TypeDefinition → TypeBody
  | object d => .object (.defined name d)
  | enum d => .enum (.defined name d)
  | typeAlias d => .typeAlias (.defined name d)
  | annotationType d => .annotationType (.defined name d)

end TypeDefinition

inductive TypeExtension where
  | object (e : ObjectExtension)
  | enum (e : EnumExtension)
  | typeAlias (e : AliasExtension)
deriving Inhabited

namespace TypeExtension

def span : TypeExtension → Span
  | object e => e.span
  | enum e => e.span
  | typeAlias e => e.span

def kind : TypeExtension → TypeKind
  | object _ => .object
  | enum _ => .enum
  | typeAlias _ => .typeAlias

end TypeExtension

end SemanticSchema
