import SemanticSchema.Constraint
import SemanticSchema.Declared

/-!
# Object types

Types with fields, and the extensions that decorate or refine the fields.

* `Field` : a field with its modifiers, of which `Field.closed` asks for one;
* `Field.agrees` : equality of fields, wherever they were declared;
* `Field.collapse` : drops every field that agrees with an earlier one;
* `ObjectType.fields` : the fields as extended. Annotations of extensions come before the field's
  own, and the first refinement of a field decides its type and, if it has one, its default;
* `ObjectType.extend` : adds an extension, unless it refines a field a second time.
-/

set_option autoImplicit false

namespace SemanticSchema

/-! ## Fields -/

/-- What may be said of a field. -/
inductive FieldModifier where
  | closed
deriving DecidableEq, Inhabited

/-- The modifiers of a field of which it is told no more than whether it is closed. -/
def FieldModifier.ofClosed (isClosed : Bool) : List FieldModifier :=
  if isClosed then [.closed] else []

/-- A field of an object type or of an annotation type. -/
structure Field where
  ofModifiers ::
  name : String
  type : TypeRef
  nullable : Bool := false
  modifiers : List FieldModifier := []
  annotations : List AnnotationUse := []
  constraints : List Constraint := []
  doc : Option String := none
  default : Option Literal := none
  span : Span := .unknown
deriving Inhabited

namespace Field

/-- A field that is closed or not, with no other modifier. -/
def mk (name : String) (type : TypeRef) (nullable isClosed : Bool)
    (annotations : List AnnotationUse) (constraints : List Constraint) (doc : Option String)
    (default : Option Literal) (span : Span) : Field :=
  .ofModifiers name type nullable (FieldModifier.ofClosed isClosed) annotations constraints doc
    default span

def closed (f : Field) : Bool := f.modifiers.contains .closed

/-- Whether two fields are the same but for the place where they were declared. -/
def agrees (f g : Field) : Bool :=
  f.name == g.name && f.type == g.type && f.nullable == g.nullable && f.modifiers == g.modifiers
    && f.annotations == g.annotations && f.constraints == g.constraints && f.doc == g.doc
    && f.default == g.default

/-- Drops every field that agrees with an earlier one. -/
def collapse (fields : List Field) : List Field :=
  fields.foldl (fun kept f => if kept.any (·.agrees f) then kept else kept ++ [f]) []

end Field

/-! ## Definitions and extensions -/

/-- What may be said of an object type as a whole. -/
inductive Modifier where
  | parameter
  | closed
deriving DecidableEq, Inhabited

/-- The word for a modifier in schema source. -/
def Modifier.token : Modifier → String
  | parameter => "parameter"
  | closed => "closed"

structure ObjectDefinition where
  fields : List Field
  annotations : List AnnotationUse := []
  modifiers : List Modifier := []
  inherits : List TypeRef := []
  doc : Option String := none
  span : Span := .unknown
deriving Inhabited

namespace ObjectDefinition

/-- A definition in which repeated fields and repeated supertypes count once. -/
def ofParts (fields : List Field) (annotations : List AnnotationUse) (modifiers : List Modifier)
    (inherits : List TypeRef) (doc : Option String) (span : Span) : ObjectDefinition :=
  ⟨Field.collapse fields, annotations, modifiers, inherits.eraseDups, doc, span⟩

end ObjectDefinition

instance : Documented ObjectDefinition := ⟨(·.annotations), (·.doc)⟩

/-- A narrower type for a field, perhaps with a default. -/
structure Refinement where
  type : TypeRef
  default : Option Literal := none
deriving DecidableEq, Inhabited

/-- What an extension adds to the field of some name. -/
structure FieldExtension where
  name : String
  annotations : List AnnotationUse := []
  refinement : Option Refinement := none
deriving Inhabited

structure ObjectExtension where
  fields : List FieldExtension := []
  annotations : List AnnotationUse := []
  doc : Option String := none
  span : Span := .unknown
deriving Inhabited

/-- The first entry for the field of some name. -/
def ObjectExtension.field? (e : ObjectExtension) (name : String) : Option FieldExtension :=
  e.fields.find? (·.name == name)

instance : Documented ObjectExtension := ⟨(·.annotations), (·.doc)⟩

abbrev ObjectType := Declared ObjectDefinition ObjectExtension

/-- A field that has a refinement and is given another. -/
structure RefinementConflict where
  field : String
  existing : TypeRef
  proposed : TypeRef
deriving DecidableEq, Inhabited

namespace ObjectType

/-- What the extensions add to the field of some name, in order. -/
def fieldExtensions (t : ObjectType) (name : String) : List FieldExtension :=
  (t.extensions.flatMap (·.fields)).filter (·.name == name)

/-- The refinement of the field of some name. -/
def refinement? (t : ObjectType) (name : String) : Option Refinement :=
  (t.fieldExtensions name).findSome? (·.refinement)

/-- A field as the extensions make it. -/
def mergeField (t : ObjectType) (f : Field) : Field :=
  let extended := { f with
    annotations := (t.fieldExtensions f.name).flatMap (·.annotations) ++ f.annotations }
  match t.refinement? f.name with
  | none => extended
  | some r => { extended with type := r.type, default := r.default.or f.default }

def declaredFields (t : ObjectType) : List Field :=
  match t.definition with
  | none => []
  | some d => d.fields

/-- The fields as the extensions make them. -/
def fields (t : ObjectType) : List Field := t.declaredFields.map t.mergeField

/-- The first own field of some name, as the extensions make it. -/
def ownField? (t : ObjectType) (name : String) : Option Field :=
  (t.declaredFields.find? (·.name == name)).map t.mergeField

def hasOwnField (t : ObjectType) (name : String) : Bool :=
  t.declaredFields.any (·.name == name)

/-- The first of `entries` that refines a field which earlier extensions, or the entries of
`before`, have refined already. -/
def conflictIn (t : ObjectType) (before : List FieldExtension) :
    List FieldExtension → Option RefinementConflict
  | [] => none
  | e :: es =>
    match e.refinement with
    | none => conflictIn t (before ++ [e]) es
    | some proposed =>
      match (t.fieldExtensions e.name ++ before.filter (·.name == e.name)).findSome?
          (·.refinement) with
      | some existing => some ⟨e.name, existing.type, proposed.type⟩
      | none => conflictIn t (before ++ [e]) es

/-- Adds an extension that refines no field a second time. -/
def extend (t : ObjectType) (e : ObjectExtension) : Except RefinementConflict ObjectType :=
  match t.conflictIn [] e.fields with
  | some conflict => .error conflict
  | none => .ok (t.addExtension e)

end ObjectType

end SemanticSchema
