import SemanticSchema.Constraint.Clause
import SemanticSchema.EnumType
import SemanticSchema.ObjectType
import SemanticSchema.Service

/-!
# Declarations

What a reader of schema source hands over, one value for each construct. Types are referred to
already; constraints are still clauses.

* `FieldDeclaration`, `ParameterDeclaration`, `OperationDeclaration` : with their clauses;
* `ObjectDeclaration`, `EnumDeclaration`, `AliasDeclaration`, `AnnotationTypeDeclaration`,
  `ServiceDeclaration` : one for each kind of construct.
-/

set_option autoImplicit false

namespace SemanticSchema

structure FieldDeclaration where
  ofModifiers ::
  name : String
  type : TypeRef
  nullable : Bool := false
  modifiers : List FieldModifier := []
  annotations : List AnnotationUse := []
  clauses : List Clause := []
  doc : Option String := none
  default : Option Literal := none
  span : Span := .unknown
deriving Inhabited

/-- The declaration of a field that is closed or not, with no other modifier. -/
def FieldDeclaration.mk (name : String) (type : TypeRef) (nullable isClosed : Bool)
    (annotations : List AnnotationUse) (clauses : List Clause) (doc : Option String)
    (default : Option Literal) (span : Span) : FieldDeclaration :=
  .ofModifiers name type nullable (FieldModifier.ofClosed isClosed) annotations clauses doc default
    span

def FieldDeclaration.toField (d : FieldDeclaration) (constraints : List Constraint) : Field where
  name := d.name
  type := d.type
  nullable := d.nullable
  modifiers := d.modifiers
  annotations := d.annotations
  constraints := constraints
  doc := d.doc
  default := d.default
  span := d.span

structure ObjectDeclaration where
  name : QualifiedName
  fields : List FieldDeclaration := []
  annotations : List AnnotationUse := []
  modifiers : List Modifier := []
  inherits : List TypeRef := []
  doc : Option String := none
  span : Span := .unknown
deriving Inhabited

/-- A member of an enum as declared; without a value its name is its value. -/
structure MemberDeclaration where
  name : String
  value : Option Literal := none
  annotations : List AnnotationUse := []
  synonyms : List QualifiedName := []
  doc : Option String := none
  isDefault : Bool := false
deriving Inhabited

/-- The member of the enum of some name. -/
def MemberDeclaration.toMember (enumName : QualifiedName) (d : MemberDeclaration) : EnumMember :=
  { EnumMember.ofName enumName d.name d.value with
    annotations := d.annotations
    synonyms := d.synonyms
    doc := d.doc
    isDefault := d.isDefault }

/-- An enum as declared; without a basic type its values are strings. -/
structure EnumDeclaration where
  name : QualifiedName
  members : List MemberDeclaration := []
  annotations : List AnnotationUse := []
  basicType : Option Primitive := none
  lenient : Bool := false
  inherits : List TypeRef := []
  doc : Option String := none
  span : Span := .unknown
deriving Inhabited

def EnumDeclaration.toDefinition (d : EnumDeclaration) : EnumDefinition :=
  .ofParts (d.members.map (·.toMember d.name)) d.annotations d.basicType d.lenient d.inherits d.doc
    d.span

structure AliasDeclaration where
  name : QualifiedName
  target : TypeRef
  annotations : List AnnotationUse := []
  doc : Option String := none
  span : Span := .unknown
deriving Inhabited

structure AnnotationTypeDeclaration where
  name : QualifiedName
  fields : List FieldDeclaration := []
  annotations : List AnnotationUse := []
  doc : Option String := none
  span : Span := .unknown
deriving Inhabited

structure ParameterDeclaration where
  name : Option String
  type : TypeRef
  annotations : List AnnotationUse := []
  clauses : List Clause := []
  nullable : Bool := false
  span : Span := .unknown
deriving Inhabited

def ParameterDeclaration.toParameter (d : ParameterDeclaration) (constraints : List Constraint) :
    Parameter where
  name := d.name
  type := d.type
  annotations := d.annotations
  constraints := constraints
  nullable := d.nullable
  span := d.span

/-- An operation as declared; the clauses of its contract are about its result. -/
structure OperationDeclaration where
  name : String
  scope : Option String := none
  annotations : List AnnotationUse := []
  params : List ParameterDeclaration := []
  returns : TypeRef
  contract : List Clause := []
  doc : Option String := none
  span : Span := .unknown
deriving Inhabited

/-- The operation with its parameters and its contract. -/
def OperationDeclaration.toOperation (d : OperationDeclaration) (params : List Parameter)
    (contract : Option Contract) : Operation where
  name := d.name
  scope := d.scope
  annotations := d.annotations
  params := params
  returns := d.returns
  contract := contract
  doc := d.doc
  span := d.span

structure ServiceDeclaration where
  name : QualifiedName
  operations : List OperationDeclaration := []
  annotations : List AnnotationUse := []
  doc : Option String := none
  span : Span := .unknown
deriving Inhabited

/-- The service before its operations. -/
def ServiceDeclaration.toService (d : ServiceDeclaration) : Service where
  name := d.name
  annotations := d.annotations
  doc := d.doc
  span := d.span

end SemanticSchema
