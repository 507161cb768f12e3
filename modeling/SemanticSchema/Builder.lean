import SemanticSchema.Constraint.Build
import SemanticSchema.Declaration
import SemanticSchema.Policy
import SemanticSchema.Registry.Extend

/-!
# The schema builder

Declarations come one after another, in any order; what is wrong with them is reported and does not
stop the others. Extensions wait until every declaration has come.

* `Builder` : the registry, the services, the waiting extensions and the reports so far;
* `Builder.declareObject`, `Builder.declareEnum`, `Builder.declareAlias`,
  `Builder.declareAnnotationType` : the slot of the new definition, if it was accepted;
* `Builder.declareService`, `Builder.declareOperation` : a service is declared once, and so is an
  operation of it;
* `Builder.extendType`, `Builder.addImport`, `Builder.resolveType`, `Builder.report`.
-/

set_option autoImplicit false

namespace SemanticSchema

/-- A schema that is being built. -/
structure Builder where
  policy : Policy := {}
  providers : Providers := .standard
  registry : Registry := {}
  services : List Service := []
  pending : List (QualifiedName × TypeExtension) := []
  diagnostics : List Diagnostic := []
deriving Inhabited

namespace Builder

def report (b : Builder) (d : Diagnostic) : Builder :=
  { b with diagnostics := b.diagnostics ++ [d] }

/-- The reference that a name stands for. -/
def resolveType (b : Builder) (name : QualifiedName) (span : Span) : TypeRef × Builder :=
  let (t, r) := b.registry.resolve span name
  (t, { b with registry := r })

def addImport (b : Builder) (name : QualifiedName) : Builder :=
  { b with registry := b.registry.addImport name }

/-- Keeps an extension until every declaration has come. -/
def extendType (b : Builder) (name : QualifiedName) (e : TypeExtension) : Builder :=
  { b with pending := b.pending ++ [(name, e)] }

/-! ## Constraints -/

/-- Builds the constraints of some clauses, and reports those that cannot be built. -/
def buildClauses (b : Builder) (clauses : List Clause) : List Constraint × Builder :=
  let built := b.providers.buildAll b.registry clauses
  (built.constraints,
    { b with registry := built.registry, diagnostics := b.diagnostics ++ built.errors })

def buildFields (b : Builder) : List FieldDeclaration → List Field × Builder
  | [] => ([], b)
  | d :: ds =>
    let (constraints, b) := b.buildClauses d.clauses
    let (fields, b) := buildFields b ds
    (d.toField constraints :: fields, b)

def buildParameters (b : Builder) : List ParameterDeclaration → List Parameter × Builder
  | [] => ([], b)
  | d :: ds =>
    let (constraints, b) := b.buildClauses d.clauses
    let (params, b) := buildParameters b ds
    (d.toParameter constraints :: params, b)

/-- Builds a contract; there is none without clauses. -/
def buildContract (b : Builder) (returns : TypeRef) (clauses : List Clause) :
    Option Contract × Builder :=
  if clauses.isEmpty then (none, b)
  else
    let (constraints, b) := b.buildClauses clauses
    (some ⟨returns, constraints⟩, b)

/-! ## Types -/

/-- Registers a definition, or reports why it is refused. -/
def install (b : Builder) (name : QualifiedName) (definition : TypeDefinition) :
    Option TypeId × Builder :=
  match b.registry.register name definition with
  | .ok (id, r) => (some id, { b with registry := r })
  | .error e => (none, b.report (e.toDiagnostic definition.span))

def declareObject (b : Builder) (d : ObjectDeclaration) : Option TypeId × Builder :=
  let (fields, b) := b.buildFields d.fields
  b.install d.name (.object (.ofParts fields d.annotations d.modifiers d.inherits d.doc d.span))

def declareEnum (b : Builder) (d : EnumDeclaration) : Option TypeId × Builder :=
  b.install d.name (.enum d.toDefinition)

def declareAlias (b : Builder) (d : AliasDeclaration) : Option TypeId × Builder :=
  b.install d.name (.typeAlias ⟨d.target, d.annotations, d.doc, d.span⟩)

def declareAnnotationType (b : Builder) (d : AnnotationTypeDeclaration) :
    Option TypeId × Builder :=
  let (fields, b) := b.buildFields d.fields
  b.install d.name (.annotationType ⟨fields, d.annotations, d.doc, d.span⟩)

/-! ## Services -/

def serviceRedefined (d : ServiceDeclaration) : Diagnostic :=
  .error .duplicateDefinition d.span ("Attempting to redefine service " ++ d.name.display)

def serviceMissing (service : QualifiedName) (span : Span) : Diagnostic :=
  .error .unresolvedType span ("Service " ++ service.display ++ " is not defined")

def operationRedefined (service : QualifiedName) (operation : String) (span : Span) : Diagnostic :=
  .error .duplicateDefinition span
    ("Service " ++ service.display ++ " already declares an operation " ++ operation)

/-- Adds an operation to its service, or reports why it is refused. -/
def addOperation (b : Builder) (service : QualifiedName) (o : Operation) : Builder :=
  match Service.find? b.services service with
  | none => b.report (serviceMissing service o.span)
  | some s =>
    if (s.operation? o.name).isSome then b.report (operationRedefined service o.name o.span)
    else { b with services := Service.put (s.addOperation o) b.services }

def declareOperation (b : Builder) (service : QualifiedName) (d : OperationDeclaration) : Builder :=
  let (params, b) := b.buildParameters d.params
  let (contract, b) := b.buildContract d.returns d.contract
  b.addOperation service (d.toOperation params contract)

def declareService (b : Builder) (d : ServiceDeclaration) : Builder :=
  match Service.find? b.services d.name with
  | some _ => b.report (serviceRedefined d)
  | none =>
    d.operations.foldl (fun b o => b.declareOperation d.name o)
      { b with services := b.services ++ [d.toService] }

end Builder

end SemanticSchema
