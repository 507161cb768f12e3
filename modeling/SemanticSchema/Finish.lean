import SemanticSchema.Builder
import SemanticSchema.Constraint.Validate
import SemanticSchema.Document

/-!
# Finishing a schema

Once every declaration has come, the extensions are applied and the whole schema is checked.

* `Registry.inheritanceReports` : cycles, enums with several bases, and repeated field names;
* `Builder.applyExtensions` : the waiting extensions, in order;
* `Builder.allReports` : every report on the schema. The constraints and the inheritance are looked
  at only when every name is defined;
* `Builder.finish` : the document with what is left to report, or the reports of one that fails.
-/

set_option autoImplicit false

namespace SemanticSchema

/-! ## Inheritance -/

namespace Registry

/-- The report on a type that inherits from itself. -/
def cycleReport (p : Policy) (name : QualifiedName) (span : Span) : Diagnostic :=
  ⟨.cyclicInheritance, p.cyclicInheritance, span,
    "Type " ++ name.display ++ " inherits from itself", [], []⟩

/-- The report on an enum with several roots. -/
def severalBasesReport (r : Registry) (name : QualifiedName) (span : Span) (roots : List TypeId) :
    Diagnostic :=
  .error .multipleEnumBases span
    ("Enum " ++ name.display ++ " inherits from multiple enums ("
      ++ QualifiedName.enumerate (roots.map fun id => r.nameOf (.user id))
      ++ "), which is not supported")

/-- The report on a field that repeats the name of an inherited one. -/
def shadowReport (severity : Severity) (name : QualifiedName) (f : Field) : Diagnostic :=
  ⟨.shadowedField, severity, f.span,
    "Field " ++ f.name ++ " on " ++ name.display ++ " repeats the name of an inherited field",
    [], []⟩

/-- The place where the inheritance of a type is declared; aliases and annotation types inherit
nothing. -/
def inheritanceSpan? (x : Record) : Option Span :=
  match x.body with
  | .object t => some ((t.definition.map (·.span)).getD x.origin)
  | .enum t => some ((t.definition.map (·.span)).getD x.origin)
  | _ => none

/-- The reports on the inheritance of one type. -/
def inheritanceReportsOn (r : Registry) (p : Policy) (id : TypeId) (x : Record) :
    List Diagnostic :=
  match inheritanceSpan? x with
  | none => []
  | some span =>
    let roots := r.enumRoots id
    (if r.isCyclic (.user id) then [cycleReport p x.name span] else [])
      ++ (if roots.length > 1 then [r.severalBasesReport x.name span roots] else [])
      ++ match p.shadowedFields with
        | none => []
        | some severity => (r.shadowedFields id).map (shadowReport severity x.name)

/-- The reports on the inheritance of the defined types, in the order of their slots. -/
def inheritanceReports (r : Registry) (p : Policy) : List Diagnostic :=
  r.definedSlots.flatMap fun slot => r.inheritanceReportsOn p slot.1 slot.2

end Registry

/-! ## Finishing -/

/-- A document, and what is left to report on it. -/
structure FinishedSchema where
  document : Document
  diagnostics : List Diagnostic
deriving Inhabited

namespace Builder

/-- Extends a type now, or reports why the extension is refused. -/
def applyExtension (b : Builder) (x : QualifiedName × TypeExtension) : Builder :=
  match b.registry.extend x.1 x.2 with
  | (none, r) => { b with registry := r }
  | (some refusal, r) => { b with registry := r }.report refusal

def applyExtensions (b : Builder) : Builder :=
  b.pending.foldl applyExtension { b with pending := [] }

/-- The reports on the model as a whole. -/
def modelReports (b : Builder) : List Diagnostic :=
  match b.registry.unresolved with
  | [] =>
    b.registry.constraintReports b.providers b.services ++ b.registry.inheritanceReports b.policy
  | unresolved => unresolved

/-- Every report on the schema, before the policy is applied. -/
def allReports (b : Builder) : List Diagnostic :=
  b.applyExtensions.diagnostics ++ b.applyExtensions.modelReports

/-- The reports as they are shown. -/
def shownReports (b : Builder) : List Diagnostic :=
  b.policy.cap (b.allReports.map b.policy.promote)

/-- The document of the schema, or the reports if one of them is fatal. -/
def finish (b : Builder) : Except (List Diagnostic) FinishedSchema :=
  if b.policy.fails b.allReports then .error b.shownReports
  else .ok ⟨⟨b.applyExtensions.registry, b.services⟩, b.shownReports⟩

end Builder

end SemanticSchema
