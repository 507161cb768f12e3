import SemanticSchema.Diagnostic
import SemanticSchema.TypeBody

/-!
# The registry of user types

Every user type has a record in a slot of its own, found by its name. A type that is referred to
before it is defined gets an undefined record, which the definition fills later, so that references
handed out earlier see it.

* `Registry.idOf?` : the slot of a name;
* `Registry.resolve` : the reference that a name stands for. Built-ins come first, then recorded
  types, then imports; any other name gets a record;
* `Registry.register` : defines a name once. An undefined record without extensions may become a
  type of any kind;
* `Registry.unresolved` : one report for each record that was never defined.
-/

set_option autoImplicit false

namespace SemanticSchema

/-- A user type and the place where its name came up first. -/
structure Record where
  body : TypeBody
  origin : Span
deriving Inhabited

namespace Record

def name (x : Record) : QualifiedName := x.body.name

def isDefined (x : Record) : Bool := x.body.isDefined

end Record

/-- The records in the order of their slots, and the names that other schemas define. -/
structure Registry where
  records : List Record := []
  imports : List QualifiedName := []
deriving Inhabited

/-- Why a name cannot be defined, or cannot be completed. -/
inductive RegistryError where
  | redefinition (name : QualifiedName)
  | kindMismatch (name : QualifiedName) (existing : TypeKind)
  | ambiguousName (simple : String) (candidates : List QualifiedName)
deriving DecidableEq

namespace RegistryError

def message : RegistryError → String
  | redefinition name => "Attempting to redefine type " ++ name.display
  | kindMismatch name existing =>
    "type " ++ name.display ++ " is already registered as a " ++ existing.display
  | ambiguousName simple candidates =>
    "Name " ++ simple ++ " is ambiguous, could refer to any of "
      ++ QualifiedName.enumerate candidates

def problem : RegistryError → Problem
  | redefinition _ | kindMismatch _ _ => .duplicateDefinition
  | ambiguousName _ _ => .ambiguousName

def toDiagnostic (e : RegistryError) (span : Span) : Diagnostic :=
  .error e.problem span e.message

end RegistryError

namespace Registry

/-! ## Reading -/

def size (r : Registry) : Nat := r.records.length

def get? (r : Registry) (id : TypeId) : Option Record := r.records[id.slot]?

/-- The slot of the record with some name. -/
def idOf? (r : Registry) (name : QualifiedName) : Option TypeId :=
  (r.records.findIdx? (·.name == name)).map TypeId.mk

def contains (r : Registry) (name : QualifiedName) : Bool := (r.idOf? name).isSome

def isDefined (r : Registry) (id : TypeId) : Bool := (r.get? id).any (·.isDefined)

def object? (r : Registry) (id : TypeId) : Option ObjectType :=
  match r.get? id with
  | some ⟨.object t, _⟩ => some t
  | _ => none

def enum? (r : Registry) (id : TypeId) : Option EnumType :=
  match r.get? id with
  | some ⟨.enum t, _⟩ => some t
  | _ => none

def typeAlias? (r : Registry) (id : TypeId) : Option TypeAlias :=
  match r.get? id with
  | some ⟨.typeAlias t, _⟩ => some t
  | _ => none

def annotationType? (r : Registry) (id : TypeId) : Option AnnotationType :=
  match r.get? id with
  | some ⟨.annotationType t, _⟩ => some t
  | _ => none

def slots (r : Registry) : List (TypeId × Record) :=
  r.records.zipIdx.map fun x => (⟨x.2⟩, x.1)

/-- The defined records with their slots. -/
def definedSlots (r : Registry) : List (TypeId × Record) := r.slots.filter (·.2.isDefined)

/-- The name of the type behind a reference; a user type without a record is called by its slot. -/
def nameOf (r : Registry) : TypeRef → QualifiedName
  | .primitive p => p.name
  | .void => .ofParts QualifiedName.builtinNamespace TypeRef.voidName
  | .array m => ⟨QualifiedName.builtinNamespace, TypeRef.arrayName, [r.nameOf m]⟩
  | .user id =>
    match r.get? id with
    | some x => x.name
    | none => .ofParts "" id.display
  | .imported name => name

/-- The spelling of the name of a type. -/
def spell (r : Registry) (t : TypeRef) : String := (r.nameOf t).display

/-! ## Imports -/

def isImported (r : Registry) (name : QualifiedName) : Bool := r.imports.contains name

def addImport (r : Registry) (name : QualifiedName) : Registry :=
  if r.isImported name then r else { r with imports := r.imports ++ [name] }

/-! ## Adding records -/

/-- Adds a record in the next slot. -/
def push (r : Registry) (body : TypeBody) (origin : Span) : TypeId × Registry :=
  (⟨r.size⟩, { r with records := r.records ++ [⟨body, origin⟩] })

/-- Replaces the type in a slot. -/
def setBody (r : Registry) (id : TypeId) (body : TypeBody) : Registry :=
  { r with records := r.records.modify id.slot fun x => { x with body := body } }

/-- The reference that a name stands for when it is no array of another name. -/
def resolveNamed (r : Registry) (name : QualifiedName) (origin : Span) : TypeRef × Registry :=
  match Primitive.ofName? name with
  | some p => (.primitive p, r)
  | none =>
    if name.isBuiltin TypeRef.voidName then (.void, r)
    else match r.idOf? name with
      | some id => (.user id, r)
      | none =>
        if r.isImported name then (.imported name, r)
        else
          let (id, r) := r.push (.object (.undefined name)) origin
          (.user id, r)

/-- The reference that a name stands for; a name that stands for nothing yet gets an undefined
record. -/
def resolve (r : Registry) (origin : Span) : QualifiedName → TypeRef × Registry
  | ⟨ns, simple, [m]⟩ =>
    if QualifiedName.isBuiltin ⟨ns, simple, [m]⟩ TypeRef.arrayName then
      let (t, r) := resolve r origin m
      (.array t, r)
    else r.resolveNamed ⟨ns, simple, [m]⟩ origin
  | name => r.resolveNamed name origin

/-! ## Defining -/

/-- An undefined type with its definition; only an object type without extensions may turn out to be
of another kind. -/
def fill (body : TypeBody) (definition : TypeDefinition) : Except RegistryError TypeBody :=
  if body.isDefined then .error (.redefinition body.name)
  else match body, definition with
    | .object t, .object d => .ok (.object { t with definition := some d })
    | .enum t, .enum d => .ok (.enum { t with definition := some d })
    | .typeAlias t, .typeAlias d => .ok (.typeAlias { t with definition := some d })
    | .annotationType t, .annotationType d => .ok (.annotationType { t with definition := some d })
    | .object ⟨name, _, []⟩, d => .ok (d.toBody name)
    | body, _ => .error (.kindMismatch body.name body.kind)

/-- Defines a name: in the record that it has, or in a new one. -/
def register (r : Registry) (name : QualifiedName) (definition : TypeDefinition) :
    Except RegistryError (TypeId × Registry) :=
  match r.idOf? name with
  | none => .ok (r.push (definition.toBody name) definition.span)
  | some id =>
    match r.get? id with
    | none => .error (.redefinition name)
    | some x => (fill x.body definition).map fun body => (id, r.setBody id body)

/-! ## Resolution -/

/-- The report on a record that was never defined. -/
def unresolvedReport (x : Record) : Diagnostic :=
  .error .unresolvedType x.origin (x.name.display ++ " is not defined")

/-- A report on each record that was never defined, in the order of the slots. -/
def unresolved (r : Registry) : List Diagnostic :=
  (r.records.filter (!·.isDefined)).map unresolvedReport

end Registry

end SemanticSchema
