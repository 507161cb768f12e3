import SemanticSchema.Registry

/-!
# Extending recorded types

An extension goes to the record of its name. An object extension may come before the type: an
unknown name is resolved first and gets an undefined record.

* `ExtensionError` : why an extension is refused;
* `TypeBody.extend` : an extension of one type;
* `Registry.extend` : an extension of a name; a refusal is reported at the place of the extension.
-/

set_option autoImplicit false

namespace SemanticSchema

/-- Why an extension is refused. -/
inductive ExtensionError where
  | builtin (name : QualifiedName)
  | unknown (kind : TypeKind) (name : QualifiedName)
  | refinement (conflict : RefinementConflict)
  | enumRefusal (refusal : EnumRefusal)
  | notExtensible (name : QualifiedName)
  | wrongKind (extension : TypeKind) (body : TypeKind) (name : QualifiedName)
  | missingRecord (name : QualifiedName)
deriving DecidableEq

namespace ExtensionError

def problem : ExtensionError → Problem
  | refinement _ => .refinementConflict
  | missingRecord _ => .internal
  | _ => .invalidExtension

/-- The wording of a refusal, types being spelled by `spell`. -/
def message (spell : TypeRef → String) : ExtensionError → String
  | builtin name => "Cannot extend built-in type " ++ name.display
  | unknown kind name =>
    "Cannot extend " ++ kind.display ++ " " ++ name.display ++ " as it is not defined"
  | refinement c =>
    "Cannot refine field " ++ c.field ++ " to " ++ spell c.proposed
      ++ " as it has already been refined to " ++ spell c.existing
  | enumRefusal refusal => refusal.message
  | notExtensible name => "Annotation type " ++ name.display ++ " does not support extensions"
  | wrongKind extension body name =>
    "Cannot apply an " ++ extension.display ++ " extension to " ++ body.display ++ " "
      ++ name.display
  | missingRecord name => "type " ++ name.display ++ " has no registry record"

def toDiagnostic (spell : TypeRef → String) (span : Span) (e : ExtensionError) : Diagnostic :=
  .error e.problem span (e.message spell)

end ExtensionError

/-- A type with one more extension of its own kind. -/
def TypeBody.extend : TypeBody → TypeExtension → Except ExtensionError TypeBody
  | .object t, .object e => ((ObjectType.extend t e).map .object).mapError .refinement
  | .enum t, .enum e => ((EnumType.extend t e).map .enum).mapError .enumRefusal
  | .typeAlias t, .typeAlias e => .ok (.typeAlias (t.addExtension e))
  | .annotationType t, _ => .error (.notExtensible t.name)
  | body, e => .error (.wrongKind e.kind body.kind body.name)

namespace Registry

/-- The slot that an extension of a name goes to. -/
def extensionSlot (r : Registry) (name : QualifiedName) (e : TypeExtension) :
    Except ExtensionError TypeId × Registry :=
  match r.idOf? name, e with
  | some id, _ => (.ok id, r)
  | none, .object _ =>
    match r.resolve e.span name with
    | (.user id, r) => (.ok id, r)
    | (_, r) => (.error (.builtin name), r)
  | none, e => (.error (.unknown e.kind name), r)

/-- Extends the record in the slot of a name; a slot that `extensionSlot` gives has one. -/
def extendSlot (r : Registry) (name : QualifiedName) (id : TypeId) (e : TypeExtension) :
    Except ExtensionError Registry :=
  match r.get? id with
  | none => .error (.missingRecord name)
  | some x => (x.body.extend e).map (r.setBody id)

/-- Extends a name; `none` when the extension is accepted. -/
def extend (r : Registry) (name : QualifiedName) (e : TypeExtension) :
    Option Diagnostic × Registry :=
  match r.extensionSlot name e with
  | (.error refusal, r) => (some (refusal.toDiagnostic r.spell e.span), r)
  | (.ok id, r) =>
    match r.extendSlot name id e with
    | .error refusal => (some (refusal.toDiagnostic r.spell e.span), r)
    | .ok r => (none, r)

end Registry

end SemanticSchema
