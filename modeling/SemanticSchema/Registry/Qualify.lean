import SemanticSchema.Registry

/-!
# Completing names

A name written in source is completed by the namespace in which it stands.

* `Registry.qualify` : a dotted name is complete; a bare one means a built-in, else the import with
  that simple name, else a name in the namespace.
-/

set_option autoImplicit false

namespace SemanticSchema.Registry

/-- The imports with some simple name. -/
def importsNamed (r : Registry) (simple : String) : List QualifiedName :=
  r.imports.filter (·.simple == simple)

/-- The full name that a name written inside a namespace means. -/
def qualify (r : Registry) (ns name : String) : Except RegistryError QualifiedName :=
  if name.toList.contains '.' then .ok (.parse name)
  else match Primitive.ofName? (.ofParts "" name) with
    | some p => .ok p.name
    | none =>
      if name = TypeRef.voidName then
        .ok (.ofParts QualifiedName.builtinNamespace TypeRef.voidName)
      else match r.importsNamed name with
        | [] => .ok (.ofParts ns name)
        | [single] => .ok single
        | several => .error (.ambiguousName name several)

end SemanticSchema.Registry
