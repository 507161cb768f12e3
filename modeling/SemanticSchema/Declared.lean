import SemanticSchema.AnnotationUse

/-!
# Declared types

A user type is one definition, perhaps still missing, and the extensions made to it.

* `Documented` : declarations that carry annotations and a doc text;
* `Declared` : a name, the definition if there is one, and the extensions in order;
* `Declared.annotations` : those of the extensions in order, then those of the definition;
* `Declared.doc` : the texts that are not empty, the definition's first, one to a line.
-/

set_option autoImplicit false

namespace SemanticSchema

/-- Declarations that carry annotations and a doc text. -/
class Documented (α : Type) where
  annotations : α → List AnnotationUse
  doc : α → Option String

/-- What a type cannot have carries nothing. -/
instance : Documented Empty := ⟨nofun, nofun⟩

/-- A name with its definition and the extensions made to it. -/
structure Declared (δ ε : Type) where
  name : QualifiedName
  definition : Option δ := none
  extensions : List ε := []
deriving Inhabited

namespace Declared

variable {δ ε : Type}

/-- A type that has been named but not defined. -/
def undefined (name : QualifiedName) : Declared δ ε := ⟨name, none, []⟩

/-- A type with a definition and no extensions. -/
def defined (name : QualifiedName) (definition : δ) : Declared δ ε := ⟨name, some definition, []⟩

def isDefined (t : Declared δ ε) : Bool := t.definition.isSome

def addExtension (t : Declared δ ε) (e : ε) : Declared δ ε :=
  { t with extensions := t.extensions ++ [e] }

section

variable [Documented δ] [Documented ε]

/-- The annotations of the extensions in order, then those of the definition. -/
def annotations (t : Declared δ ε) : List AnnotationUse :=
  t.extensions.flatMap Documented.annotations ++ t.definition.toList.flatMap Documented.annotations

def isAnnotated (t : Declared δ ε) (name : QualifiedName) : Bool :=
  AnnotationUse.anyNamed t.annotations name

/-- The doc texts that are not empty, the definition's first, one to a line. -/
def doc (t : Declared δ ε) : Option String :=
  let texts := t.definition.toList.filterMap Documented.doc ++ t.extensions.filterMap Documented.doc
  match texts.filter (· ≠ "") with
  | [] => none
  | shown => some (String.intercalate "\n" shown)

end

end Declared

end SemanticSchema
