import SemanticSchema.Expression
import SemanticSchema.Interchange.Json
import SemanticSchema.Policy
import SemanticSchema.Source

/-!
# Stored forms

How the parts of a schema are written as JSON values and read back: `T.toJson` writes a value and
`T.ofJson?` reads one, or answers `none`.

Records have one key for each part. A choice without a payload is written as its tag, and one with a
payload as an object with one key.

* names, paths, literals, spans, source sets, type numbers;
* severities, operators and built-in types, by their tags;
* `Policy.ofJson?` : every setting may be left out.
-/

set_option autoImplicit false

namespace SemanticSchema

/-! ## Names and paths -/

namespace QualifiedName

mutual

/-- Parameters are left out when there are none. -/
def toJson : QualifiedName → Json
  | ⟨ns, simple, []⟩ => .obj [("namespace", .str ns), ("name", .str simple)]
  | ⟨ns, simple, p :: ps⟩ =>
    .obj [("namespace", .str ns), ("name", .str simple), ("parameters", .arr (allToJson (p :: ps)))]

def allToJson : List QualifiedName → List Json
  | [] => []
  | n :: ns => toJson n :: allToJson ns

end

def keys : List String := ["namespace", "name", "parameters"]

/-- Reads a name whose parameters are nested at most `depth` deep. -/
def ofJsonWithin? : Nat → Json → Option QualifiedName
  | 0, _ => none
  | depth + 1, j => do
    let entries ← j.record? keys
    let ns ← (← entries.get? "namespace").str?
    let simple ← (← entries.get? "name").str?
    let params ← match entries.get? "parameters" with
      | none => some []
      | some items => items.list? (ofJsonWithin? depth)
    some ⟨ns, simple, params⟩

/-- Reads a name; parameters that are left out are none. -/
def ofJson? (j : Json) : Option QualifiedName := ofJsonWithin? (j.depth + 1) j

end QualifiedName

namespace PropertyPath

/-- The parts under their key. -/
def toJson (p : PropertyPath) : Json := .obj [("parts", .arr (p.parts.map .str))]

def ofJson? (j : Json) : Option PropertyPath := do
  let entries ← j.record? ["parts"]
  let parts ← (← entries.get? "parts").list? Json.str?
  some ⟨parts⟩

end PropertyPath

/-! ## Literals -/

namespace Literal

/-- A literal under its kind. -/
def toJson : Literal → Json
  | bool value => .obj [("Bool", .bool value)]
  | int value => .obj [("Int", .int value)]
  | decimal digits => .obj [("Decimal", .str digits)]
  | text value => .obj [("String", .str value)]
  | null => .str "Null"

/-- Reads a literal; integers have 64 bits. -/
def ofJson? (j : Json) : Option Literal :=
  if j.tag? = some "Null" then some null
  else match j.tagged? with
    | some ("Bool", payload) => payload.bool?.map bool
    | some ("Int", payload) => (payload.intWithin? (-0x8000000000000000) 0x7FFFFFFFFFFFFFFF).map int
    | some ("Decimal", payload) => payload.str?.map decimal
    | some ("String", payload) => payload.str?.map text
    | _ => none

end Literal

/-! ## Sources -/

namespace Span

/-- The four numbers of a span. -/
def toJson (s : Span) : Json :=
  .obj [("file_id", .nat s.file), ("start", .nat s.start), ("end", .nat s.stop),
    ("start_line", .nat s.line)]

/-- Reads a span: file and line have 16 bits, offsets 32. -/
def ofJson? (j : Json) : Option Span := do
  let entries ← j.record? ["file_id", "start", "end", "start_line"]
  let file ← (← entries.get? "file_id").nat? 0xFFFF
  let start ← (← entries.get? "start").nat? 0xFFFFFFFF
  let stop ← (← entries.get? "end").nat? 0xFFFFFFFF
  let line ← (← entries.get? "start_line").nat? 0xFFFF
  some ⟨file, start, stop, line⟩

end Span

namespace SourceFile

/-- The file with its table of line starts. -/
def toJson (f : SourceFile) : Json :=
  .obj [("path", .str f.path), ("source", .str f.text),
    ("line_starts", .arr (f.lineStarts.map .nat))]

/-- Reads a file with the table that it was stored with. -/
def ofJson? (j : Json) : Option SourceFile := do
  let entries ← j.record? ["path", "source", "line_starts"]
  let path ← (← entries.get? "path").str?
  let text ← (← entries.get? "source").str?
  let lineStarts ← (← entries.get? "line_starts").list? (Json.nat? 0xFFFFFFFF)
  some ⟨path, text, lineStarts⟩

end SourceFile

namespace SourceSet

/-- The files in the order of their numbers. -/
def toJson (s : SourceSet) : Json := .obj [("files", .arr (s.files.toList.map (·.toJson)))]

def ofJson? (j : Json) : Option SourceSet := do
  let entries ← j.record? ["files"]
  let files ← (← entries.get? "files").list? SourceFile.ofJson?
  some ⟨files.toArray⟩

end SourceSet

namespace TypeId

/-- The bare number. -/
def toJson (id : TypeId) : Json := .nat id.slot

/-- Reads a number of 32 bits. -/
def ofJson? (j : Json) : Option TypeId := (j.nat? 0xFFFFFFFF).map TypeId.mk

end TypeId

/-! ## Tags -/

namespace Severity

/-- The lower-case name. -/
def toJson (s : Severity) : Json := .str s.display

def ofJson? (j : Json) : Option Severity :=
  j.tag?.bind fun tag => [info, warning, error].find? (·.display == tag)

end Severity

namespace Operator

def tag : Operator → String
  | equal => "Equal"
  | notEqual => "NotEqual"
  | greaterThan => "GreaterThan"
  | lessThan => "LessThan"
  | greaterThanOrEqual => "GreaterThanOrEqual"
  | lessThanOrEqual => "LessThanOrEqual"

def all : List Operator :=
  [equal, notEqual, greaterThan, lessThan, greaterThanOrEqual, lessThanOrEqual]

def toJson (o : Operator) : Json := .str o.tag

def ofJson? (j : Json) : Option Operator := j.tag?.bind fun tag => all.find? (·.tag == tag)

end Operator

namespace Primitive

/-- The simple name. -/
def toJson (p : Primitive) : Json := .str p.simpleName

def ofJson? (j : Json) : Option Primitive :=
  j.tag?.bind fun tag => all.find? (·.simpleName == tag)

end Primitive

/-! ## Policies -/

namespace Policy

/-- Every setting; one that is not set is null. -/
def toJson (p : Policy) : Json :=
  .obj [("warnings_as_errors", .bool p.warningsAsErrors),
    ("cyclic_inheritance", p.cyclicInheritance.toJson),
    ("shadowed_inherited_fields", (p.shadowedFields.map (·.toJson)).getD .null),
    ("max_diagnostics", (p.maxDiagnostics.map Json.nat).getD .null)]

/-- A setting, or its default when it is left out. -/
def setting {α : Type} (j : Option Json) (decode : Json → Option α) (default : α) : Option α :=
  match j with
  | none => some default
  | some j => decode j

/-- Reads a policy; a setting that is left out has its default. -/
def ofJson? (j : Json) : Option Policy := do
  let entries ← j.record?
    ["warnings_as_errors", "cyclic_inheritance", "shadowed_inherited_fields", "max_diagnostics"]
  let d : Policy := {}
  let warningsAsErrors ←
    setting (entries.get? "warnings_as_errors") Json.bool? d.warningsAsErrors
  let cyclicInheritance ←
    setting (entries.get? "cyclic_inheritance") Severity.ofJson? d.cyclicInheritance
  let shadowedFields ←
    setting (entries.get? "shadowed_inherited_fields") (Json.orNull Severity.ofJson?)
      d.shadowedFields
  let maxDiagnostics ←
    setting (entries.get? "max_diagnostics") (Json.orNull (Json.nat? 0xFFFFFFFFFFFFFFFF))
      d.maxDiagnostics
  some ⟨warningsAsErrors, cyclicInheritance, shadowedFields, maxDiagnostics⟩

end Policy

end SemanticSchema
