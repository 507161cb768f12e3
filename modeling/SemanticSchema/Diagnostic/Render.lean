import SemanticSchema.Diagnostic
import SemanticSchema.Source

/-!
# Rendered diagnostics

The text of a diagnostic with the source lines that it points at.

* `Diagnostic.underline` : the markers below a source line;
* `Diagnostic.renderPlace` : a place with its source line; a place without line and column leaves
  only the message of its label;
* `Diagnostic.render` : a whole diagnostic, line by line;
* `Diagnostic.renderAll` : several diagnostics, with an empty line between two of them.
-/

set_option autoImplicit false

namespace SemanticSchema.Diagnostic

/-- A number, filled up with `fill` on its left to at least `width` characters. -/
def padNumber (fill : Char) (width n : Nat) : String :=
  let digits := toString n
  String.ofList (List.replicate (width - digits.length) fill) ++ digits

/-- The number of markers below a line of `lineLength` bytes for a span of `length` bytes that
starts in column `col`: at least one, and otherwise none behind the end of the line. -/
def markerCount (length lineLength col : Nat) : Nat :=
  min (max length 1) (max (lineLength - (col - 1)) 1)

/-- The row of markers, with the message of a label behind it. -/
def underline (length lineLength col : Nat) (label : Option String) : String :=
  let markers (mark : Char) :=
    String.ofList (List.replicate (col - 1) ' ')
      ++ String.ofList (List.replicate (markerCount length lineLength col) mark)
  match label with
  | none => "    | " ++ markers '^' ++ "\n"
  | some message => "    | " ++ markers '-' ++ " " ++ message ++ "\n"

/-- A source line with its number, and the row of markers below it. -/
def renderLine (text : String) (length line col : Nat) (label : Option String) : String :=
  "   |\n" ++ padNumber ' ' 3 line ++ " | " ++ text ++ "\n"
    ++ underline length (Text.byteLength text.toList) col label

/-- The place of a diagnostic or, with a message, of one of its labels. -/
def renderPlace (sources : SourceSet) (span : Span) (label : Option String) : String :=
  match sources.file? span, sources.lineCol? span with
  | some file, some (line, col) =>
    "  --> " ++ file.path ++ ":" ++ toString line ++ ":" ++ toString col ++ "\n"
      ++ match file.lineText? line with
        | some text => renderLine text span.length line col label
        | none => ""
  | _, _ =>
    match label with
    | some message => "   = " ++ message ++ "\n"
    | none => ""

/-- The line that opens a rendered diagnostic. -/
def header (d : Diagnostic) : String :=
  d.severity.display ++ "[E" ++ padNumber '0' 4 d.problem.code ++ "]: " ++ d.problem.display ++ ": "
    ++ d.message ++ "\n"

/-- The header, the place, the labels with their places, and the notes. -/
def render (sources : SourceSet) (d : Diagnostic) : String :=
  d.header ++ renderPlace sources d.span none
    ++ String.join (d.labels.map fun l => renderPlace sources l.span (some l.message))
    ++ String.join (d.notes.map fun note => "   = note: " ++ note ++ "\n")

/-- Several diagnostics, with an empty line between two of them. -/
def renderAll (sources : SourceSet) (ds : List Diagnostic) : String :=
  String.intercalate "\n" (ds.map (render sources))

end SemanticSchema.Diagnostic
