import SemanticSchema.Span
import SemanticSchema.Text.Bytes

/-!
# Source files

The texts that spans point into. Offsets and columns count bytes; lines and columns start at 1.

* `SourceFile.ofText` : a file with its table of line starts;
* `SourceFile.lineCol?` : line and column of an offset, up to the end of the text inclusive;
* `SourceFile.lineRange?`, `SourceFile.lineText?` : the bytes of a line with its line break, and
  its text without it;
* `SourceSet.add` : stores a file under the next number; number 65535 is never given to a file;
* `SourceSet.path?`, `SourceSet.snippet?`, `SourceSet.lineCol?` : what a span points at.
-/

set_option autoImplicit false

namespace SemanticSchema

/-- A file with the offsets at which its lines start, the end of the text included. A restored file
keeps the table that it was stored with. -/
structure SourceFile where
  path : String
  text : String
  lineStarts : List Nat
deriving DecidableEq, Inhabited

namespace SourceFile

/-! ## The table of line starts -/

/-- The offsets behind the line breaks of `cs`, whose first byte lies at `offset`. -/
def breaksFrom (offset : Nat) : List Char → List Nat
  | [] => []
  | c :: cs =>
    if c = '\n' then (offset + 1) :: breaksFrom (offset + 1) cs
    else breaksFrom (offset + c.utf8Size) cs

/-- The start of the text, the offsets behind its line breaks, and its end unless that is listed
already. -/
def lineStartsOf (cs : List Char) : List Nat :=
  let starts := 0 :: breaksFrom 0 cs
  if starts.getLast? = some (Text.byteLength cs) then starts else starts ++ [Text.byteLength cs]

/-- A file with a fresh table. -/
def ofText (path text : String) : SourceFile :=
  ⟨path, text, lineStartsOf text.toList⟩

def size (f : SourceFile) : Nat := Text.byteLength f.text.toList

/-! ## Lines and columns -/

/-- The place in `starts` of the last entry that is at most `offset`, found by halving the `width`
places from `base` on; `base` if there is none. -/
def lineIndex (starts : List Nat) (offset base width : Nat) : Nat :=
  if width ≤ 1 then base
  else
    lineIndex starts offset
      (if offset < starts.getD (base + width / 2) 0 then base else base + width / 2)
      (width - width / 2)
termination_by width

/-- Lines and columns are counted modulo this number. -/
def placeBound : Nat := 0x100000000

/-- The column of `offset` in a line that begins at `start`. A restored table may put the start
behind the offset; then the count wraps round. -/
def column (start offset : Nat) : Nat := (offset + placeBound - start + 1) % placeBound

/-- Line and column of an offset that is not behind the end of the text. -/
def lineCol? (f : SourceFile) (offset : Nat) : Option (Nat × Nat) :=
  if f.size < offset then none
  else
    let i := lineIndex f.lineStarts offset 0 f.lineStarts.length
    f.lineStarts[i]?.map fun start => ((i + 1) % placeBound, column start offset)

/-- The bytes of a line, its line break included. -/
def lineRange? (f : SourceFile) : Nat → Option (Nat × Nat)
  | 0 => none
  | i + 1 =>
    match f.lineStarts[i]?, f.lineStarts[i + 1]? with
    | some start, some stop => some (start, stop)
    | _, _ => none

/-- Whether a character belongs to a line break. -/
def isBreak (c : Char) : Bool := c == '\n' || c == '\r'

/-- The characters without the line breaks at their end. -/
def trimBreaks : List Char → List Char
  | [] => []
  | c :: cs =>
    match trimBreaks cs with
    | [] => if isBreak c then [] else [c]
    | rest => c :: rest

/-- The text of a line without its line break. -/
def lineText? (f : SourceFile) (line : Nat) : Option String :=
  (f.lineRange? line).bind fun range =>
    (Text.sliceBytes? f.text.toList range.1 range.2).map fun cs => String.ofList (trimBreaks cs)

def lineCount (f : SourceFile) : Nat := f.lineStarts.length - 1

end SourceFile

/-- The files that spans refer to by number. -/
structure SourceSet where
  files : Array SourceFile := #[]
deriving Inhabited

namespace SourceSet

/-- Stores a file and answers its number. Once every number is in use nothing is stored, and the
answer is the number that no file bears. -/
def add (s : SourceSet) (path text : String) : SourceSet × Nat :=
  if s.files.size < Span.unknownFile then
    (⟨s.files.push (.ofText path text)⟩, s.files.size)
  else (s, Span.unknownFile)

def file? (s : SourceSet) (span : Span) : Option SourceFile := s.files[span.file]?

def path? (s : SourceSet) (span : Span) : Option String := (s.file? span).map (·.path)

/-- The text of a span, when both ends lie in the file and between characters. -/
def snippet? (s : SourceSet) (span : Span) : Option String :=
  (s.file? span).bind fun f =>
    (Text.sliceBytes? f.text.toList span.start span.stop).map String.ofList

/-- Line and column at which a span starts. -/
def lineCol? (s : SourceSet) (span : Span) : Option (Nat × Nat) :=
  (s.file? span).bind fun f => f.lineCol? span.start

end SourceSet

end SemanticSchema
