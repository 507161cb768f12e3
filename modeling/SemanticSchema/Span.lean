/-!
# Spans

A span is a range of bytes in one source file.

* `Span.unknown` : the span of what has no place in a source;
* `Span.length`, `Span.isEmpty` : an inverted span is empty;
* `Span.merge` : the least span that holds two spans of one file.
-/

set_option autoImplicit false

namespace SemanticSchema

/-- The bytes from `start` up to `stop` of a file, and the line on which they begin. -/
structure Span where
  file : Nat
  start : Nat
  stop : Nat
  line : Nat
deriving DecidableEq, Inhabited

namespace Span

/-- The file number that no file bears. -/
def unknownFile : Nat := 65535

/-- The span of what has no place in a source. -/
def unknown : Span := ⟨unknownFile, 0, 0, 0⟩

def isUnknown (s : Span) : Bool := s.file == unknownFile

/-- The number of bytes; none for an inverted span. -/
def length (s : Span) : Nat := s.stop - s.start

def isEmpty (s : Span) : Bool := s.stop ≤ s.start

/-- The least span that holds both, when they lie in one file; otherwise the first. -/
def merge (s t : Span) : Span :=
  if s.file = t.file then ⟨s.file, min s.start t.start, max s.stop t.stop, min s.line t.line⟩ else s

end Span

end SemanticSchema
