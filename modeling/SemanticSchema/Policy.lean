import SemanticSchema.Diagnostic

/-!
# Severity policy

What a schema may get away with, and how many reports are shown.

* `Policy` : the settings and their defaults;
* `Policy.isFatal` : whether a severity fails the schema;
* `Policy.promote` : warnings reported as errors, if so set;
* `Policy.cap` : the gravest diagnostics, at most as many as set and at least one.
-/

set_option autoImplicit false

namespace SemanticSchema

/-- Settings for the final verdict on a schema. -/
structure Policy where
  warningsAsErrors : Bool := false
  /-- The severity of a type that inherits from itself. -/
  cyclicInheritance : Severity := .warning
  /-- The severity of a field that repeats an inherited name; without one there is no report. -/
  shadowedFields : Option Severity := none
  /-- The number of diagnostics to show; without one all are shown. -/
  maxDiagnostics : Option Nat := none
deriving DecidableEq

namespace Policy

instance : Inhabited Policy := ⟨{}⟩

/-- Whether a diagnostic of a severity fails the schema. -/
def isFatal (p : Policy) : Severity → Bool
  | .error => true
  | .warning => p.warningsAsErrors
  | .info => false

/-- A warning becomes an error when warnings count as errors. -/
def promote (p : Policy) (d : Diagnostic) : Diagnostic :=
  if p.warningsAsErrors && d.severity == .warning then { d with severity := .error } else d

/-- The note on the last diagnostic shown when `dropped` more were left out. -/
def droppedNote (dropped : Nat) : String :=
  toString dropped ++ " further diagnostics were not shown"

def noteLast (note : String) : List Diagnostic → List Diagnostic
  | [] => []
  | [d] => [{ d with notes := d.notes ++ [note] }]
  | d :: ds => d :: noteLast note ds

/-- The gravest diagnostics first, equally grave ones in their order of report. -/
def byGravity (ds : List Diagnostic) : List Diagnostic :=
  ds.mergeSort fun a b => b.severity.rank ≤ a.severity.rank

/-- At most `max` diagnostics, but always one: a longer list is sorted by gravity and cut, and its
last entry tells how many were left out. -/
def capTo (max : Nat) (ds : List Diagnostic) : List Diagnostic :=
  let shown := Nat.max max 1
  if ds.length ≤ shown then ds
  else noteLast (droppedNote (ds.length - shown)) ((byGravity ds).take shown)

/-- The diagnostics that are shown under the policy. -/
def cap (p : Policy) (ds : List Diagnostic) : List Diagnostic :=
  match p.maxDiagnostics with
  | none => ds
  | some max => capTo max ds

def fails (p : Policy) (ds : List Diagnostic) : Bool :=
  ds.any fun d => p.isFatal d.severity

end Policy

end SemanticSchema
