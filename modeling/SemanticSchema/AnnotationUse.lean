import SemanticSchema.Literal
import SemanticSchema.Name

/-!
# Uses of annotations

An annotation on a declaration, with its arguments.

* `Arguments` : values under distinct keys, in the order in which the keys came first;
  `Arguments.insert` replaces the value of a key in its place, and two lists of arguments agree when
  they hold the same values, whatever their order;
* `AnnotationUse` : the name of an annotation type with arguments.
-/

set_option autoImplicit false

namespace SemanticSchema

/-! ## Arguments -/

/-- Replaces the value of `key` in its place, or adds the key at the end. -/
def putEntry (key : String) (value : Literal) : List (String × Literal) → List (String × Literal)
  | [] => [(key, value)]
  | e :: es => if e.1 = key then (key, value) :: es else e :: putEntry key value es

theorem mem_keys_putEntry {key k : String} {value : Literal} {es : List (String × Literal)} :
    k ∈ (putEntry key value es).map Prod.fst ↔ k = key ∨ k ∈ es.map Prod.fst := by
  induction es with
  | nil => simp [putEntry]
  | cons e es ih =>
    simp only [putEntry]
    split
    · next h => subst h; simp
    · rw [List.map_cons, List.mem_cons, ih, List.map_cons, List.mem_cons]
      exact or_left_comm

theorem nodup_keys_putEntry {key : String} {value : Literal} {es : List (String × Literal)}
    (h : (es.map Prod.fst).Nodup) : ((putEntry key value es).map Prod.fst).Nodup := by
  induction es with
  | nil => simp [putEntry]
  | cons e es ih =>
    rw [List.map_cons, List.nodup_cons] at h
    simp only [putEntry]
    split
    · next hkey =>
      subst hkey
      exact List.nodup_cons.2 h
    · next hkey =>
      refine List.nodup_cons.2 ⟨fun hmem => ?_, ih h.2⟩
      rcases mem_keys_putEntry.1 hmem with heq | hmem
      · exact hkey heq
      · exact h.1 hmem

/-- Values under distinct keys. -/
structure Arguments where
  entries : List (String × Literal) := []
  nodup_keys : (entries.map Prod.fst).Nodup := by simp

namespace Arguments

instance : Inhabited Arguments := ⟨{}⟩

/-- Gives a key its value: in its old place, or behind the other keys. -/
def insert (args : Arguments) (key : String) (value : Literal) : Arguments :=
  ⟨putEntry key value args.entries, nodup_keys_putEntry args.nodup_keys⟩

def ofList (es : List (String × Literal)) : Arguments :=
  es.foldl (fun args e => args.insert e.1 e.2) {}

def get? (args : Arguments) (key : String) : Option Literal := args.entries.lookup key

/-- Whether the same values stand under the same keys. -/
def agrees (a b : Arguments) : Bool :=
  a.entries.length == b.entries.length && a.entries.all fun e => b.get? e.1 == some e.2

instance : BEq Arguments := ⟨agrees⟩

end Arguments

/-! ## Uses -/

/-- An annotation type applied to arguments. -/
structure AnnotationUse where
  name : QualifiedName
  arguments : Arguments := {}
deriving Inhabited, BEq

/-- Whether one of the uses is of the annotation type with a name. -/
def AnnotationUse.anyNamed (uses : List AnnotationUse) (name : QualifiedName) : Bool :=
  uses.any fun use => use.name == name

end SemanticSchema
