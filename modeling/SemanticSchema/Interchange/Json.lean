/-!
# JSON values

The values in which a schema's parts are stored.

* `Json` : the values; of numbers only integers matter here;
* `Json.depth` : how deep a value is nested;
* `Json.record?` : the entries of a record, which is an object with its keys or an array in the
  order of the keys;
* `Json.tag?` : the tag of a choice without a payload, and `Json.tagged?` of one with a payload.
-/

set_option autoImplicit false

namespace SemanticSchema

/-- A JSON value; a number that is not written as an integer is only known as such. -/
inductive Json where
  | null
  | bool (value : Bool)
  | int (value : Int)
  | fraction
  | str (value : String)
  | arr (items : List Json)
  | obj (entries : List (String × Json))
deriving Inhabited

namespace Json

/-- A natural number as a value. -/
def nat (n : Nat) : Json := .int n

mutual

/-- The number of arrays and objects around the innermost value. -/
def depth : Json → Nat
  | arr items => depthAll items + 1
  | obj entries => depthEntries entries + 1
  | _ => 0

/-- The greatest depth of several values. -/
def depthAll : List Json → Nat
  | [] => 0
  | j :: js => max (depth j) (depthAll js)

/-- The greatest depth of the values of an object. -/
def depthEntries : List (String × Json) → Nat
  | [] => 0
  | (_, j) :: es => max (depth j) (depthEntries es)

end

/-- The entries of a record with some keys, one for each key. -/
structure Entries where
  get? : String → Option Json

/-- Reads a record: an object, whose other keys are passed over, or an array of at most as many
items as there are keys. -/
def record? (keys : List String) : Json → Option Entries
  | obj entries => some ⟨fun key => entries.lookup key⟩
  | arr items =>
    if items.length ≤ keys.length then some ⟨fun key => (keys.zip items).lookup key⟩ else none
  | _ => none

/-- The tag of a choice without a payload: a string, or an object that gives the tag null. -/
def tag? : Json → Option String
  | str tag => some tag
  | obj [(tag, null)] => some tag
  | _ => none

/-- The tag and the payload of a choice: an object with one key. -/
def tagged? : Json → Option (String × Json)
  | obj [entry] => some entry
  | _ => none

def bool? : Json → Option Bool
  | bool value => some value
  | _ => none

def str? : Json → Option String
  | str value => some value
  | _ => none

def arr? : Json → Option (List Json)
  | arr items => some items
  | _ => none

/-- An integer from `low` to `high`. -/
def intWithin? (low high : Int) : Json → Option Int
  | int value => if low ≤ value ∧ value ≤ high then some value else none
  | _ => none

/-- A natural number up to `high`. -/
def nat? (high : Nat) (j : Json) : Option Nat := (j.intWithin? 0 high).map Int.toNat

/-- A value or null. -/
def orNull {α : Type} (decode : Json → Option α) : Json → Option (Option α)
  | null => some none
  | j => (decode j).map some

/-- An array whose items are all readable. -/
def list? {α : Type} (decode : Json → Option α) (j : Json) : Option (List α) :=
  j.arr?.bind (·.mapM decode)

end Json

end SemanticSchema
