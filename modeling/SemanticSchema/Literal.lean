/-!
# Literal values

The values of constraints, enum members and defaults.

* `Literal.display` : the bare text of a value;
* `Literal.source` : its text in schema source, where strings are quoted.
-/

set_option autoImplicit false

namespace SemanticSchema

/-- A literal; decimals keep the text they were written with. -/
inductive Literal where
  | bool (value : Bool)
  | int (value : Int)
  | decimal (digits : String)
  | text (value : String)
  | null
deriving DecidableEq, Inhabited

namespace Literal

/-- The bare text, without quotes. -/
def display : Literal → String
  | bool true => "true"
  | bool false => "false"
  | int value => toString value
  | decimal digits => digits
  | text value => value
  | null => "null"

/-- The characters of a string literal: a quote is written with a backslash before it. -/
def escapeQuotes : List Char → List Char
  | [] => []
  | c :: cs => if c = '"' then '\\' :: '"' :: escapeQuotes cs else c :: escapeQuotes cs

def source : Literal → String
  | text value => "\"" ++ String.ofList (escapeQuotes value.toList) ++ "\""
  | value => value.display

/-- The value of a string literal. -/
def text? : Literal → Option String
  | text value => some value
  | _ => none

def isNull : Literal → Bool
  | null => true
  | _ => false

end Literal

end SemanticSchema
