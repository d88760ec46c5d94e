import SLFront.Text.Hex

/-!
# JSON values

Log records are written as JSON on one line, in ASCII: a blank follows every comma and colon, and a
character outside the visible ASCII range is written as an escape sequence, by its UTF-16 units if
there is no short form. The fields of an object keep their order.
-/
namespace SLFront

/-- A JSON value. Numbers are integers. -/
inductive Json
  | null
  | bool (b : Bool)
  | int (n : Int)
  | string (s : String)
  | array (xs : List Json)
  | object (fields : List (String × Json))
deriving Repr

namespace Json

/-- The UTF-16 units of a code point. -/
def units16 (n : Nat) : List Nat :=
  if n < 0x10000 then [n]
  else [0xD800 + (n - 0x10000) / 0x400, 0xDC00 + (n - 0x10000) % 0x400]

/-- A character inside a string. -/
def escapedChar (c : Char) : List Char :=
  if c = '"' ∨ c = '\\' then ['\\', c]
  else if c = '\n' then ['\\', 'n']
  else if c = '\r' then ['\\', 'r']
  else if c = '\t' then ['\\', 't']
  else if c = '\x08' then ['\\', 'b']
  else if c = '\x0c' then ['\\', 'f']
  else if ' ' ≤ c ∧ c ≤ '~' then [c]
  else (units16 c.toNat).flatMap fun u => '\\' :: 'u' :: Text.hexDigits 4 u

/-- A string with its quotes. -/
def stringText (s : String) : String :=
  String.ofList ('"' :: s.toList.flatMap escapedChar ++ ['"'])

mutual

/-- A value as text. -/
def text : Json → String
  | null => "null"
  | bool true => "true"
  | bool false => "false"
  | int n => toString n
  | string s => stringText s
  | array xs => "[" ++ ", ".intercalate (texts xs) ++ "]"
  | object fields => "\x7b" ++ ", ".intercalate (fieldTexts fields) ++ "\x7d"

/-- The texts of some values. -/
def texts : List Json → List String
  | [] => []
  | x :: xs => x.text :: texts xs

/-- The texts of some fields. -/
def fieldTexts : List (String × Json) → List String
  | [] => []
  | (key, value) :: fields => (stringText key ++ ": " ++ value.text) :: fieldTexts fields

end

/-- Set a field. One that is there keeps its place, and another is added at the end. -/
def put (key : String) (value : Json) : List (String × Json) → List (String × Json)
  | [] => [(key, value)]
  | (k, v) :: fields => if k = key then (k, value) :: fields else (k, v) :: put key value fields

/-- Set several fields, one after the other. -/
def putAll (fields news : List (String × Json)) : List (String × Json) :=
  news.foldl (fun fields (key, value) => put key value fields) fields

end Json
end SLFront
