import FleetBoard.Decimal.Shortest
import FleetBoard.Text.Quoted

/-!
# JSON values and their compact text

Whole numbers are kept exactly and apart from floats: `1` and `1.0` are different values. An object
keeps the order of its fields. `Json.render` writes a value without blanks.
-/

namespace FleetBoard

/-- A JSON value. -/
inductive Json where
  | null
  | bool (b : Bool)
  | int (n : Int)
  | float (x : Float)
  | str (s : String)
  | arr (items : List Json)
  | obj (fields : List (String × Json))
  deriving Inhabited

namespace Json

def lookup (name : String) : List (String × Json) → Option Json
  | [] => none
  | (key, value) :: fields => if key = name then some value else lookup name fields

def field? (name : String) : Json → Option Json
  | .obj fields => lookup name fields
  | _ => none

/-- Puts a field in its place by name; a field of the same name is replaced. -/
def insertSorted (key : String) (value : Json) : List (String × Json) → List (String × Json)
  | [] => [(key, value)]
  | (k, v) :: fields =>
    if key < k then (key, value) :: (k, v) :: fields
    else if key = k then (key, value) :: fields
    else (k, v) :: insertSorted key value fields

/-- Fields in the order of their names, where of two with one name the later counts. -/
def sortFields (fields : List (String × Json)) : List (String × Json) :=
  fields.foldl (fun sorted f => insertSorted f.1 f.2 sorted) []

/-- A character inside a JSON string. Only the quote, the backslash and the controls below `0x20`
are escaped. -/
def escapeChar (c : Char) : List Char :=
  if c = '"' then ['\\', '"']
  else if c = '\\' then ['\\', '\\']
  else if c = '\x08' then ['\\', 'b']
  else if c = '\t' then ['\\', 't']
  else if c = '\n' then ['\\', 'n']
  else if c = '\x0c' then ['\\', 'f']
  else if c = '\r' then ['\\', 'r']
  else if c.toNat < 0x20 then
    let digits := Text.hexDigits c.toNat
    ['\\', 'u'] ++ List.replicate (4 - digits.length) '0' ++ digits
  else [c]

def renderText (s : List Char) : List Char := '"' :: s.flatMap escapeChar ++ ['"']

/-- Floats are written out with up to sixteen digits before the point and up to four zeros after it;
beyond that they have an exponent. -/
def floatLayout : Decimal.Layout := ⟨-5, 16⟩

mutual

/-- The compact text of a value. -/
def render : Json → List Char
  | .null => "null".toList
  | .bool b => (if b then "true" else "false").toList
  | .int n => (toString n).toList
  | .float x => floatLayout.write x
  | .str s => renderText s.toList
  | .arr items => '[' :: renderItems items ++ [']']
  | .obj fields => '\x7b' :: renderFields fields ++ ['\x7d']

def renderItems : List Json → List Char
  | [] => []
  | [item] => render item
  | item :: items => render item ++ ',' :: renderItems items

def renderFields : List (String × Json) → List Char
  | [] => []
  | [(key, value)] => renderText key.toList ++ ':' :: render value
  | (key, value) :: fields =>
    renderText key.toList ++ ':' :: (render value ++ ',' :: renderFields fields)

end

end Json

end FleetBoard
