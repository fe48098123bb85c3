import Mathlib.Data.Int.Notation
import Pivotal.Js.Text

/-! `JSON.stringify` of plain values. -/
namespace Js

inductive Json where
  | string (text : String)
  | number (value : ℤ)
  | array (items : List Json)
  | object (fields : List (String × Json))

namespace Json

/-- A character inside of quotes. -/
def escape (c : Char) : List Char :=
  if c = '"' then ['\\', '"']
  else if c = '\\' then ['\\', '\\']
  else if c.toNat = 0x08 then ['\\', 'b']
  else if c.toNat = 0x09 then ['\\', 't']
  else if c.toNat = 0x0A then ['\\', 'n']
  else if c.toNat = 0x0C then ['\\', 'f']
  else if c.toNat = 0x0D then ['\\', 'r']
  else if c.toNat < 0x20 then
    ['\\', 'u', '0', '0', Nat.digitChar (c.toNat / 16), Nat.digitChar (c.toNat % 16)]
  else [c]

def quote (text : String) : List Char := '"' :: text.toList.flatMap escape ++ ['"']

mutual

def chars : Json → List Char
  | .string text => quote text
  | .number value => (toString value).toList
  | .array items => '[' :: itemsChars items ++ [']']
  | .object fields => '\x7b' :: fieldsChars fields ++ ['\x7d']

def itemsChars : List Json → List Char
  | [] => []
  | [item] => chars item
  | item :: items => chars item ++ ',' :: itemsChars items

def fieldsChars : List (String × Json) → List Char
  | [] => []
  | [(key, value)] => quote key ++ ':' :: chars value
  | (key, value) :: fields => quote key ++ ':' :: chars value ++ ',' :: fieldsChars fields

end

def stringify (json : Json) : String := String.ofList json.chars

/-- A field that is left out when it has no value. -/
def optional {α : Type} (key : String) (value : Option α) (toJson : α → Json) :
    List (String × Json) :=
  value.toList.map fun v => (key, toJson v)

end Json
end Js
