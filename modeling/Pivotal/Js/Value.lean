import Mathlib.Data.List.Sort
import Pivotal.Js.Json

/-! `JSON.parse` and `JSON.stringify` of any value. Strings are code units, of which a text may
escape some that belong to no character; what a number denotes is left to `Numbers`. -/
namespace Js

/-- The code units of a string. -/
abbrev Units := List UInt16

def charUnits (c : Char) : Units :=
  if c.toNat < 0x10000 then [UInt16.ofNat c.toNat]
  else [UInt16.ofNat (0xD800 + (c.toNat - 0x10000) / 0x400),
    UInt16.ofNat (0xDC00 + (c.toNat - 0x10000) % 0x400)]

def units (text : String) : Units := text.toList.flatMap charUnits

def isHighSurrogate (u : UInt16) : Bool := 0xD800 ≤ u.toNat && u.toNat < 0xDC00

def isLowSurrogate (u : UInt16) : Bool := 0xDC00 ≤ u.toNat && u.toNat < 0xE000

def joinSurrogates (high low : UInt16) : Char :=
  Char.ofNat (0x10000 + (high.toNat - 0xD800) * 0x400 + (low.toNat - 0xDC00))

/-- A code unit that stands alone, as UTF-8 has it. -/
def unitChar (u : UInt16) : Char :=
  if 0xD800 ≤ u.toNat ∧ u.toNat < 0xE000 then Char.ofNat 0xFFFD else Char.ofNat u.toNat

def unitsText : Units → List Char
  | [] => []
  | [u] => [unitChar u]
  | high :: low :: s =>
    if isHighSurrogate high && isLowSurrogate low then joinSurrogates high low :: unitsText s
    else unitChar high :: unitsText (low :: s)

/-- The characters of a string, with a replacement for what is no character. -/
def ofUnits (s : Units) : String := String.ofList (unitsText s)

/-- What `JSON.parse` can return. The fields of an object are in the order of its keys. -/
inductive Value (ν : Type) where
  | null
  | bool (b : Bool)
  | number (n : ν)
  | string (s : Units)
  | array (items : List (Value ν))
  | object (fields : List (Units × Value ν))

/-- The characters that a number literal is made of. -/
def isNumberChar (c : Char) : Bool :=
  isDigit c || c = '-' || c = '+' || c = '.' || c = 'e' || c = 'E'

def isExponent : List Char → Bool
  | [] => true
  | '+' :: ds => ds ≠ [] && ds.all isDigit
  | '-' :: ds => ds ≠ [] && ds.all isDigit
  | ds => ds ≠ [] && ds.all isDigit

/-- What may follow the integer part and the fraction. -/
def isExponentPart : List Char → Bool
  | [] => true
  | 'e' :: cs => cs ≠ [] && isExponent cs
  | 'E' :: cs => cs ≠ [] && isExponent cs
  | _ => false

def isFractionPart : List Char → Bool
  | '.' :: cs => cs.takeWhile isDigit ≠ [] && isExponentPart (cs.dropWhile isDigit)
  | cs => isExponentPart cs

def isUnsigned (cs : List Char) : Bool :=
  (match cs.takeWhile isDigit with
    | [] => false
    | ['0'] => true
    | d :: _ => d ≠ '0') && isFractionPart (cs.dropWhile isDigit)

/-- The number literals of the grammar. -/
def isLiteral (cs : List Char) : Bool :=
  cs.all isNumberChar && match cs with
    | '-' :: cs => isUnsigned cs
    | cs => isUnsigned cs

/-- The numbers of the language: the number a literal is read as, and the literal a number is
written as, which is read as the number again. What is not finite is not written. -/
structure Numbers (ν : Type) where
  read : List Char → ν
  write : ν → Option (List Char)
  isLiteral_write : ∀ n cs, write n = some cs → isLiteral cs = true
  write_read : ∀ n cs, write n = some cs → write (read cs) = some cs

/-- One number, which is not finite. -/
def Numbers.unit : Numbers Unit where
  read _ := ()
  write _ := none
  isLiteral_write _ _ h := absurd h (Option.some_ne_none _).symm
  write_read _ _ h := absurd h (Option.some_ne_none _).symm

namespace Value

/-- One code unit inside of quotes. -/
def unitChars (u : UInt16) : List Char :=
  if 0xD800 ≤ u.toNat ∧ u.toNat < 0xE000 then
    ['\\', 'u', Nat.digitChar (u.toNat / 0x1000), Nat.digitChar (u.toNat / 0x100 % 0x10),
      Nat.digitChar (u.toNat / 0x10 % 0x10), Nat.digitChar (u.toNat % 0x10)]
  else Json.escape (Char.ofNat u.toNat)

def stringChars : Units → List Char
  | [] => []
  | [u] => unitChars u
  | high :: low :: s =>
    if isHighSurrogate high && isLowSurrogate low then joinSurrogates high low :: stringChars s
    else unitChars high ++ stringChars (low :: s)

def quote (s : Units) : List Char := '"' :: stringChars s ++ ['"']

section Stringify

variable {ν : Type} (numbers : Numbers ν)

mutual

def chars : Value ν → List Char
  | .null => ['n', 'u', 'l', 'l']
  | .bool true => ['t', 'r', 'u', 'e']
  | .bool false => ['f', 'a', 'l', 's', 'e']
  | .number n => (numbers.write n).getD ['n', 'u', 'l', 'l']
  | .string s => quote s
  | .array [] => ['[', ']']
  | .array (item :: items) => '[' :: chars item ++ itemsChars items
  | .object [] => ['\x7b', '\x7d']
  | .object ((key, value) :: fields) =>
    '\x7b' :: quote key ++ ':' :: chars value ++ fieldsChars fields

/-- The items after the first, and the closing bracket. -/
def itemsChars : List (Value ν) → List Char
  | [] => [']']
  | item :: items => ',' :: chars item ++ itemsChars items

/-- The members after the first, and the closing brace. -/
def fieldsChars : List (Units × Value ν) → List Char
  | [] => ['\x7d']
  | (key, value) :: fields => ',' :: quote key ++ ':' :: chars value ++ fieldsChars fields

end

/-- `JSON.stringify(value)` -/
def stringify (value : Value ν) : String := String.ofList (value.chars numbers)

end Stringify

/-- White space between the tokens of a text. -/
def isSpace (c : Char) : Bool := c = ' ' || c = '\t' || c = '\n' || c = '\r'

def skip (cs : List Char) : List Char := cs.dropWhile isSpace

def escapeUnit (c : Char) : Option UInt16 :=
  match c with
  | '"' => some 0x22
  | '\\' => some 0x5C
  | '/' => some 0x2F
  | 'b' => some 0x08
  | 'f' => some 0x0C
  | 'n' => some 0x0A
  | 'r' => some 0x0D
  | 't' => some 0x09
  | _ => none

def hexUnit (a b c d : Char) : Option UInt16 := do
  let a ← radixDigit 16 a
  let b ← radixDigit 16 b
  let c ← radixDigit 16 c
  let d ← radixDigit 16 d
  return UInt16.ofNat (((a * 16 + b) * 16 + c) * 16 + d)

/-- A string after its opening quote, and the rest of the text. -/
def parseString : List Char → Option (Units × List Char)
  | '"' :: cs => some ([], cs)
  | '\\' :: 'u' :: a :: b :: c :: d :: cs => do
    let u ← hexUnit a b c d
    let (s, rest) ← parseString cs
    return (u :: s, rest)
  | '\\' :: c :: cs => do
    let u ← escapeUnit c
    let (s, rest) ← parseString cs
    return (u :: s, rest)
  | c :: cs =>
    if c.toNat < 0x20 || c = '\\' then none
    else (parseString cs).map fun (s, rest) => (charUnits c ++ s, rest)
  | [] => none

/-- The value of an array index, which sorts before the other keys. -/
def indexValue (key : Units) : Option ℕ :=
  let digits := key.map fun u => Char.ofNat u.toNat
  if digits ≠ [] && digits.all isDigit && (digits = ['0'] || digits.head? ≠ some '0')
      && digitsValue digits < 4294967295 then
    some (digitsValue digits)
  else none

section Fields

variable {α : Type}

/-- Setting a field of an object: a key that is there keeps its place. -/
def setField (fields : List (Units × α)) (key : Units) (value : α) : List (Units × α) :=
  if fields.any fun field => field.1 = key then
    fields.map fun field => if field.1 = key then (key, value) else field
  else fields ++ [(key, value)]

def IndexLe (f g : Units × α) : Prop := (indexValue f.1).getD 0 ≤ (indexValue g.1).getD 0

instance : DecidableRel (IndexLe (α := α)) := fun _ _ => inferInstanceAs (Decidable (_ ≤ _))

/-- The order of the keys of an object: indices first, and by value. -/
def orderFields (fields : List (Units × α)) : List (Units × α) :=
  (fields.filter fun field => (indexValue field.1).isSome).insertionSort IndexLe ++
    fields.filter fun field => (indexValue field.1).isNone

/-- The object with the members of a text, set one after another. -/
def ofMembers (members : List (Units × α)) : List (Units × α) :=
  orderFields (members.foldl (fun fields member => setField fields member.1 member.2) [])

end Fields

section Parse

variable {ν : Type} (numbers : Numbers ν)

mutual

/-- A value and the rest of the text; `fuel` bounds the depth of the recursion. -/
def parseValue (fuel : ℕ) (cs : List Char) : Option (Value ν × List Char) :=
  match fuel with
  | 0 => none
  | fuel + 1 =>
    match skip cs with
    | 'n' :: 'u' :: 'l' :: 'l' :: rest => some (.null, rest)
    | 't' :: 'r' :: 'u' :: 'e' :: rest => some (.bool true, rest)
    | 'f' :: 'a' :: 'l' :: 's' :: 'e' :: rest => some (.bool false, rest)
    | '"' :: rest => (parseString rest).map fun (s, rest) => (.string s, rest)
    | '[' :: rest =>
      match skip rest with
      | ']' :: rest => some (.array [], rest)
      | rest => (parseItems fuel rest).map fun (items, rest) => (.array items, rest)
    | '\x7b' :: rest =>
      match skip rest with
      | '\x7d' :: rest => some (.object [], rest)
      | rest => (parseMembers fuel rest).map fun (members, rest) =>
        (.object (ofMembers members), rest)
    | rest =>
      let literal := rest.takeWhile isNumberChar
      if isLiteral literal then
        some (.number (numbers.read literal), rest.dropWhile isNumberChar)
      else none

/-- The items of an array that is not empty. -/
def parseItems (fuel : ℕ) (cs : List Char) : Option (List (Value ν) × List Char) :=
  match fuel with
  | 0 => none
  | fuel + 1 => do
    let (item, rest) ← parseValue fuel cs
    match skip rest with
    | ',' :: rest =>
      let (items, rest) ← parseItems fuel rest
      return (item :: items, rest)
    | ']' :: rest => return ([item], rest)
    | _ => none

/-- The members of an object that is not empty. -/
def parseMembers (fuel : ℕ) (cs : List Char) : Option (List (Units × Value ν) × List Char) :=
  match fuel with
  | 0 => none
  | fuel + 1 => do
    let '"' :: rest := skip cs | none
    let (key, rest) ← parseString rest
    let ':' :: rest := skip rest | none
    let (value, rest) ← parseValue fuel rest
    match skip rest with
    | ',' :: rest =>
      let (members, rest) ← parseMembers fuel rest
      return ((key, value) :: members, rest)
    | '\x7d' :: rest => return ([(key, value)], rest)
    | _ => none

end

/-- `JSON.parse(text)`, with nothing where it throws. -/
def parse (text : String) : Option (Value ν) := do
  let (value, rest) ← parseValue numbers (2 * text.length + 1) text.toList
  if skip rest = [] then some value else none

end Parse
end Value

/-- A value of the program. What a `toJSON` method returns stands for its object. -/
inductive Data (ν : Type) where
  | undefined
  | null
  | bool (b : Bool)
  | number (n : ν)
  | string (s : Units)
  | array (items : List (Data ν))
  | object (fields : List (Units × Data ν))
  | toJson (data : Data ν)

namespace Data

variable {ν : Type}

mutual

/-- The value that `JSON.stringify` writes. What is undefined has none. -/
def serialize : Data ν → Option (Value ν)
  | .undefined => none
  | .null => some .null
  | .bool b => some (.bool b)
  | .number n => some (.number n)
  | .string s => some (.string s)
  | .array items => some (.array (serializeItems items))
  | .object fields => some (.object (serializeFields fields))
  | .toJson data => serialize data

def serializeItems : List (Data ν) → List (Value ν)
  | [] => []
  | item :: items => (serialize item).getD .null :: serializeItems items

def serializeFields : List (Units × Data ν) → List (Units × Value ν)
  | [] => []
  | (key, data) :: fields =>
    match serialize data with
    | some value => (key, value) :: serializeFields fields
    | none => serializeFields fields

end
end Data
end Js
