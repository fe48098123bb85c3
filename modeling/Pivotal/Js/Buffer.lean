import Mathlib.Data.List.Basic
import Mathlib.Tactic.Common
import Pivotal.Js.Text

/-! Buffers as lists of bytes, with their `utf-8` and `base64url` texts. -/
namespace Js

abbrev Buffer := List UInt8

namespace Buffer

def sextetChars : List Char :=
  "ABCDEFGHIJKLMNOPQRSTUVWXYZabcdefghijklmnopqrstuvwxyz0123456789-_".toList

def sextetChar (n : ℕ) : Char := sextetChars.getD n 'A'

/-- The value of a character of either base64 alphabet. -/
def sextetValue (c : Char) : Option ℕ :=
  if 'A' ≤ c ∧ c ≤ 'Z' then some (c.toNat - 'A'.toNat)
  else if 'a' ≤ c ∧ c ≤ 'z' then some (c.toNat - 'a'.toNat + 26)
  else if '0' ≤ c ∧ c ≤ '9' then some (c.toNat - '0'.toNat + 52)
  else if c = '-' ∨ c = '+' then some 62
  else if c = '_' ∨ c = '/' then some 63
  else none

/-- Three bytes make four sextets; what is left at the end makes two or three. -/
def toSextets : Buffer → List ℕ
  | [] => []
  | [a] => [a.toNat / 4, a.toNat % 4 * 16]
  | [a, b] => [a.toNat / 4, a.toNat % 4 * 16 + b.toNat / 16, b.toNat % 16 * 4]
  | a :: b :: c :: rest =>
    a.toNat / 4 :: (a.toNat % 4 * 16 + b.toNat / 16) :: (b.toNat % 16 * 4 + c.toNat / 64) ::
      c.toNat % 64 :: toSextets rest

def ofSextets : List ℕ → Buffer
  | w :: x :: y :: z :: rest =>
    UInt8.ofNat (w * 4 + x / 16) :: UInt8.ofNat (x % 16 * 16 + y / 4) ::
      UInt8.ofNat (y % 4 * 64 + z) :: ofSextets rest
  | [w, x, y] => [UInt8.ofNat (w * 4 + x / 16), UInt8.ofNat (x % 16 * 16 + y / 4)]
  | [w, x] => [UInt8.ofNat (w * 4 + x / 16)]
  | [_] => []
  | [] => []

/-- `buffer.toString('base64url')`, which is not padded. -/
def toBase64Url (data : Buffer) : String := String.ofList (data.toSextets.map sextetChar)

/-- The alphabet of `base64` differs in its last two characters. -/
def base64Char (n : ℕ) : Char := if n = 62 then '+' else if n = 63 then '/' else sextetChar n

/-- `buffer.toString('base64')`, which is padded. -/
def toBase64 (data : Buffer) : String :=
  String.ofList (data.toSextets.map base64Char ++
    List.replicate ((4 - data.toSextets.length % 4) % 4) '=')

/-- `Buffer.from(text, 'base64url')`, and with `'base64'`: the padding ends the text, and what belongs to neither
alphabet is skipped. -/
def fromBase64Url (text : String) : Buffer :=
  ofSextets ((text.toList.takeWhile (· ≠ '=')).filterMap sextetValue)

/-- `Buffer.from(text, 'utf-8')` -/
def fromUtf8 (text : String) : Buffer := text.toByteArray.data.toList

/-- How many bytes follow a first byte, and the least and the greatest value of the second. -/
def utf8Lead (b : ℕ) : Option (ℕ × ℕ × ℕ) :=
  if b < 0xC2 then none
  else if b ≤ 0xDF then some (1, 0x80, 0xBF)
  else if b = 0xE0 then some (2, 0xA0, 0xBF)
  else if b = 0xED then some (2, 0x80, 0x9F)
  else if b ≤ 0xEF then some (2, 0x80, 0xBF)
  else if b = 0xF0 then some (3, 0x90, 0xBF)
  else if b ≤ 0xF3 then some (3, 0x80, 0xBF)
  else if b = 0xF4 then some (3, 0x80, 0x8F)
  else none

/-- A sequence that has begun: its bytes still owed, the bounds of the next, its value so far. -/
structure Utf8State where
  owed : ℕ
  lower : ℕ
  upper : ℕ
  value : ℕ

/-- The state after a byte that begins a sequence, and the characters it stands for. -/
def utf8Start (b : ℕ) : Option Utf8State × List Char :=
  if b < 0x80 then (none, [Char.ofNat b])
  else match utf8Lead b with
    | some (owed, lower, upper) => (some ⟨owed, lower, upper, b % 2 ^ (6 - owed)⟩, [])
    | none => (none, ['\uFFFD'])

/-- Every maximal part of an ill-formed sequence becomes one replacement character. -/
def utf8Replace : Option Utf8State → Buffer → List Char
  | none, [] => []
  | some _, [] => ['\uFFFD']
  | none, b :: rest =>
    let (state, chars) := utf8Start b.toNat
    chars ++ utf8Replace state rest
  | some state, b :: rest =>
    if state.lower ≤ b.toNat ∧ b.toNat ≤ state.upper then
      let value := state.value * 64 + b.toNat % 64
      if state.owed = 1 then Char.ofNat value :: utf8Replace none rest
      else utf8Replace (some ⟨state.owed - 1, 0x80, 0xBF, value⟩) rest
    else
      let (next, chars) := utf8Start b.toNat
      '\uFFFD' :: chars ++ utf8Replace next rest

/-- `buffer.toString('utf-8')` -/
def toUtf8 (data : Buffer) : String :=
  (String.fromUTF8? ⟨⟨data⟩⟩).getD (String.ofList (utf8Replace none data))

theorem toUtf8_fromUtf8 (text : String) : (fromUtf8 text).toUtf8 = text := by
  have hbytes : (⟨⟨fromUtf8 text⟩⟩ : ByteArray) = text.toByteArray := rfl
  unfold toUtf8 String.fromUTF8?
  rw [hbytes, dif_pos text.isValidUTF8]
  rfl

theorem fromUtf8_injective : Function.Injective fromUtf8 := fun s t h => by
  rw [← toUtf8_fromUtf8 s, h, toUtf8_fromUtf8]

theorem fromUtf8_append (s t : String) : fromUtf8 (s ++ t) = fromUtf8 s ++ fromUtf8 t := by
  simp [fromUtf8, String.toByteArray_append]

theorem ofNat_toNat_of_eq {a : UInt8} {n : ℕ} (h : n % 256 = a.toNat) : UInt8.ofNat n = a := by
  apply UInt8.toNat_inj.mp
  rw [UInt8.toNat_ofNat', ← h]

@[simp] theorem ofSextets_toSextets (data : Buffer) : ofSextets data.toSextets = data := by
  induction data using toSextets.induct with
  | case1 => rfl
  | case2 a =>
    have ha := a.toNat_lt
    simp only [toSextets, ofSextets]
    rw [ofNat_toNat_of_eq (a := a) (by omega)]
  | case3 a b =>
    have ha := a.toNat_lt
    have hb := b.toNat_lt
    simp only [toSextets, ofSextets]
    rw [ofNat_toNat_of_eq (a := a) (by omega), ofNat_toNat_of_eq (a := b) (by omega)]
  | case4 a b c rest ih =>
    have ha := a.toNat_lt
    have hb := b.toNat_lt
    have hc := c.toNat_lt
    simp only [toSextets, ofSextets, ih]
    rw [ofNat_toNat_of_eq (a := a) (by omega), ofNat_toNat_of_eq (a := b) (by omega),
      ofNat_toNat_of_eq (a := c) (by omega)]

theorem toSextets_lt {data : Buffer} {n : ℕ} (h : n ∈ data.toSextets) : n < 64 := by
  induction data using toSextets.induct with
  | case1 => simp [toSextets] at h
  | case2 a =>
    have ha := a.toNat_lt
    simp only [toSextets, List.mem_cons, List.not_mem_nil, or_false] at h
    omega
  | case3 a b =>
    have ha := a.toNat_lt
    have hb := b.toNat_lt
    simp only [toSextets, List.mem_cons, List.not_mem_nil, or_false] at h
    omega
  | case4 a b c rest ih =>
    have ha := a.toNat_lt
    have hb := b.toNat_lt
    have hc := c.toNat_lt
    simp only [toSextets, List.mem_cons] at h
    rcases h with h | h | h | h | h
    · omega
    · omega
    · omega
    · omega
    · exact ih h

/-- Both alphabets are read, and neither has the padding or white space in it. -/
theorem alphabets_read : ∀ n < 64,
    (sextetValue (sextetChar n) = some n ∧ sextetChar n ≠ '=') ∧
      (sextetValue (base64Char n) = some n ∧ base64Char n ≠ '=') ∧
        isWhiteSpace (sextetChar n) = false := by
  decide +kernel

theorem sextetChar_read :
    ∀ n < 64, sextetValue (sextetChar n) = some n ∧ sextetChar n ≠ '=' := fun n hn =>
  (alphabets_read n hn).1

theorem base64Char_read :
    ∀ n < 64, sextetValue (base64Char n) = some n ∧ base64Char n ≠ '=' := fun n hn =>
  (alphabets_read n hn).2.1

/-- The sextets of a buffer, written in an alphabet that is read and padded or not, give the
buffer back. -/
theorem fromBase64Url_chars {char : ℕ → Char}
    (hchar : ∀ n < 64, sextetValue (char n) = some n ∧ char n ≠ '=') (data : Buffer) (padding : ℕ) :
    fromBase64Url (String.ofList (data.toSextets.map char ++ List.replicate padding '=')) =
      data := by
  have htake : (data.toSextets.map char ++ List.replicate padding '=').takeWhile (· ≠ '=') =
      data.toSextets.map char := by
    rw [List.takeWhile_append_of_pos]
    · cases padding <;> simp [List.replicate_succ]
    · intro c hc
      obtain ⟨n, hn, rfl⟩ := List.mem_map.mp hc
      simpa using (hchar n (toSextets_lt hn)).2
  have hvalues : (data.toSextets.map char).filterMap sextetValue = data.toSextets := by
    rw [List.filterMap_map]
    have hsome : ∀ n ∈ data.toSextets, (sextetValue ∘ char) n = some n := fun n hn =>
      (hchar n (toSextets_lt hn)).1
    rw [List.filterMap_congr hsome, List.filterMap_some]
  unfold fromBase64Url
  rw [String.toList_ofList, htake, hvalues, ofSextets_toSextets]

theorem fromBase64Url_padded (data : Buffer) (padding : ℕ) :
    fromBase64Url (data.toBase64Url ++ String.ofList (List.replicate padding '=')) = data := by
  have h := fromBase64Url_chars sextetChar_read data padding
  rwa [String.ofList_append] at h

theorem fromBase64Url_toBase64 (data : Buffer) : fromBase64Url data.toBase64 = data :=
  fromBase64Url_chars base64Char_read data _

theorem fromBase64Url_toBase64Url (data : Buffer) : fromBase64Url data.toBase64Url = data := by
  have h := fromBase64Url_padded data 0
  rwa [List.replicate_zero, String.ofList_nil, String.append_empty] at h

theorem toBase64Url_injective : Function.Injective toBase64Url := fun a b h => by
  rw [← fromBase64Url_toBase64Url a, h, fromBase64Url_toBase64Url]

theorem isWhiteSpace_sextetChar : ∀ n < 64, isWhiteSpace (sextetChar n) = false := fun n hn =>
  (alphabets_read n hn).2.2

/-- The text of a buffer that is not empty is not blank. -/
theorem trim_toBase64Url_append {data : Buffer} (h : data ≠ []) (rest : String) :
    trim (data.toBase64Url ++ rest) ≠ "" := by
  have hsextets : data.toSextets ≠ [] := by
    intro hnil
    have hdata := ofSextets_toSextets data
    rw [hnil] at hdata
    exact h hdata.symm
  obtain ⟨n, ns, hns⟩ := List.exists_cons_of_ne_nil hsextets
  have hn : n < 64 := toSextets_lt (by rw [hns]; exact List.mem_cons_self)
  refine trim_ne_empty (c := sextetChar n) ?_ (isWhiteSpace_sextetChar n hn)
  simp [toBase64Url, hns]

end Buffer
end Js
