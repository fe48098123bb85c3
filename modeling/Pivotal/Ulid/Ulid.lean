import Mathlib.Data.Int.Bitwise
import Mathlib.Data.String.Basic
import Pivotal.Fspiop.Errors
import Pivotal.Js.Date
import Pivotal.Numeric.Digits

/-! Identifiers that sort by the time they were made: a time and random bytes, in base 32. -/
namespace Ulid
open Fspiop (JsError)

def alphabet : List Char := "0123456789ABCDEFGHJKMNPQRSTVWXYZ".toList

def timePartLength : ℕ := 10

def randomPartLength : ℕ := 16

def randomBytesLength : ℕ := 10

def mask : ℤ := 31

def shift : ℕ := 5

def maxTimestamp : ℤ := 2 ^ 48 - 1

/-- `ALPHABET.charAt`, the empty string beyond the alphabet. -/
def charAt (index : ℤ) : List Char := alphabet[index.toNat]?.toList

/-- The buffer is filled from its end. -/
def toBase32 (value : ℤ) : ℕ → List Char
  | 0 => []
  | count + 1 => toBase32 (value >>> shift) count ++ charAt (value.land mask)

/-- What the bytes of the random source are folded into. -/
def randomValue (random : List UInt8) : ℤ :=
  random.foldl (fun value byte => (value <<< (8 : ℕ)).lor (byte.toNat : ℤ)) 0

/-- The two parts of an identifier, for the values that they stand for. -/
def text (timestamp random : ℤ) : String :=
  String.ofList (toBase32 timestamp timePartLength ++ toBase32 random randomPartLength)

def overflow : JsError := .plain ⟨"Error", "ULID timestamp overflow.", none, none⟩

def generate (now : Js.Date) (random : List UInt8) : Except JsError String :=
  if now > maxTimestamp then .error overflow else .ok (text now (randomValue random))

/-- The sign of a digit. -/
def sign (digit : ℕ) : Char := alphabet.getD digit '0'

theorem charAt_of_lt {digit : ℕ} (h : digit < 32) : charAt digit = [sign digit] := by
  have hlength : digit < alphabet.length := h
  rw [charAt, sign, Int.toNat_natCast, List.getElem?_eq_getElem hlength,
    List.getD_eq_getElem _ _ hlength]
  rfl

theorem sign_lt_iff (i j : ℕ) (hi : i < 32) (hj : j < 32) : sign i < sign j ↔ i < j := by
  have hall : (List.range 32).all fun i => (List.range 32).all fun j =>
      decide (sign i < sign j ↔ i < j) := by decide
  simp only [List.all_eq_true, List.mem_range, decide_eq_true_eq] at hall
  exact hall i hi j hj

theorem sign_inj_iff (i j : ℕ) (hi : i < 32) (hj : j < 32) : sign i = sign j ↔ i = j := by
  have hij := sign_lt_iff i j hi hj
  have hji := sign_lt_iff j i hj hi
  refine ⟨fun h => ?_, fun h => h ▸ rfl⟩
  simp only [h, lt_irrefl, false_iff, not_lt] at hij hji
  exact le_antisymm hji hij

/-- The loop writes the digits of the value to base 32. -/
theorem toBase32_eq (value count : ℕ) :
    toBase32 value count = (Digits.fixed 32 count value).map sign := by
  induction count generalizing value with
  | zero => rfl
  | succ count ih =>
    have hshift : (value : ℤ) >>> shift = ((value / 32 : ℕ) : ℤ) :=
      congrArg Nat.cast (Nat.shiftRight_eq_div_pow value 5)
    have hmask : (value : ℤ).land mask = ((value % 32 : ℕ) : ℤ) :=
      congrArg Nat.cast (Nat.and_two_pow_sub_one_eq_mod value 5)
    rw [toBase32, hshift, hmask, ih, charAt_of_lt (Nat.mod_lt _ (by decide)), Digits.fixed,
      List.map_append, List.map_singleton]

theorem length_toBase32 (value count : ℕ) : (toBase32 value count).length = count := by
  rw [toBase32_eq, List.length_map, Digits.length_fixed]

theorem toBase32_inj_iff {count v w : ℕ} (hv : v < 32 ^ count) (hw : w < 32 ^ count) :
    toBase32 v count = toBase32 w count ↔ v = w := by
  rw [toBase32_eq, toBase32_eq, Digits.map_inj_iff sign_inj_iff
    (fun _ => Digits.lt_of_mem_fixed (by decide)) (fun _ => Digits.lt_of_mem_fixed (by decide)),
    Digits.fixed_inj_iff (by decide) hv hw]

theorem toBase32_lex_iff {count v w : ℕ} (hv : v < 32 ^ count) (hw : w < 32 ^ count) :
    List.Lex (· < ·) (toBase32 v count) (toBase32 w count) ↔ v < w := by
  rw [toBase32_eq, toBase32_eq, Digits.lex_map_iff sign_lt_iff sign_inj_iff
    (fun _ => Digits.lt_of_mem_fixed (by decide)) (fun _ => Digits.lt_of_mem_fixed (by decide)),
    Digits.lex_fixed_iff (by decide), Nat.mod_eq_of_lt hv, Nat.mod_eq_of_lt hw]

/-- The fold makes the number whose digits to base 256 are the bytes. -/
theorem randomValue_bytes (random : List UInt8) :
    ∃ value : ℕ, randomValue random = value ∧ value < 256 ^ random.length ∧
      Digits.fixed 256 random.length value = random.map UInt8.toNat := by
  induction random using List.reverseRecOn with
  | nil => exact ⟨0, rfl, by decide, rfl⟩
  | append_singleton random byte ih =>
    obtain ⟨value, hvalue, hlt, hdigits⟩ := ih
    have hbyte : byte.toNat < 2 ^ 8 := byte.toNat_lt
    have hstep : randomValue (random ++ [byte]) = ((value <<< 8 ||| byte.toNat : ℕ) : ℤ) := by
      rw [randomValue, List.foldl_append]
      change (randomValue random <<< (8 : ℕ)).lor (byte.toNat : ℤ) = _
      rw [hvalue]
      rfl
    have hor : value <<< 8 ||| byte.toNat = value * 256 + byte.toNat := by
      rw [← Nat.shiftLeft_add_eq_or_of_lt hbyte, Nat.shiftLeft_eq]
    have hhigh : (value * 256 + byte.toNat) / 256 = value := by omega
    have hlow : (value * 256 + byte.toNat) % 256 = byte.toNat := by omega
    refine ⟨_, hstep, ?_, ?_⟩
    · rw [hor, List.length_append, List.length_singleton, pow_succ]
      omega
    · rw [hor, List.length_append, List.length_singleton, Digits.fixed, hhigh, hlow, hdigits,
        List.map_append, List.map_singleton]

section Bytes

variable {random random' : List UInt8} {value value' : ℕ}

theorem lex_toNat_iff : List.Lex (· < ·) (random.map UInt8.toNat) (random'.map UInt8.toNat) ↔
    List.Lex (· < ·) random random' := by
  have hmap : ∀ bytes : List UInt8, (bytes.map UInt8.toNat).map UInt8.ofNat = bytes := by
    intro bytes
    rw [List.map_map]
    exact List.map_id'' (fun _ => UInt8.ofNat_toNat) bytes
  have hlt : ∀ bytes : List UInt8, ∀ digit ∈ bytes.map UInt8.toNat, digit < 256 := by
    intro bytes digit hdigit
    obtain ⟨byte, -, rfl⟩ := List.mem_map.mp hdigit
    exact byte.toNat_lt
  have hsign : ∀ i j : ℕ, i < 256 → j < 256 → (UInt8.ofNat i < UInt8.ofNat j ↔ i < j) := by
    intro i j hi hj
    rw [UInt8.lt_iff_toNat_lt, UInt8.toNat_ofNat', UInt8.toNat_ofNat', Nat.mod_eq_of_lt hi,
      Nat.mod_eq_of_lt hj]
  have hinj : ∀ i j : ℕ, i < 256 → j < 256 → (UInt8.ofNat i = UInt8.ofNat j ↔ i = j) := by
    intro i j hi hj
    rw [← UInt8.toNat_inj, UInt8.toNat_ofNat', UInt8.toNat_ofNat', Nat.mod_eq_of_lt hi,
      Nat.mod_eq_of_lt hj]
  rw [← Digits.lex_map_iff hsign hinj (hlt random) (hlt random'), hmap, hmap]

/-- Other bytes, as many of them, make another number. -/
theorem bytes_inj_iff (hlength : random.length = random'.length)
    (hlt : value < 256 ^ random.length) (hlt' : value' < 256 ^ random'.length)
    (h : Digits.fixed 256 random.length value = random.map UInt8.toNat)
    (h' : Digits.fixed 256 random'.length value' = random'.map UInt8.toNat) :
    value = value' ↔ random = random' := by
  have hbase : 0 < 256 := by decide
  rw [← Digits.fixed_inj_iff hbase hlt (hlength ▸ hlt'), h, hlength, h']
  exact (List.map_injective_iff.mpr fun _ _ => UInt8.toNat_inj.mp).eq_iff

/-- The numbers compare as the bytes do, from the first byte on. -/
theorem bytes_lex_iff (hlength : random.length = random'.length)
    (hlt : value < 256 ^ random.length) (hlt' : value' < 256 ^ random'.length)
    (h : Digits.fixed 256 random.length value = random.map UInt8.toNat)
    (h' : Digits.fixed 256 random'.length value' = random'.map UInt8.toNat) :
    value < value' ↔ List.Lex (· < ·) random random' := by
  have hbase : 0 < 256 := by decide
  have hdigits := Digits.lex_fixed_iff hbase random.length value value'
  rw [Nat.mod_eq_of_lt hlt, Nat.mod_eq_of_lt (hlength ▸ hlt'), h, hlength, h'] at hdigits
  rw [← hdigits, lex_toNat_iff]

end Bytes

section Order

variable {t t' r r' : ℕ}

theorem time_fits (ht : t < 2 ^ 48) : t < 32 ^ timePartLength := by
  simp only [timePartLength]
  omega

theorem random_fits (hr : r < 2 ^ 80) : r < 32 ^ randomPartLength := by
  simp only [randomPartLength]
  omega

theorem length_text (t r : ℕ) : (text t r).length = 26 := by
  rw [text, String.length_ofList, List.length_append, length_toBase32, length_toBase32]
  rfl

theorem text_inj_iff (ht : t < 2 ^ 48) (ht' : t' < 2 ^ 48) (hr : r < 2 ^ 80) (hr' : r' < 2 ^ 80) :
    text t r = text t' r' ↔ t = t' ∧ r = r' := by
  constructor
  · intro h
    obtain ⟨htime, hrandom⟩ := List.append_inj (String.ofList_injective h)
      (by rw [length_toBase32, length_toBase32])
    exact ⟨(toBase32_inj_iff (time_fits ht) (time_fits ht')).mp htime,
      (toBase32_inj_iff (random_fits hr) (random_fits hr')).mp hrandom⟩
  · rintro ⟨rfl, rfl⟩
    rfl

theorem text_lt_iff (ht : t < 2 ^ 48) (ht' : t' < 2 ^ 48) (hr : r < 2 ^ 80) (hr' : r' < 2 ^ 80) :
    text t r < text t' r' ↔ Prod.Lex (· < ·) (· < ·) (t, r) (t', r') := by
  have hlength : (toBase32 t timePartLength).length = (toBase32 t' timePartLength).length := by
    rw [length_toBase32, length_toBase32]
  have hlex : text t r < text t' r' ↔ List.Lex (· < ·)
      (toBase32 t timePartLength ++ toBase32 r randomPartLength)
      (toBase32 t' timePartLength ++ toBase32 r' randomPartLength) := by
    rw [String.lt_iff_toList_lt, text, text, String.toList_ofList, String.toList_ofList]
    rfl
  rw [hlex, Digits.lex_append_iff hlength, toBase32_lex_iff (time_fits ht) (time_fits ht'),
    toBase32_inj_iff (time_fits ht) (time_fits ht'),
    toBase32_lex_iff (random_fits hr) (random_fits hr'), Prod.lex_def]

theorem generate_of_bytes {random : List UInt8} (ht : t < 2 ^ 48)
    (hlength : random.length = randomBytesLength) :
    ∃ value : ℕ, randomValue random = value ∧ value < 2 ^ 80 ∧ value < 256 ^ random.length ∧
      Digits.fixed 256 random.length value = random.map UInt8.toNat ∧
      generate t random = .ok (text t value) := by
  obtain ⟨value, hvalue, hlt, hdigits⟩ := randomValue_bytes random
  have hnow : ¬ (t : Js.Date) > maxTimestamp := by
    change ¬ (t : ℤ) > 2 ^ 48 - 1
    omega
  refine ⟨value, hvalue, ?_, hlt, hdigits, ?_⟩
  · rw [hlength, randomBytesLength] at hlt
    omega
  · rw [generate, if_neg hnow, hvalue]

/-- Identifiers are as long as each other, are the same exactly for the same time and randomness,
and sort as these do: for the values, and for the bytes that the random source gives. Every call
that has not run out of milliseconds returns one of them. -/
theorem identifiers_sort (ht : t < 2 ^ 48) (ht' : t' < 2 ^ 48) :
    (∀ r r' : ℕ, r < 2 ^ 80 → r' < 2 ^ 80 →
      (text t r).length = 26 ∧ (text t r = text t' r' ↔ t = t' ∧ r = r') ∧
        (text t r < text t' r' ↔ Prod.Lex (· < ·) (· < ·) (t, r) (t', r'))) ∧
    ∀ random random' : List UInt8, random.length = randomBytesLength →
      random'.length = randomBytesLength →
      ∃ r r' : ℕ, randomValue random = r ∧ randomValue random' = r' ∧ r < 2 ^ 80 ∧ r' < 2 ^ 80 ∧
        generate t random = .ok (text t r) ∧ generate t' random' = .ok (text t' r') ∧
        (text t r = text t' r' ↔ t = t' ∧ random = random') ∧
        (text t r < text t' r' ↔
          Prod.Lex (· < ·) (List.Lex (· < ·)) (t, random) (t', random')) := by
  refine ⟨fun r r' hr hr' => ?_, fun random random' hlength hlength' => ?_⟩
  · exact ⟨length_text t r, text_inj_iff ht ht' hr hr', text_lt_iff ht ht' hr hr'⟩
  obtain ⟨r, hvalue, hr, hlt, hdigits, hgenerate⟩ := generate_of_bytes ht hlength
  obtain ⟨r', hvalue', hr', hlt', hdigits', hgenerate'⟩ := generate_of_bytes ht' hlength'
  have hsame : random.length = random'.length := hlength.trans hlength'.symm
  refine ⟨r, r', hvalue, hvalue', hr, hr', hgenerate, hgenerate', ?_, ?_⟩
  · rw [text_inj_iff ht ht' hr hr', bytes_inj_iff hsame hlt hlt' hdigits hdigits']
  · rw [text_lt_iff ht ht' hr hr', Prod.lex_def, Prod.lex_def,
      bytes_lex_iff hsame hlt hlt' hdigits hdigits']

/-- Two calls in one millisecond whose bytes differ in the last but one. -/
def sampleBytes (byte : UInt8) : List UInt8 := [255, 0, 7, 7, 7, 7, 7, 7, byte, 255]

theorem identifiers_sort_sample : ∃ id id' : String,
    generate 1 (sampleBytes 1) = .ok id ∧ generate 1 (sampleBytes 2) = .ok id' ∧ id < id' := by
  have ht : 1 < 2 ^ 48 := by decide
  obtain ⟨r, r', -, -, -, -, hid, hid', -, hlt⟩ := (identifiers_sort ht ht).2 (sampleBytes 1)
    (sampleBytes 2) rfl rfl
  refine ⟨_, _, hid, hid', hlt.mpr (Prod.Lex.right _ ?_)⟩
  decide

end Order

end Ulid
