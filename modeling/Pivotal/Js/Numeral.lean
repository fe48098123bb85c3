import Mathlib.Tactic.Linarith
import Pivotal.Js.Number
import Pivotal.Js.Text

/-! `Number`: its values, and the texts it reads. -/
namespace Js

/-- Finite values have a sign, also zero. -/
inductive Number where
  | nan
  | infinite (negative : Bool)
  | finite (negative : Bool) (q : ℚ) (valid : 0 ≤ q ∧ Number.nearest q = q)
  deriving DecidableEq

namespace Number

/-- The value nearest to a rational, of which the sign is apart. -/
def round (negative : Bool) (q : ℚ) (h : 0 ≤ q) : Number :=
  if 2 ^ 1024 ≤ nearest q then infinite negative
  else finite negative (nearest q) ⟨nearest_nonneg h, nearest_nearest h⟩

/-- `[eE][+-]?\\d+`, or nothing. -/
def matchExponent : List Char → Option ℤ
  | [] => some 0
  | c :: cs =>
    if c = 'e' ∨ c = 'E' then
      let (negative, digits) := match cs with
        | '-' :: ds => (true, ds)
        | '+' :: ds => (false, ds)
        | ds => (false, ds)
      if digits ≠ [] ∧ digits.all isDigit = true then
        some (if negative then -(digitsValue digits : ℤ) else digitsValue digits)
      else none
    else none

/-- The digits after a point, and what follows them. -/
def matchFraction : List Char → List Char × List Char
  | '.' :: cs => (cs.takeWhile isDigit, cs.dropWhile isDigit)
  | cs => ([], cs)

/-- The value of digits of which the last `scale` are a fraction. -/
def decimalValue (integerPart fractionPart : List Char) : ℚ :=
  (digitsValue (integerPart ++ fractionPart) : ℚ) * 10 ^ (-(fractionPart.length : ℤ))

theorem decimalValue_nonneg (integerPart fractionPart : List Char) :
    0 ≤ decimalValue integerPart fractionPart :=
  mul_nonneg (by positivity) (unit_pos _).le

/-- A decimal literal without a sign. -/
def matchUnsigned (negative : Bool) (cs : List Char) : Number :=
  if cs = "Infinity".toList then infinite negative
  else
    let integerPart := cs.takeWhile isDigit
    let (fractionPart, rest) := matchFraction (cs.dropWhile isDigit)
    if integerPart = [] ∧ fractionPart = [] then nan
    else match matchExponent rest with
      | none => nan
      | some e => round negative (decimalValue integerPart fractionPart * 10 ^ e)
        (mul_nonneg (decimalValue_nonneg _ _) (unit_pos e).le)

def ofRadix (radix : ℕ) (cs : List Char) : Number :=
  match parseRadix radix cs with
  | none => nan
  | some n => round false n.toNat (by positivity)

/-- `Number(text)` -/
def ofText (text : String) : Number :=
  match trimChars text.toList with
  | [] => round false 0 le_rfl
  | '0' :: 'x' :: cs => ofRadix 16 cs
  | '0' :: 'X' :: cs => ofRadix 16 cs
  | '0' :: 'o' :: cs => ofRadix 8 cs
  | '0' :: 'O' :: cs => ofRadix 8 cs
  | '0' :: 'b' :: cs => ofRadix 2 cs
  | '0' :: 'B' :: cs => ofRadix 2 cs
  | '-' :: cs => matchUnsigned true cs
  | '+' :: cs => matchUnsigned false cs
  | cs => matchUnsigned false cs

/-- `Number.parseInt(text, 10)`: a sign, and the digits up to anything else. -/
def parseInt (text : String) : Number :=
  let (negative, cs) := match trimStart text.toList with
    | '-' :: cs => (true, cs)
    | '+' :: cs => (false, cs)
    | cs => (false, cs)
  match cs.takeWhile isDigit with
  | [] => nan
  | digits => round negative (digitsValue digits) (by positivity)

/-- The whole part, of which the bitwise operators keep the last 32 bits. -/
def toInteger : Number → ℤ
  | finite negative q _ => if negative then -⌊q⌋ else ⌊q⌋
  | _ => 0

end Number

/-! Runs of digits and their values. -/

theorem digitsValue_append (ds es : List Char) :
    digitsValue (ds ++ es) = digitsValue ds * 10 ^ es.length + digitsValue es := by
  induction es using List.reverseRecOn with
  | nil => simp [digitsValue]
  | append_singleton es c ih =>
    rw [← List.append_assoc, digitsValue_snoc, digitsValue_snoc, ih, List.length_append,
      List.length_singleton, pow_succ]
    ring

@[simp] theorem digitsValue_zeros (k : ℕ) : digitsValue (List.replicate k '0') = 0 := by
  induction k with
  | zero => rfl
  | succ k ih =>
    rw [List.replicate_succ', digitsValue_snoc, ih]
    rfl

theorem digitsValue_lt {ds : List Char} (h : ds.all isDigit = true) :
    digitsValue ds < 10 ^ ds.length := by
  induction ds using List.reverseRecOn with
  | nil => simp [digitsValue]
  | append_singleton ds c ih =>
    simp only [List.all_append, List.all_cons, List.all_nil, Bool.and_true, Bool.and_eq_true] at h
    have hlast := digitValue_lt h.2
    have hrest := ih h.1
    rw [digitsValue_snoc, List.length_append, List.length_singleton, pow_succ]
    omega

theorem digitChar_digitValue {c : Char} (h : isDigit c = true) : Nat.digitChar (digitValue c) = c := by
  obtain ⟨hlow, hhigh⟩ := isDigit_bounds h
  have hdigit : c = Char.ofNat c.toNat := (Char.ofNat_toNat c).symm
  rw [hdigit]
  generalize c.toNat = n at hlow hhigh
  interval_cases n <;> rfl

/-- Digits without a leading zero are those that their value is printed with. -/
theorem toDigits_digitsValue {ds : List Char} (h : ds.all isDigit = true) (hne : ds ≠ [])
    (hlead : ds.head? = some '0' → ds = ['0']) : Nat.toDigits 10 (digitsValue ds) = ds := by
  induction ds using List.reverseRecOn with
  | nil => exact absurd rfl hne
  | append_singleton ds c ih =>
    simp only [List.all_append, List.all_cons, List.all_nil, Bool.and_true, Bool.and_eq_true] at h
    have hlast := digitValue_lt h.2
    rw [digitsValue_snoc]
    by_cases hds : ds = []
    · subst hds
      have hvalue : 10 * digitsValue [] + digitValue c = digitValue c := by simp [digitsValue]
      rw [hvalue, Nat.toDigits_of_lt_base hlast, digitChar_digitValue h.2]
      rfl
    · have hlead' : ds.head? ≠ some '0' := by
        intro hhead
        have hwhole : (ds ++ [c]).head? = some '0' := by
          rw [List.head?_append, hhead]
          rfl
        have hlength := congrArg List.length (hlead hwhole)
        simp only [List.length_append, List.length_singleton] at hlength
        have hpos := List.length_pos_iff.mpr hds
        omega
      have hprefix := ih h.1 hds fun hhead => absurd hhead hlead'
      -- The digits before the last one do not say zero.
      have hpos : 0 < digitsValue ds := by
        rcases Nat.eq_zero_or_pos (digitsValue ds) with hzero | hpos
        · rw [hzero] at hprefix
          exact absurd (by rw [← hprefix]; rfl) hlead'
        · exact hpos
      rw [← Nat.toDigits_append_toDigits (by decide) hpos hlast, hprefix,
        Nat.toDigits_of_lt_base hlast, digitChar_digitValue h.2]

theorem digitsValue_concat_zero (ds : List Char) : digitsValue (ds ++ ['0']) = 10 * digitsValue ds :=
  digitsValue_snoc ds '0'

/-- Digits that say zero are all zeros. -/
theorem digitsValue_eq_zero_iff {ds : List Char} (h : ds.all isDigit = true) :
    digitsValue ds = 0 ↔ ∀ c ∈ ds, c = '0' := by
  induction ds using List.reverseRecOn with
  | nil => simp [digitsValue]
  | append_singleton ds c ih =>
    simp only [List.all_append, List.all_cons, List.all_nil, Bool.and_true, Bool.and_eq_true] at h
    have hzero : digitValue c = 0 ↔ c = '0' := by
      constructor
      · intro hvalue
        have hchar := digitChar_digitValue h.2
        rw [hvalue] at hchar
        exact hchar.symm
      · intro hc
        subst hc
        rfl
    rw [digitsValue_snoc, List.forall_mem_append, List.forall_mem_singleton, ← ih h.1, ← hzero]
    omega

/-- As many digits with the same value are the same digits. -/
theorem digitsValue_inj {ds es : List Char} (hds : ds.all isDigit = true)
    (hes : es.all isDigit = true) (hlength : ds.length = es.length)
    (h : digitsValue ds = digitsValue es) : ds = es := by
  induction ds using List.reverseRecOn generalizing es with
  | nil => exact (List.eq_nil_of_length_eq_zero hlength.symm).symm
  | append_singleton ds c ih =>
    cases es using List.reverseRecOn with
    | nil => simp at hlength
    | append_singleton es c' =>
      simp only [List.all_append, List.all_cons, List.all_nil, Bool.and_true,
        Bool.and_eq_true] at hds hes
      have hlast := digitValue_lt hds.2
      have hlast' := digitValue_lt hes.2
      simp only [List.length_append, List.length_singleton] at hlength
      rw [digitsValue_snoc, digitsValue_snoc] at h
      have hinit : ds = es := ih hds.1 hes.1 (by omega) (by omega)
      have hchar : digitValue c = digitValue c' := by omega
      rw [hinit, ← digitChar_digitValue hds.2, ← digitChar_digitValue hes.2, hchar]

namespace Number

theorem decimalValue_mul_pow (integerPart fractionPart : List Char) :
    decimalValue integerPart fractionPart * 10 ^ fractionPart.length =
      digitsValue (integerPart ++ fractionPart) := by
  unfold decimalValue
  rw [mul_assoc, zpow_neg, zpow_natCast, inv_mul_cancel₀ (by positivity), mul_one]

/-- The whole units of a decimal, and what is left of one. -/
theorem decimalValue_eq_add (integerPart fractionPart : List Char) :
    decimalValue integerPart fractionPart =
      digitsValue integerPart + decimalValue [] fractionPart := by
  have hpos : (0 : ℚ) < 10 ^ fractionPart.length := by positivity
  apply mul_right_cancel₀ hpos.ne'
  rw [add_mul, decimalValue_mul_pow, decimalValue_mul_pow, digitsValue_append]
  push_cast
  simp

theorem decimalValue_concat_zero (integerPart fractionPart : List Char) :
    decimalValue integerPart (fractionPart ++ ['0']) = decimalValue integerPart fractionPart := by
  have hpos : (0 : ℚ) < 10 ^ (fractionPart ++ ['0']).length := by positivity
  apply mul_right_cancel₀ hpos.ne'
  rw [decimalValue_mul_pow, ← List.append_assoc, digitsValue_concat_zero, List.length_append,
    List.length_singleton, pow_succ, ← mul_assoc, decimalValue_mul_pow]
  push_cast
  ring

/-- Zeros at the end of a fraction say nothing. -/
theorem decimalValue_append_zeros (integerPart fractionPart : List Char) (k : ℕ) :
    decimalValue integerPart (fractionPart ++ List.replicate k '0') =
      decimalValue integerPart fractionPart := by
  induction k with
  | zero => simp
  | succ k ih =>
    rw [List.replicate_succ', ← List.append_assoc, decimalValue_concat_zero, ih]

/-- The first digits of a fraction as units. -/
theorem decimalValue_append_mul_pow (integerPart kept rest : List Char) :
    decimalValue integerPart (kept ++ rest) * 10 ^ kept.length =
      digitsValue (integerPart ++ kept) + decimalValue [] rest := by
  have hpos : (0 : ℚ) < 10 ^ rest.length := by positivity
  apply mul_right_cancel₀ hpos.ne'
  rw [mul_assoc, ← pow_add, ← List.length_append, decimalValue_mul_pow, add_mul,
    decimalValue_mul_pow, ← List.append_assoc, digitsValue_append]
  push_cast
  simp

theorem decimalValue_lt_one {fractionPart : List Char} (h : fractionPart.all isDigit = true) :
    decimalValue [] fractionPart < 1 := by
  have hpos : (0 : ℚ) < 10 ^ fractionPart.length := by positivity
  have hlt := digitsValue_lt h
  apply lt_of_mul_lt_mul_right _ hpos.le
  rw [decimalValue_mul_pow, one_mul, List.nil_append]
  exact_mod_cast hlt

/-- Digits with no zero in front, unless they are just that, and none at the end of the fraction. -/
structure Canonical (i f : List Char) : Prop where
  integerPart : i.all isDigit = true
  nonempty : i ≠ []
  lead : i.head? = some '0' → i = ['0']
  fractionPart : f.all isDigit = true
  last : f.getLast? ≠ some '0'

/-- A fraction that says no more than another one is that fraction, if it has no zero at its end. -/
theorem fraction_eq_of_length_le {f f' : List Char} (hf : f.all isDigit = true)
    (hf' : f'.all isDigit = true) (hlast' : f'.getLast? ≠ some '0') (hle : f.length ≤ f'.length)
    (h : decimalValue [] f = decimalValue [] f') : f = f' := by
  obtain ⟨k, hk⟩ := Nat.exists_eq_add_of_le hle
  have hlength : (f ++ List.replicate k '0').length = f'.length := by simp [hk]
  have hdigits : (f ++ List.replicate k '0').all isDigit = true := by
    have hzero : isDigit '0' = true := by decide
    simp [hf, hzero]
  have hvalue : digitsValue (f ++ List.replicate k '0') = digitsValue f' := by
    rw [← decimalValue_append_zeros [] f k] at h
    have hscaled := decimalValue_mul_pow [] f'
    rw [← h, ← hlength, decimalValue_mul_pow] at hscaled
    exact Nat.cast_injective hscaled
  have heq := digitsValue_inj hdigits hf' hlength hvalue
  cases k with
  | zero => simpa using heq
  | succ k =>
    rw [List.replicate_succ', ← List.append_assoc] at heq
    rw [← heq] at hlast'
    simp at hlast'

/-- There is one canonical way to write a value. -/
theorem Canonical.unique {i i' f f' : List Char} (hc : Canonical i f) (hc' : Canonical i' f')
    (h : decimalValue i f = decimalValue i' f') : i = i' ∧ f = f' := by
  rw [decimalValue_eq_add i, decimalValue_eq_add i'] at h
  have hnonneg := decimalValue_nonneg [] f
  have hnonneg' := decimalValue_nonneg [] f'
  have hlt := decimalValue_lt_one hc.fractionPart
  have hlt' := decimalValue_lt_one hc'.fractionPart
  have hwhole : digitsValue i = digitsValue i' := by
    have hle : (digitsValue i : ℚ) < digitsValue i' + 1 := by linarith
    have hge : (digitsValue i' : ℚ) < digitsValue i + 1 := by linarith
    have hle' : digitsValue i < digitsValue i' + 1 := by exact_mod_cast hle
    have hge' : digitsValue i' < digitsValue i + 1 := by exact_mod_cast hge
    omega
  have hrest : decimalValue [] f = decimalValue [] f' := by
    rw [hwhole] at h
    linarith
  constructor
  · rw [← toDigits_digitsValue hc.integerPart hc.nonempty hc.lead, hwhole,
      toDigits_digitsValue hc'.integerPart hc'.nonempty hc'.lead]
  · rcases Nat.le_total f.length f'.length with hle | hle
    · exact fraction_eq_of_length_le hc.fractionPart hc'.fractionPart hc'.last hle hrest
    · exact (fraction_eq_of_length_le hc'.fractionPart hc.fractionPart hc.last hle hrest.symm).symm

end Number

end Js
