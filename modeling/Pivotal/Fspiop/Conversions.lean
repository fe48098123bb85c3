import Pivotal.Fspiop.Rounding

/-! From minor units to a text and back, and the amounts that are admitted. -/
namespace Fspiop.FspiopMoney
open Js Js.Number

/-- An amount that is a whole number of minor units is serialised in every mode. -/
theorem serialize_of_whole {amount : String} {scale : ℕ} {q : ℚ} {z : ℤ}
    (h : rational amount.toList = some q) (hz : q * 10 ^ scale = z) (hnonneg : 0 ≤ z)
    (mode : FspiopRoundingMode) : serialize amount scale mode = checkUint64 z := by
  obtain ⟨d, hd, -⟩ := Option.map_eq_some_iff.mp h
  have hform := (matchDecimal_wellFormed hd).trimmed
  have hvalue : d.trimmed.value = q := Option.some.inj ((rational_of_match hd).symm.trans h)
  have htie : ¬ d.trimmed.OddTie scale mode := by
    intro htie
    have hscaled := d.trimmed.value_scaled scale
    rw [hvalue, hz, htie.half] at hscaled
    have htwice : 2 * z = 2 * d.trimmed.units scale + 1 ∨
        2 * z = -(2 * d.trimmed.units scale + 1) := by
      split_ifs at hscaled
      · right
        have hcast : (2 * z : ℚ) = -(2 * d.trimmed.units scale + 1) := by linarith
        exact_mod_cast hcast
      · left
        have hcast : (2 * z : ℚ) = 2 * d.trimmed.units scale + 1 := by linarith
        exact_mod_cast hcast
    omega
  rw [serialize_of_some hd, hform.scaleAmount_of_not_oddTie scale htie, hvalue, hz,
    mode.round_of_nonneg hnonneg]
  rfl

theorem toDigits_lead (n : ℕ) (h : (Nat.toDigits 10 n).head? = some '0') :
    Nat.toDigits 10 n = ['0'] := by
  induction n using Nat.strongRecOn with
  | _ n ih =>
    rw [Nat.toDigits_eq_if (by decide)] at h ⊢
    by_cases hsmall : n < 10
    · rw [if_pos hsmall] at h ⊢
      simpa using h
    · rw [if_neg hsmall, List.head?_append_of_ne_nil _ (digits_spec (n / 10)).2.2] at h
      have hzero := ih (n / 10) (by omega) h
      have hvalue := (digits_spec (n / 10)).2.1
      rw [hzero] at hvalue
      have hnone : n / 10 = 0 := hvalue.symm
      omega

theorem matchDecimal_point {i f : List Char} (hi : i.all isDigit = true) (hf : f.all isDigit = true)
    (hne : i ≠ []) (hne' : f ≠ []) : matchDecimal (i ++ '.' :: f) = some ⟨none, i, f⟩ := by
  obtain ⟨c, cs, rfl⟩ := List.exists_cons_of_ne_nil hne
  have hhead : isDigit c = true := by
    rw [List.all_cons, Bool.and_eq_true] at hi
    exact hi.1
  have hsign : matchSign ((c :: cs) ++ '.' :: f) = (none, (c :: cs) ++ '.' :: f) :=
    @matchSign_toList none _ (by simp) (by simp [hhead])
  have hdigits := @takeDigits_of_stop (c :: cs) ('.' :: f) hi (by simp; decide)
  unfold matchDecimal
  rw [hsign]
  dsimp only
  rw [hdigits.1, hdigits.2, if_neg hne]
  simp [matchFraction, hne', hf]

/-- The text of digits of which the last are a fraction. -/
theorem normalizeAmount_point {i f : List Char} (hi : i.all isDigit = true)
    (hf : f.all isDigit = true) (hne : i ≠ []) (hne' : f ≠ []) :
    normalizeAmount (String.ofList (i ++ '.' :: f)) =
      String.ofList (Decimal.render ⟨none, i, dropTrailingZeros f⟩) := by
  have hsolid : ∀ c ∈ i ++ '.' :: f, isWhiteSpace c = false := by
    intro c hc
    rcases List.mem_append.mp hc with hc | hc
    · exact isWhiteSpace_digit (List.all_eq_true.mp hi c hc)
    · rcases List.mem_cons.mp hc with rfl | hc
      · rfl
      · exact isWhiteSpace_digit (List.all_eq_true.mp hf c hc)
  have hmatch : matchDecimal (trimChars (i ++ '.' :: f)) = some ⟨none, i, f⟩ := by
    rw [trimChars_of_solid hsolid, matchDecimal_point hi hf hne hne']
  rw [normalizeAmount, String.toList_ofList, normalizeChars_of_some hmatch]
  simp [Decimal.render, dropTrailingZeros_idem]

theorem decimalValue_dropTrailingZeros (i f : List Char) :
    decimalValue i (dropTrailingZeros f) = decimalValue i f := by
  obtain ⟨k, hk⟩ := exists_trailing_zeros f
  conv_rhs => rw [hk, decimalValue_append_zeros]

theorem length_dropTrailingZeros_le (f : List Char) : (dropTrailingZeros f).length ≤ f.length :=
  (List.rdropWhile_prefix _ _).length_le

/-- Digits of which the last `scale` are a fraction. -/
theorem decimalValue_of_digits {i f : List Char} {n : ℕ} (h : digitsValue (i ++ f) = n) :
    decimalValue i f = n / 10 ^ f.length := by
  have hpos : (10 : ℚ) ^ f.length ≠ 0 := by positivity
  rw [eq_div_iff hpos, decimalValue_mul_pow, h]

/-- What a number of minor units is written as: its digits with a point before the last ones. -/
theorem deserialize_spec (n scale : ℕ) : ∃ i f,
    deserialize n scale = .ok (String.ofList (Decimal.render ⟨none, i, f⟩)) ∧ Canonical i f ∧
      f.length ≤ scale ∧ decimalValue i f = n / 10 ^ scale := by
  obtain ⟨hall, hvalue, hne⟩ := digits_spec n
  have hlead := toDigits_lead n
  have hrepr : (n : ℤ).toNat.repr.toList = Nat.toDigits 10 n := by simp [Nat.repr]
  have hnonneg : ¬ (n : ℤ) < 0 := by omega
  unfold deserialize
  rw [if_neg hnonneg, hrepr]
  generalize Nat.toDigits 10 n = digits at hall hvalue hne hlead ⊢
  dsimp only
  rcases Nat.eq_zero_or_pos scale with rfl | hscale
  · use digits, []
    rw [if_pos rfl]
    refine ⟨by simp [Decimal.render, dropTrailingZeros], ⟨hall, hne, hlead, rfl, by simp⟩, by simp, ?_⟩
    exact decimalValue_of_digits (by rw [List.append_nil, hvalue])
  · rw [if_neg (by omega)]
    by_cases hshort : digits.length ≤ scale
    · have hminor : (padStart scale digits).all isDigit = true := by
        have hzero : isDigit '0' = true := by decide
        simp [padStart, hall, hzero]
      have hlength : (padStart scale digits).length = scale := by
        rw [padStart, List.length_append, List.length_replicate]
        omega
      have hne' : padStart scale digits ≠ [] := by
        intro hnil
        rw [hnil] at hlength
        simp at hlength
        omega
      have hvalue' : digitsValue (['0'] ++ padStart scale digits) = n := by
        rw [padStart, digitsValue_append, digitsValue_append, digitsValue_zeros, hvalue]
        simp [digitsValue, digitValue]
      have hnormal := @normalizeAmount_point ['0'] _ (by decide) hminor (by simp) hne'
      rw [if_pos hshort]
      refine ⟨['0'], dropTrailingZeros (padStart scale digits), congrArg Except.ok hnormal,
        ⟨by decide, by simp, fun _ => rfl, dropTrailingZeros_digits hminor,
          getLast?_dropTrailingZeros _⟩, ?_, ?_⟩
      · have hle := length_dropTrailingZeros_le (padStart scale digits)
        omega
      · rw [decimalValue_dropTrailingZeros, decimalValue_of_digits hvalue', hlength]
    · have hmajor : (digits.take (digits.length - scale)).all isDigit = true :=
        List.all_eq_true.mpr fun c hc => List.all_eq_true.mp hall c (List.mem_of_mem_take hc)
      have hminor := digits_drop hall (digits.length - scale)
      have hlength : (digits.drop (digits.length - scale)).length = scale := by
        rw [List.length_drop]
        omega
      have hne' : digits.drop (digits.length - scale) ≠ [] := by
        intro hnil
        rw [hnil] at hlength
        simp at hlength
        omega
      have hmajor' : digits.take (digits.length - scale) ≠ [] := by
        intro hnil
        have hzero := congrArg List.length hnil
        simp at hzero
        omega
      -- The first digit is no zero, since there is another one.
      have hhead : (digits.take (digits.length - scale)).head? ≠ some '0' := by
        intro hhead
        rw [List.head?_take, if_neg (by omega)] at hhead
        have hone := congrArg List.length (hlead hhead)
        simp at hone
        omega
      have hvalue' : digitsValue (digits.take (digits.length - scale) ++
          digits.drop (digits.length - scale)) = n := by
        rw [List.take_append_drop, hvalue]
      have hnormal := normalizeAmount_point hmajor hminor hmajor' hne'
      rw [if_neg hshort]
      refine ⟨_, dropTrailingZeros (digits.drop (digits.length - scale)),
        congrArg Except.ok hnormal, ⟨hmajor, hmajor', fun h => absurd h hhead,
          dropTrailingZeros_digits hminor, getLast?_dropTrailingZeros _⟩, ?_, ?_⟩
      · have hle := length_dropTrailingZeros_le (digits.drop (digits.length - scale))
        omega
      · rw [decimalValue_dropTrailingZeros, decimalValue_of_digits hvalue', hlength]

/-- A text of digits with no zero in front and none at the end of its fraction denotes their
value. -/
theorem rational_canonical {i f : List Char} (h : Canonical i f) :
    rational (Decimal.render ⟨none, i, f⟩) = some (decimalValue i f) := by
  have hform : Decimal.WellFormed ⟨none, i, f⟩ :=
    ⟨by simp, h.integerPart, h.nonempty, h.fractionPart⟩
  unfold rational
  rw [trimChars_of_solid (render_solid hform), matchDecimal_render hform,
    dropTrailingZeros_of_last h.last]
  simp [Decimal.value, Decimal.factor]

/-- The text of an amount of minor units denotes it in major units, has no zero that says nothing,
and is read back in every rounding mode. -/
theorem deserialize_round_trip (amount : UInt64) (scale : ℕ) : ∃ i f,
    deserialize amount.toNat scale = .ok (String.ofList (Decimal.render ⟨none, i, f⟩)) ∧
      Canonical i f ∧
      rational (Decimal.render ⟨none, i, f⟩) = some ((amount.toNat : ℚ) / 10 ^ scale) ∧
      ∀ mode, serialize (String.ofList (Decimal.render ⟨none, i, f⟩)) scale mode =
        .ok amount.toNat := by
  obtain ⟨i, f, htext, hcanonical, -, hvalue⟩ := deserialize_spec amount.toNat scale
  have hrational : rational (Decimal.render ⟨none, i, f⟩) = some ((amount.toNat : ℚ) / 10 ^ scale) := by
    rw [rational_canonical hcanonical, hvalue]
  have hwhole : (amount.toNat / 10 ^ scale : ℚ) * 10 ^ scale = (amount.toNat : ℤ) := by
    rw [div_mul_cancel₀ _ (by positivity)]
    exact (Int.cast_natCast _).symm
  use i, f, htext, hcanonical, hrational
  intro mode
  have hlimit := amount.toNat_lt
  rw [serialize_of_whole (by rw [String.toList_ofList, hrational]) hwhole (by omega) mode,
    checkUint64_ok_iff]
  unfold uint64Max
  omega

end Fspiop.FspiopMoney

namespace Fspiop

/-- `validate`, of the texts. -/
def FspiopAmountConstraint.validate (value : String) : Bool :=
  let amount := FspiopMoney.normalizeAmount value
  amount ≠ "" && FspiopMoney.amountPattern amount.toList

namespace FspiopMoney
open Js Js.Number

theorem validate_ok_iff {money validated : Money} :
    validate money = .ok validated ↔ ∃ profile,
      FspiopCurrencies.get money.currency = some profile ∧
        scaleOf (normalizeAmount money.amount).toList ≤ profile.scale ∧
        validated = { money with amount := normalizeAmount money.amount } := by
  unfold validate
  dsimp only
  cases FspiopCurrencies.get money.currency with
  | none => simp [throw, throwThe, MonadExceptOf.throw]
  | some profile =>
    rw [unless_ok_iff, pure_ok_iff, not_lt]
    simp [eq_comm]

theorem scaleOf_render {d : Decimal} (h : d.Plain) : scaleOf d.render = d.fractionPart.length := by
  have hdigits : ∀ c ∈ d.integerPart, decide (c ≠ '.') = true := by
    intro c hc
    have hdigit := List.all_eq_true.mp h.canonical.integerPart c hc
    apply decide_eq_true
    intro heq
    rw [heq] at hdigit
    exact absurd hdigit (by decide)
  unfold scaleOf Decimal.render
  rw [h.sign, dropTrailingZeros_of_last h.canonical.last]
  dsimp only
  rw [Option.toList_none, List.nil_append, List.dropWhile_append_of_pos hdigits]
  by_cases hnil : d.fractionPart = []
  · simp [hnil]
  · simp [hnil]

/-- The minor units of a decimal with no more places than they have. -/
theorem Decimal.Plain.value_mul_pow {d : Decimal} {scale : ℕ} (h : d.Plain)
    (hscale : d.fractionPart.length ≤ scale) : d.value * 10 ^ scale = d.units scale := by
  have hrest : d.rest scale = 0 := by
    rw [Decimal.rest, List.drop_eq_nil_of_le hscale]
    simp [decimalValue, digitsValue]
  have hsign : d.negative = false := by simp [Decimal.negative, h.sign]
  rw [Decimal.value_scaled, hsign, if_neg (by simp), hrest, add_zero]

theorem Decimal.Plain.units_zero_le {d : Decimal} (h : d.Plain) : d.units 0 ≤ uint64Max := by
  have hlt := digitsValue_lt h.canonical.integerPart
  have hpow : 10 ^ d.integerPart.length ≤ 10 ^ 18 :=
    Nat.pow_le_pow_right (by decide) h.integerLength
  have hunits : d.units 0 = digitsValue d.integerPart := by simp [Decimal.units, digitsValue]
  rw [hunits]
  unfold uint64Max
  omega

/-- An amount that is admitted and has no more decimal places than its currency is a whole number of
minor units, and only if 64 bits do not hold that number is it not serialised. -/
theorem serialize_admitted {money validated : Money}
    (hadmitted : FspiopAmountConstraint.validate money.amount = true)
    (hvalid : validate money = .ok validated) : ∃ profile q, ∃ z : ℤ,
      FspiopCurrencies.get validated.currency = some profile ∧
      rational money.amount.toList = some q ∧ q * 10 ^ profile.scale = z ∧ 0 ≤ z ∧
      (profile.scale = 0 → z ≤ uint64Max) ∧
      ∀ mode, serialize validated.amount profile.scale mode =
        if z ≤ uint64Max then .ok z
        else .error (.ofMessage "Amount is greater than uint64 max.") := by
  obtain ⟨profile, hprofile, hscale, rfl⟩ := validate_ok_iff.mp hvalid
  obtain ⟨-, hpattern⟩ := Bool.and_eq_true_iff.mp hadmitted
  obtain ⟨d, hd, hrender⟩ := plain_of_amountPattern hpattern
  have hrational := rational_render hd
  rw [← hrender, scaleOf_render hd] at hscale
  rw [hrender] at hrational
  have hunits := d.units_nonneg profile.scale
  have hwhole := hd.value_mul_pow hscale
  use profile, d.value, d.units profile.scale, hprofile
  rw [← rational_normalizeAmount]
  use hrational, hwhole, hunits
  constructor
  · intro hzero
    rw [hzero]
    exact hd.units_zero_le
  · intro mode
    rw [serialize_of_whole hrational hwhole hunits mode, checkUint64, if_neg (not_lt.mpr hunits)]
    split_ifs <;> first | rfl | omega

theorem serialize_admitted_sample : ∃ profile q, ∃ z : ℤ,
    FspiopCurrencies.get "USD" = some profile ∧
      rational " 12.50".toList = some q ∧ q * 10 ^ profile.scale = z ∧ 0 ≤ z ∧
      (profile.scale = 0 → z ≤ uint64Max) ∧
      ∀ mode, serialize "12.5" profile.scale mode =
        if z ≤ uint64Max then .ok z
        else .error (.ofMessage "Amount is greater than uint64 max.") :=
  @serialize_admitted ⟨"USD", " 12.50"⟩ ⟨"USD", "12.5"⟩ (by decide) (by decide)

/-- Eighteen digits are admitted, and two more are too many. -/
theorem not_serialize_admitted : ¬ ∀ (money validated : Money) (profile : FspiopCurrencyProfile),
    FspiopAmountConstraint.validate money.amount = true → validate money = .ok validated →
      FspiopCurrencies.get validated.currency = some profile →
        ∃ z, serialize validated.amount profile.scale = .ok z := by
  intro h
  obtain ⟨z, hz⟩ := h ⟨"USD", "999999999999999999"⟩ ⟨"USD", "999999999999999999"⟩ ⟨"USD", 2⟩
    (by decide) (by decide) (by decide)
  have herror : serialize "999999999999999999" 2 =
      .error (.ofMessage "Amount is greater than uint64 max.") := by decide +kernel
  rw [herror] at hz
  cases hz

end FspiopMoney
end Fspiop
