import Mathlib.Data.Rat.Floor
import Pivotal.Fspiop.Amounts
import Pivotal.Numeric.Rounding

/-! What `serialize` returns against the exact rounding of the amount in minor units. -/
namespace Fspiop
open Js Js.Number Numeric

/-- The rounding that a mode is named after; `unnecessary` rounds whole numbers only. -/
def FspiopRoundingMode.round : FspiopRoundingMode → ℚ → Option ℤ
  | .up, q => some (byMagnitude Int.ceil q)
  | .down, q => some (byMagnitude Int.floor q)
  | .ceiling, q => some ⌈q⌉
  | .floor, q => some ⌊q⌋
  | .halfUp, q => some (byMagnitude (fun m => ⌊m + 1 / 2⌋) q)
  | .halfDown, q => some (byMagnitude (fun m => ⌈m - 1 / 2⌉) q)
  | .halfEven, q => some (roundHalfEven q)
  | .unnecessary, q => if q = ⌊q⌋ then some ⌊q⌋ else none

/-- Whether a magnitude of so many units and a remainder is rounded to the next unit. -/
def FspiopRoundingMode.roundsUp (mode : FspiopRoundingMode) (negative odd : Bool) (f : ℚ) : Bool :=
  match mode with
  | .up => 0 < f
  | .down => false
  | .ceiling => !negative && 0 < f
  | .floor => negative && 0 < f
  | .halfUp => 1 / 2 ≤ f
  | .halfDown => 1 / 2 < f
  | .halfEven => 1 / 2 < f || f = 1 / 2 && odd
  | .unnecessary => false

namespace FspiopRoundingMode

variable {mode : FspiopRoundingMode} {n : ℤ} {f : ℚ}

theorem round_units (hmode : mode ≠ .unnecessary) (hn : 0 ≤ n) (hf : 0 ≤ f) (hf' : f < 1) :
    mode.round (n + f) = some (if mode.roundsUp false (n % 2 ≠ 0) f then n + 1 else n) := by
  have hcast : (0 : ℚ) ≤ n := by exact_mod_cast hn
  have hnonneg : 0 ≤ (n : ℚ) + f := by positivity
  cases mode with
  | up => simp only [round, roundsUp, byMagnitude_of_nonneg _ hnonneg, ceil_units hf hf',
      decide_eq_true_eq]
  | down => simp only [round, roundsUp, byMagnitude_of_nonneg _ hnonneg, floor_units hf hf',
      Bool.false_eq_true, if_false]
  | ceiling => simp only [round, roundsUp, ceil_units hf hf', Bool.not_false, Bool.true_and,
      decide_eq_true_eq]
  | floor => simp only [round, roundsUp, floor_units hf hf', Bool.false_and, Bool.false_eq_true,
      if_false]
  | halfUp => simp only [round, roundsUp, byMagnitude_of_nonneg _ hnonneg, floor_half_units hf hf',
      decide_eq_true_eq]
  | halfDown => simp only [round, roundsUp, byMagnitude_of_nonneg _ hnonneg, ceil_half_units hf hf',
      decide_eq_true_eq]
  | halfEven => simp only [round, roundsUp, roundHalfEven_units hf hf', Bool.or_eq_true,
      Bool.and_eq_true, decide_eq_true_eq]
  | unnecessary => exact absurd rfl hmode

theorem round_neg_units (hmode : mode ≠ .unnecessary) (hn : 0 ≤ n) (hf : 0 ≤ f) (hf' : f < 1) :
    mode.round (-(n + f)) = some (-if mode.roundsUp true (n % 2 ≠ 0) f then n + 1 else n) := by
  have hcast : (0 : ℚ) ≤ n := by exact_mod_cast hn
  have hnonneg : 0 ≤ (n : ℚ) + f := by positivity
  cases mode with
  | up =>
    have hzero : ⌈(0 : ℚ)⌉ = 0 := Int.ceil_zero
    simp only [round, roundsUp, byMagnitude_neg hzero hnonneg, ceil_units hf hf',
      decide_eq_true_eq]
  | down =>
    have hzero : ⌊(0 : ℚ)⌋ = 0 := Int.floor_zero
    simp only [round, roundsUp, byMagnitude_neg hzero hnonneg, floor_units hf hf',
      Bool.false_eq_true, if_false]
  | ceiling => simp only [round, roundsUp, Int.ceil_neg, floor_units hf hf', Bool.not_true,
      Bool.false_and, Bool.false_eq_true, if_false]
  | floor => simp only [round, roundsUp, Int.floor_neg, ceil_units hf hf', Bool.true_and,
      decide_eq_true_eq]
  | halfUp =>
    have hneg := @byMagnitude_neg ℚ _ _ _ (fun m => ⌊m + 1 / 2⌋) (by norm_num) _ hnonneg
    simp only [round, roundsUp, hneg, floor_half_units hf hf', decide_eq_true_eq]
  | halfDown =>
    have hneg := @byMagnitude_neg ℚ _ _ _ (fun m => ⌈m - 1 / 2⌉) (by norm_num [Int.ceil_eq_iff]) _
      hnonneg
    simp only [round, roundsUp, hneg, ceil_half_units hf hf', decide_eq_true_eq]
  | halfEven => simp only [round, roundsUp, roundHalfEven_neg, roundHalfEven_units hf hf',
      Bool.or_eq_true, Bool.and_eq_true, decide_eq_true_eq]
  | unnecessary => exact absurd rfl hmode

theorem roundsUp_zero (mode : FspiopRoundingMode) (negative odd : Bool) :
    mode.roundsUp negative odd 0 = false := by
  cases mode <;> simp [roundsUp]

theorem round_of_nonneg (mode : FspiopRoundingMode) (hn : 0 ≤ n) : mode.round n = some n := by
  by_cases hmode : mode = .unnecessary
  · subst hmode
    simp [round]
  · have hunits := round_units hmode hn le_rfl (f := 0) zero_lt_one
    rw [roundsUp_zero, add_zero] at hunits
    exact hunits

end FspiopRoundingMode

namespace FspiopMoney

theorem hasNonZero_iff {cs : List Char} (h : cs.all isDigit = true) :
    hasNonZero cs = true ↔ 0 < digitsValue cs := by
  rw [Nat.pos_iff_ne_zero, Ne, digitsValue_eq_zero_iff h, hasNonZero, List.any_eq_true]
  constructor
  · rintro ⟨c, hc, hdigit⟩ hzero
    rw [hzero c hc] at hdigit
    exact absurd hdigit (by decide)
  · intro hnot
    obtain ⟨c, hc, hne⟩ := not_forall₂.mp hnot
    use c, hc
    have hbounds := isDigit_bounds (List.all_eq_true.mp h c hc)
    have hlow : c.toNat ≠ 48 := fun hzero => hne (Char.ext (UInt32.toNat_inj.mp hzero))
    simp only [Bool.and_eq_true, decide_eq_true_eq, Char.le_def, UInt32.le_iff_toNat_le]
    exact ⟨by have := hbounds.1; show 49 ≤ c.toNat; omega, hbounds.2⟩

variable {c : Char} {cs : List Char}

theorem digitsValue_cons (c : Char) (cs : List Char) :
    digitsValue (c :: cs) = digitValue c * 10 ^ cs.length + digitsValue cs := by
  have happend := digitsValue_append [c] cs
  simpa [digitsValue] using happend

/-- A fraction against a half, in units of its last place. -/
theorem half_mul_pow (c : Char) (cs : List Char) :
    1 / 2 * (10 : ℚ) ^ (c :: cs).length = (5 * 10 ^ cs.length : ℕ) := by
  push_cast
  rw [List.length_cons, pow_succ]
  ring

theorem half_le_iff (hcs : cs.all isDigit = true) :
    1 / 2 ≤ decimalValue [] (c :: cs) ↔ 5 ≤ digitValue c := by
  have hpos : (0 : ℚ) < 10 ^ (c :: cs).length := by positivity
  have hlt := digitsValue_lt hcs
  rw [← mul_le_mul_iff_left₀ hpos, half_mul_pow, decimalValue_mul_pow, Nat.cast_le, List.nil_append,
    digitsValue_cons]
  constructor
  · intro hle
    by_contra hsmall
    have hmul : digitValue c * 10 ^ cs.length ≤ 4 * 10 ^ cs.length :=
      Nat.mul_le_mul_right _ (by omega)
    omega
  · intro hfive
    have hmul : 5 * 10 ^ cs.length ≤ digitValue c * 10 ^ cs.length := Nat.mul_le_mul_right _ hfive
    omega

/-- The first digit of a fraction tells whether it is more than a half, with what follows in case
of a five. -/
theorem half_lt_iff (hcs : cs.all isDigit = true) :
    1 / 2 < decimalValue [] (c :: cs) ↔
      5 < digitValue c ∨ digitValue c = 5 ∧ 0 < digitsValue cs := by
  have hpos : (0 : ℚ) < 10 ^ (c :: cs).length := by positivity
  have hlt := digitsValue_lt hcs
  rw [← mul_lt_mul_iff_left₀ hpos, half_mul_pow, decimalValue_mul_pow, Nat.cast_lt, List.nil_append,
    digitsValue_cons]
  rcases lt_trichotomy (digitValue c) 5 with hless | heq | hmore
  · have hmul : digitValue c * 10 ^ cs.length ≤ 4 * 10 ^ cs.length :=
      Nat.mul_le_mul_right _ (by omega)
    omega
  · rw [heq]
    omega
  · have hmul : 6 * 10 ^ cs.length ≤ digitValue c * 10 ^ cs.length := Nat.mul_le_mul_right _ hmore
    omega

/-- The last digit that is kept, where there is one. -/
def lastKeptDigit (keptFraction : List Char) : ℕ := (keptFraction.getLast?.map digitValue).getD 0

theorem decimalValue_pos_iff {cs : List Char} (h : cs.all isDigit = true) :
    0 < decimalValue [] cs ↔ hasNonZero cs = true := by
  have hpos : (0 : ℚ) < 10 ^ cs.length := by positivity
  rw [hasNonZero_iff h, ← mul_lt_mul_iff_left₀ hpos, zero_mul, decimalValue_mul_pow, Nat.cast_pos,
    List.nil_append]

/-- Unless digits are lost that must not be, the magnitude is rounded by its digits. -/
theorem shouldRoundUp_eq {negative : Bool} {kept discarded : List Char} {mode : FspiopRoundingMode}
    (h : discarded.all isDigit = true) (hmode : mode ≠ .unnecessary) :
    shouldRoundUp (if negative then -1 else 1) kept discarded mode =
      .ok (mode.roundsUp negative (lastKeptDigit kept % 2 ≠ 0) (decimalValue [] discarded)) := by
  unfold shouldRoundUp
  cases hnonzero : hasNonZero discarded with
  | false =>
    have hzero : decimalValue [] discarded = 0 := by
      have hnot := mt (decimalValue_pos_iff h).mp (by simp [hnonzero])
      exact le_antisymm (not_lt.mp hnot) (decimalValue_nonneg [] discarded)
    rw [hzero, FspiopRoundingMode.roundsUp_zero]
    rfl
  | true =>
    have hpos := (decimalValue_pos_iff h).mpr hnonzero
    cases discarded with
    | nil => simp [hasNonZero] at hnonzero
    | cons c cs =>
      rw [List.all_cons, Bool.and_eq_true] at h
      have htail : hasNonZero cs = true ↔ 0 < digitsValue cs := hasNonZero_iff h.2
      have hhalf := half_lt_iff (c := c) h.2
      have heven : decimalValue [] (c :: cs) = 1 / 2 ↔ digitValue c = 5 ∧ ¬ 0 < digitsValue cs := by
        have hle := half_le_iff (c := c) h.2
        constructor
        · intro heq
          rw [heq] at hle hhalf
          simp only [le_refl, lt_irrefl, true_iff, false_iff] at hle hhalf
          omega
        · intro hfive
          exact le_antisymm (not_lt.mp fun hlt => by have := hhalf.mp hlt; omega)
            (hle.mpr (by omega))
      cases mode with
      | up => simp [FspiopRoundingMode.roundsUp, hpos]
      | down => rfl
      | ceiling => cases negative <;> simp [FspiopRoundingMode.roundsUp, hpos]
      | floor => cases negative <;> simp [FspiopRoundingMode.roundsUp, hpos]
      | halfUp => simp [FspiopRoundingMode.roundsUp, ← half_le_iff (c := c) h.2]
      | halfDown =>
        have hup : (decide (5 < digitValue c) || (decide (digitValue c = 5) && hasNonZero cs)) =
            decide (1 / 2 < decimalValue [] (c :: cs)) := by
          rw [Bool.eq_iff_iff]
          simp only [Bool.or_eq_true, Bool.and_eq_true, decide_eq_true_eq, htail]
          exact hhalf.symm
        exact congrArg Except.ok hup
      | halfEven =>
        have hup : (decide (5 < digitValue c) || (decide (digitValue c = 5) &&
              (hasNonZero cs || decide (lastKeptDigit kept % 2 ≠ 0)))) =
            (decide (1 / 2 < decimalValue [] (c :: cs)) ||
              decide (decimalValue [] (c :: cs) = 1 / 2) &&
                decide (lastKeptDigit kept % 2 ≠ 0)) := by
          rw [Bool.eq_iff_iff]
          simp only [Bool.or_eq_true, Bool.and_eq_true, decide_eq_true_eq, htail, hhalf, heven]
          omega
        exact congrArg Except.ok hup
      | unnecessary => exact absurd rfl hmode

section Kept

variable (fractionPart : List Char) (scale : ℕ)

theorem length_kept : ((padEnd scale fractionPart).take scale).length = scale := by
  rw [padEnd, List.length_take, List.length_append, List.length_replicate]
  omega

theorem kept_append_discarded :
    (padEnd scale fractionPart).take scale ++ fractionPart.drop scale = padEnd scale fractionPart := by
  have hdrop : (padEnd scale fractionPart).drop scale = fractionPart.drop scale := by
    rw [padEnd, List.drop_append]
    simp
  rw [← hdrop, List.take_append_drop]

/-- An amount in minor units is so many whole ones, of the digits that are kept, and a remainder. -/
theorem decimalValue_scaled (integerPart : List Char) :
    decimalValue integerPart fractionPart * 10 ^ scale =
      ((digitsValue integerPart * 10 ^ scale + digitsValue ((padEnd scale fractionPart).take scale) :
          ℤ) : ℚ) + decimalValue [] (fractionPart.drop scale) := by
  have hpadded : decimalValue integerPart fractionPart =
      decimalValue integerPart (padEnd scale fractionPart) := by
    rw [padEnd, decimalValue_append_zeros]
  have hscaled := decimalValue_append_mul_pow integerPart ((padEnd scale fractionPart).take scale)
    (fractionPart.drop scale)
  rw [kept_append_discarded, ← hpadded, digitsValue_append, length_kept] at hscaled
  rw [hscaled]
  push_cast
  ring

/-- The parity of the last digit that is kept is that of the whole units, if a digit is kept. -/
theorem lastKeptDigit_parity (integerPart : List Char) (hscale : 0 < scale) :
    lastKeptDigit ((padEnd scale fractionPart).take scale) % 2 =
      (digitsValue integerPart * 10 ^ scale +
        digitsValue ((padEnd scale fractionPart).take scale)) % 2 := by
  have hlength := length_kept fractionPart scale
  generalize (padEnd scale fractionPart).take scale = kept at hlength ⊢
  induction kept using List.reverseRecOn with
  | nil =>
    rw [List.length_nil] at hlength
    omega
  | append_singleton kept c _ =>
    have hten : digitsValue integerPart * 10 ^ scale =
        2 * (digitsValue integerPart * 5 * 10 ^ (scale - 1)) := by
      obtain ⟨scale, rfl⟩ := Nat.exists_eq_add_of_lt hscale
      rw [Nat.add_sub_cancel, pow_succ]
      ring
    rw [hten, digitsValue_snoc, lastKeptDigit, List.getLast?_concat, Option.map_some, Option.getD_some]
    omega

end Kept

/-- The whole minor units of an amount, without its sign. -/
def Decimal.units (d : Decimal) (scale : ℕ) : ℤ :=
  digitsValue d.integerPart * 10 ^ scale + digitsValue ((padEnd scale d.fractionPart).take scale)

/-- What is left of a minor unit. -/
def Decimal.rest (d : Decimal) (scale : ℕ) : ℚ := decimalValue [] (d.fractionPart.drop scale)

def Decimal.negative (d : Decimal) : Bool := d.sign = some '-'

theorem digits_drop {cs : List Char} (h : cs.all isDigit = true) (n : ℕ) :
    (cs.drop n).all isDigit = true :=
  List.all_eq_true.mpr fun c hc => List.all_eq_true.mp h c (List.mem_of_mem_drop hc)

section Scaled

variable {d : Decimal} (scale : ℕ) {mode : FspiopRoundingMode}

theorem Decimal.factor_eq (d : Decimal) : d.factor = if d.negative then -1 else 1 := by
  simp [Decimal.factor, Decimal.negative]

theorem Decimal.units_nonneg (d : Decimal) (scale : ℕ) : 0 ≤ d.units scale := by
  unfold Decimal.units
  positivity

theorem Decimal.rest_nonneg (d : Decimal) (scale : ℕ) : 0 ≤ d.rest scale :=
  decimalValue_nonneg [] _

theorem Decimal.WellFormed.rest_lt_one (h : d.WellFormed) : d.rest scale < 1 :=
  decimalValue_lt_one (digits_drop h.fractionPart scale)

theorem Decimal.value_scaled (d : Decimal) (scale : ℕ) :
    d.value * 10 ^ scale = if d.negative then -(d.units scale + d.rest scale)
      else d.units scale + d.rest scale := by
  rw [Decimal.value, mul_assoc, decimalValue_scaled, Decimal.factor_eq, Decimal.units, Decimal.rest]
  split_ifs <;> push_cast <;> ring

/-- The exact rounding, of the units and the rest. -/
theorem Decimal.WellFormed.round_eq (h : d.WellFormed) (hmode : mode ≠ .unnecessary) :
    mode.round (d.value * 10 ^ scale) =
      some ((if mode.roundsUp d.negative (d.units scale % 2 ≠ 0) (d.rest scale) then
        d.units scale + 1 else d.units scale) * d.factor) := by
  have hrest := d.rest_nonneg scale
  have hlt := h.rest_lt_one scale
  have hunits := d.units_nonneg scale
  rw [Decimal.value_scaled, Decimal.factor_eq]
  cases d.negative with
  | false =>
    simp only [Bool.false_eq_true, if_false, mul_one]
    exact FspiopRoundingMode.round_units hmode hunits hrest hlt
  | true =>
    simp only [if_true, mul_neg, mul_one]
    exact FspiopRoundingMode.round_neg_units hmode hunits hrest hlt

/-- The rounding of the program, of the units and the rest; what it knows of the parity is that of
the last digit that it keeps of the fraction. -/
theorem Decimal.WellFormed.scaleAmount_eq (h : d.WellFormed) (hmode : mode ≠ .unnecessary) :
    scaleAmount d.factor d.integerPart d.fractionPart scale mode =
      .ok ((if mode.roundsUp d.negative
          (lastKeptDigit ((padEnd scale d.fractionPart).take scale) % 2 ≠ 0) (d.rest scale) then
        d.units scale + 1 else d.units scale) * d.factor) := by
  unfold scaleAmount
  dsimp only
  by_cases hnil : d.fractionPart.drop scale = []
  · have hzero : d.rest scale = 0 := by simp [Decimal.rest, hnil, decimalValue, digitsValue]
    rw [if_pos hnil, hzero, FspiopRoundingMode.roundsUp_zero]
    rfl
  · have hround := @shouldRoundUp_eq d.negative ((padEnd scale d.fractionPart).take scale) _ mode
      (digits_drop h.fractionPart scale) hmode
    rw [← Decimal.factor_eq] at hround
    rw [if_neg hnil, hround]
    rfl

theorem Decimal.WellFormed.scaleAmount_unnecessary (h : d.WellFormed) :
    scaleAmount d.factor d.integerPart d.fractionPart scale .unnecessary =
      if d.rest scale = 0 then .ok (d.units scale * d.factor)
      else .error (.ofMessage "Rounding is necessary for the submitted amount.") := by
  have hpos := decimalValue_pos_iff (digits_drop h.fractionPart scale)
  have hzero : d.rest scale = 0 ↔ hasNonZero (d.fractionPart.drop scale) = false := by
    rw [← Bool.not_eq_true, ← hpos]
    exact ⟨fun heq => heq.not_gt, fun hnot => le_antisymm (not_lt.mp hnot) (d.rest_nonneg scale)⟩
  unfold scaleAmount
  dsimp only
  by_cases hnil : d.fractionPart.drop scale = []
  · rw [if_pos hnil, if_pos (hzero.mpr (by rw [hnil]; rfl))]
    rfl
  · rw [if_neg hnil, shouldRoundUp]
    cases hnonzero : hasNonZero (d.fractionPart.drop scale) with
    | false =>
      rw [if_pos (hzero.mpr hnonzero)]
      rfl
    | true =>
      have hne : ¬ d.rest scale = 0 := by
        intro heq
        rw [hzero.mp heq] at hnonzero
        cases hnonzero
      rw [if_neg hne]
      rfl

theorem Decimal.WellFormed.round_unnecessary (h : d.WellFormed) :
    FspiopRoundingMode.unnecessary.round (d.value * 10 ^ scale) =
      if d.rest scale = 0 then some (d.units scale * d.factor) else none := by
  have hnonneg := d.rest_nonneg scale
  have hlt := h.rest_lt_one scale
  rw [FspiopRoundingMode.round]
  by_cases hzero : d.rest scale = 0
  · have hwhole : d.value * 10 ^ scale = ((d.units scale * d.factor : ℤ) : ℚ) := by
      rw [Decimal.value_scaled, hzero, Decimal.factor_eq]
      split_ifs <;> push_cast <;> ring
    rw [if_pos hzero, hwhole, Int.floor_intCast, if_pos rfl]
  · rw [if_neg hzero, if_neg]
    intro hwhole
    have hpos := lt_of_le_of_ne hnonneg (Ne.symm hzero)
    generalize ⌊d.value * 10 ^ scale⌋ = z at hwhole
    rw [Decimal.value_scaled] at hwhole
    -- Between the units and the next one there is no whole number, on either side of zero.
    split_ifs at hwhole
    · have hlow : ((-d.units scale - 1 : ℤ) : ℚ) < z := by
        push_cast
        linarith
      have hhigh : (z : ℚ) < ((-d.units scale : ℤ) : ℚ) := by
        push_cast
        linarith
      have hlow' : -d.units scale - 1 < z := by exact_mod_cast hlow
      have hhigh' : z < -d.units scale := by exact_mod_cast hhigh
      omega
    · have hlow : ((d.units scale : ℤ) : ℚ) < z := by linarith
      have hhigh : (z : ℚ) < ((d.units scale + 1 : ℤ) : ℚ) := by
        push_cast
        linarith
      have hlow' : d.units scale < z := by exact_mod_cast hlow
      have hhigh' : z < d.units scale + 1 := by exact_mod_cast hhigh
      omega

/-- A half is left of an odd number of units, of which no digit is a digit of the fraction. -/
structure Decimal.OddTie (d : Decimal) (scale : ℕ) (mode : FspiopRoundingMode) : Prop where
  halfEven : mode = .halfEven
  noFraction : scale = 0
  half : d.rest scale = 1 / 2
  odd : d.units scale % 2 = 1

/-- Elsewhere the program rounds as the mode says. -/
theorem Decimal.WellFormed.scaleAmount_of_not_oddTie (h : d.WellFormed)
    (htie : ¬ d.OddTie scale mode) :
    scaleAmount d.factor d.integerPart d.fractionPart scale mode =
      match mode.round (d.value * 10 ^ scale) with
      | some z => .ok z
      | none => .error (.ofMessage "Rounding is necessary for the submitted amount.") := by
  by_cases hmode : mode = .unnecessary
  · subst hmode
    rw [h.scaleAmount_unnecessary, h.round_unnecessary]
    split_ifs <;> rfl
  · rw [h.scaleAmount_eq scale hmode, h.round_eq scale hmode]
    have hup : mode.roundsUp d.negative
          (lastKeptDigit ((padEnd scale d.fractionPart).take scale) % 2 ≠ 0) (d.rest scale) =
        mode.roundsUp d.negative (d.units scale % 2 ≠ 0) (d.rest scale) := by
      rcases Nat.eq_zero_or_pos scale with hzero | hpos
      · cases mode with
        | halfEven =>
          have heven : d.rest scale = 1 / 2 → ¬ d.units scale % 2 ≠ 0 := by
            intro hhalf hodd
            exact htie ⟨rfl, hzero, hhalf, by omega⟩
          have hlast : lastKeptDigit ((padEnd scale d.fractionPart).take scale) = 0 := by
            rw [hzero]
            rfl
          rw [Bool.eq_iff_iff]
          simp only [FspiopRoundingMode.roundsUp, Bool.or_eq_true, Bool.and_eq_true,
            decide_eq_true_eq, hlast]
          by_cases hhalf : d.rest scale = 1 / 2
          · simp only [hhalf, heven hhalf]
            simp
          · simp only [hhalf, false_and]
        | _ => rfl
      · have hparity := lastKeptDigit_parity d.fractionPart scale d.integerPart hpos
        have hsame : lastKeptDigit ((padEnd scale d.fractionPart).take scale) % 2 ≠ 0 ↔
            d.units scale % 2 ≠ 0 := by
          rw [hparity, Decimal.units]
          norm_cast
        simp only [hsame]
    rw [hup]

/-- On a tie of odd units it leaves them, though they should become even. -/
theorem Decimal.OddTie.scaleAmount_eq (htie : d.OddTie scale mode) (h : d.WellFormed) :
    scaleAmount d.factor d.integerPart d.fractionPart scale mode = .ok (d.units scale * d.factor) ∧
      mode.round (d.value * 10 ^ scale) = some ((d.units scale + 1) * d.factor) := by
  obtain ⟨rfl, rfl, hhalf, hodd⟩ := htie
  have hmode : FspiopRoundingMode.halfEven ≠ .unnecessary := by decide
  have hlast : lastKeptDigit ((padEnd 0 d.fractionPart).take 0) = 0 := rfl
  rw [h.scaleAmount_eq 0 hmode, h.round_eq 0 hmode, hhalf, hlast]
  simp [FspiopRoundingMode.roundsUp, hodd]

end Scaled

/-- The last checks of `serialize`. -/
def checkUint64 (scaledAmount : ℤ) : Except JsError ℤ :=
  if scaledAmount < 0 then .error (.ofMessage "Amount must be greater than or equal to zero.")
  else if uint64Max < scaledAmount then .error (.ofMessage "Amount is greater than uint64 max.")
  else .ok scaledAmount

section Serialize

variable {amount : String} {scale : ℕ} {mode : FspiopRoundingMode} {d : Decimal}

/-- A decimal without the zeros at the end of its fraction. -/
def Decimal.trimmed (d : Decimal) : Decimal :=
  { d with fractionPart := dropTrailingZeros d.fractionPart }

theorem Decimal.WellFormed.trimmed (h : d.WellFormed) : d.trimmed.WellFormed where
  sign := h.sign
  integerPart := h.integerPart
  nonempty := h.nonempty
  fractionPart := dropTrailingZeros_digits h.fractionPart

theorem matchDecimal_prepared (amount : List Char) :
    matchDecimal (normalizeChars (trimChars amount)) =
      (matchDecimal (trimChars amount)).map Decimal.trimmed := by
  rw [matchDecimal_normalizeChars, trimChars_idem]
  rfl

theorem serialize_of_none (h : rational amount.toList = none) :
    serialize amount scale mode =
      .error (.ofMessage "Amount must be a valid decimal number.") := by
  have hnone : matchDecimal (trimChars amount.toList) = none := Option.map_eq_none_iff.mp h
  unfold serialize parseDecimalAmount
  rw [matchDecimal_prepared, hnone]
  rfl

theorem serialize_of_some (h : matchDecimal (trimChars amount.toList) = some d) :
    serialize amount scale mode =
      scaleAmount d.trimmed.factor d.trimmed.integerPart d.trimmed.fractionPart scale mode >>=
        checkUint64 := by
  unfold serialize parseDecimalAmount
  rw [matchDecimal_prepared, h]
  rfl

/-- `serialize` returns the exact rounding of the amount in minor units, and throws exactly if there
is none that fits: the text is no decimal, digits would be lost that must not be, or the rounded
amount is negative or more than 64 bits hold. -/
structure SerializesExactly (amount : String) (scale : ℕ) (mode : FspiopRoundingMode) : Prop where
  returns : ∀ z, serialize amount scale mode = .ok z →
    ∃ q, rational amount.toList = some q ∧ mode.round (q * 10 ^ scale) = some z
  throws : (∃ e, serialize amount scale mode = .error e) ↔
    rational amount.toList = none ∨
      ∃ q, rational amount.toList = some q ∧ (mode.round (q * 10 ^ scale) = none ∨
        ∃ z, mode.round (q * 10 ^ scale) = some z ∧ (z < 0 ∨ uint64Max < z))

/-- The amount is halfway between an odd number of units, not more than 64 bits hold, and the next;
the units have no fraction, and the tie is to go to the even number. -/
def OddTie (amount : String) (scale : ℕ) (mode : FspiopRoundingMode) : Prop :=
  mode = .halfEven ∧ scale = 0 ∧
    ∃ n : ℤ, 0 ≤ n ∧ n ≤ uint64Max ∧ n % 2 = 1 ∧ rational amount.toList = some ((n : ℚ) + 1 / 2)

theorem rational_of_match (h : matchDecimal (trimChars amount.toList) = some d) :
    rational amount.toList = some d.trimmed.value := by
  rw [rational, h, Option.map_some]
  exact congrArg some (value_dropTrailingZeros d).symm

theorem checkUint64_ok_iff {z z' : ℤ} :
    checkUint64 z = .ok z' ↔ z' = z ∧ 0 ≤ z ∧ z ≤ uint64Max := by
  unfold checkUint64
  split_ifs with hneg hbig
  · simp
    omega
  · simp
    omega
  · simp only [Except.ok.injEq]
    omega

theorem checkUint64_error_iff {z : ℤ} :
    (∃ e, checkUint64 z = .error e) ↔ z < 0 ∨ uint64Max < z := by
  unfold checkUint64
  split_ifs with hneg hbig
  · simp [hneg]
  · simp [hbig]
  · simp
    omega

/-- A rounding of the program that is checked. -/
theorem serializesExactly_of_round (h : matchDecimal (trimChars amount.toList) = some d)
    (hscale : scaleAmount d.trimmed.factor d.trimmed.integerPart d.trimmed.fractionPart scale mode =
      match mode.round (d.trimmed.value * 10 ^ scale) with
      | some z => .ok z
      | none => .error (.ofMessage "Rounding is necessary for the submitted amount.")) :
    SerializesExactly amount scale mode := by
  have hrational := rational_of_match h
  have hserialize := @serialize_of_some amount scale mode d h
  rw [hscale] at hserialize
  cases hround : mode.round (d.trimmed.value * 10 ^ scale) with
  | none =>
    rw [hround] at hserialize
    constructor
    · intro z hz
      rw [hserialize] at hz
      cases hz
    · exact ⟨fun _ => .inr ⟨_, hrational, .inl hround⟩, fun _ => ⟨_, hserialize⟩⟩
  | some z =>
    have hcheck : serialize amount scale mode = checkUint64 z := by
      rw [hserialize, hround]
      rfl
    constructor
    · intro z' hz'
      rw [hcheck, checkUint64_ok_iff] at hz'
      rw [hz'.1]
      exact ⟨_, hrational, hround⟩
    · rw [hcheck, checkUint64_error_iff, hrational]
      simp [hround]

/-- The tie in the text and in what it matches. -/
theorem oddTie_iff (h : matchDecimal (trimChars amount.toList) = some d) :
    OddTie amount scale mode ↔ d.trimmed.OddTie scale mode ∧ d.trimmed.negative = false ∧
      d.trimmed.units scale ≤ uint64Max := by
  have hform := (matchDecimal_wellFormed h).trimmed
  have hrational := rational_of_match h
  have hvalue := d.trimmed.value_scaled scale
  have hrest := d.trimmed.rest_nonneg scale
  have hlt := hform.rest_lt_one scale
  have hunits : (0 : ℚ) ≤ d.trimmed.units scale := by
    exact_mod_cast d.trimmed.units_nonneg scale
  constructor
  · intro htie
    obtain ⟨rfl, rfl, n, hn, hmax, hodd, hn'⟩ := htie
    have hn₀ : (0 : ℚ) ≤ n := by exact_mod_cast hn
    rw [hrational] at hn'
    rw [Option.some.inj hn', pow_zero, mul_one] at hvalue
    cases hsign : d.trimmed.negative with
    | true =>
      rw [hsign, if_pos rfl] at hvalue
      linarith
    | false =>
      rw [hsign, if_neg (by simp)] at hvalue
      have hlow : (n : ℚ) < d.trimmed.units 0 + 1 := by linarith
      have hhigh : (d.trimmed.units 0 : ℚ) < n + 1 := by linarith
      have hlow' : n < d.trimmed.units 0 + 1 := by exact_mod_cast hlow
      have hhigh' : d.trimmed.units 0 < n + 1 := by exact_mod_cast hhigh
      have hsame : d.trimmed.units 0 = n := by omega
      rw [hsame] at hvalue
      exact ⟨⟨rfl, rfl, by linarith, by omega⟩, rfl, by omega⟩
  · rintro ⟨⟨rfl, rfl, hhalf, hodd⟩, hsign, hmax⟩
    use rfl, rfl, d.trimmed.units 0, d.trimmed.units_nonneg 0, hmax, hodd
    rw [hsign, if_neg (by simp), hhalf, pow_zero, mul_one] at hvalue
    rw [hrational, hvalue]

/-- `serialize` rounds exactly if the amount is no tie between an odd number of units and the next
that is to become even where the units have no fraction. -/
theorem serializes_exactly_iff (amount : String) (scale : ℕ) (mode : FspiopRoundingMode) :
    SerializesExactly amount scale mode ↔ ¬ OddTie amount scale mode := by
  cases h : matchDecimal (trimChars amount.toList) with
  | none =>
    have hrational : rational amount.toList = none := by rw [rational, h, Option.map_none]
    have hserialize := @serialize_of_none amount scale mode hrational
    constructor
    · rintro - ⟨-, -, n, -, -, -, hn⟩
      rw [hrational] at hn
      cases hn
    · intro _
      constructor
      · intro z hz
        rw [hserialize] at hz
        cases hz
      · exact ⟨fun _ => .inl hrational, fun _ => ⟨_, hserialize⟩⟩
  | some d =>
    have hform := (matchDecimal_wellFormed h).trimmed
    have hrational := rational_of_match h
    rw [oddTie_iff h]
    by_cases htie : d.trimmed.OddTie scale mode
    · obtain ⟨hprogram, hround⟩ := htie.scaleAmount_eq scale hform
      have hserialize := @serialize_of_some amount scale mode d h
      rw [hprogram] at hserialize
      have hcheck : serialize amount scale mode =
          checkUint64 (d.trimmed.units scale * d.trimmed.factor) := hserialize
      have hunits := d.trimmed.units_nonneg scale
      have hodd := htie.odd
      by_cases hfits : d.trimmed.negative = false ∧ d.trimmed.units scale ≤ uint64Max
      · constructor
        · intro hexact
          rw [Decimal.factor_eq, hfits.1, if_neg (by simp), mul_one] at hcheck hround
          have hok : serialize amount scale mode = .ok (d.trimmed.units scale) := by
            rw [hcheck, checkUint64_ok_iff]
            exact ⟨rfl, hunits, hfits.2⟩
          obtain ⟨q, hq, hq'⟩ := hexact.returns _ hok
          rw [hrational] at hq
          rw [← Option.some.inj hq, hround] at hq'
          have hnext := Option.some.inj hq'
          omega
        · intro hnot
          exact absurd ⟨htie, hfits⟩ hnot
      · constructor
        · intro _ hall
          exact hfits hall.2
        · intro _
          -- Both roundings are refused: both are negative, or both are too large.
          have hout : ∀ z : ℤ, d.trimmed.units scale ≤ z →
              z * d.trimmed.factor < 0 ∨ uint64Max < z * d.trimmed.factor := by
            intro z hz
            rw [Decimal.factor_eq]
            cases hsign : d.trimmed.negative with
            | true =>
              rw [if_pos rfl]
              omega
            | false =>
              have hbig : ¬ d.trimmed.units scale ≤ uint64Max := fun hmax => hfits ⟨hsign, hmax⟩
              rw [if_neg (by simp)]
              omega
          have herror := checkUint64_error_iff.mpr (hout _ le_rfl)
          rw [← hcheck] at herror
          constructor
          · intro z hz
            obtain ⟨e, he⟩ := herror
            rw [he] at hz
            cases hz
          · exact ⟨fun _ => .inr ⟨_, hrational, .inr ⟨_, hround, hout _ (by omega)⟩⟩,
              fun _ => herror⟩
    · constructor
      · intro _ hall
        exact htie hall.1
      · intro _
        exact serializesExactly_of_round h (hform.scaleAmount_of_not_oddTie scale htie)

/-- Halfway between one and two, of which the even one is two. -/
theorem not_serializes_exactly : ¬ ∀ (amount : String) (scale : ℕ) (mode : FspiopRoundingMode),
    SerializesExactly amount scale mode := by
  intro h
  have hserialize : serialize "1.5" 0 .halfEven = .ok 1 := by decide
  obtain ⟨q, hq, hround⟩ := (h "1.5" 0 .halfEven).returns 1 hserialize
  have hrational : rational "1.5".toList = some (3 / 2) := by decide +kernel
  rw [hrational] at hq
  rw [← Option.some.inj hq] at hround
  revert hround
  decide +kernel

end Serialize

end FspiopMoney
end Fspiop
