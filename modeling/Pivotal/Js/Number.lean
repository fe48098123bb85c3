import Mathlib.Algebra.Order.Floor.Semifield
import Mathlib.Data.Int.Log
import Mathlib.Data.Rat.Floor
import Mathlib.Tactic.FieldSimp
import Mathlib.Tactic.Linarith
import Mathlib.Tactic.NormNum
import Mathlib.Tactic.Positivity
import Mathlib.Tactic.Ring

/-! The finite values of `Number`, as rationals: the one nearest to a rational, with ties to even. -/
namespace Js.Number

/-- The nearest integer, the even one of two. -/
def roundHalfEven (q : ℚ) : ℤ :=
  if Int.fract q < 1 / 2 then ⌊q⌋
  else if 1 / 2 < Int.fract q then ⌊q⌋ + 1
  else if ⌊q⌋ % 2 = 0 then ⌊q⌋ else ⌊q⌋ + 1

/-- The exponent of the binade of `q`. Below `2 ^ (-1022)` the values lie as densely as above. -/
def exponent (q : ℚ) : ℤ := max (Int.log 2 |q|) (-1022)

/-- The distance of the values next to `q`, which have 53 bits. -/
def ulp (q : ℚ) : ℚ := 2 ^ (exponent q - 52)

/-- The value nearest to `q`, where it is finite. -/
def nearest (q : ℚ) : ℚ := roundHalfEven (q / ulp q) * ulp q

theorem roundHalfEven_intCast (n : ℤ) : roundHalfEven n = n := by
  simp [roundHalfEven]

theorem roundHalfEven_units {n : ℤ} {f : ℚ} (hf : 0 ≤ f) (hf' : f < 1) :
    roundHalfEven (n + f) = if 1 / 2 < f ∨ f = 1 / 2 ∧ n % 2 ≠ 0 then n + 1 else n := by
  have hfloor : ⌊(n : ℚ) + f⌋ = n := by
    rw [Int.floor_eq_iff]
    constructor <;> linarith
  have hfract : Int.fract ((n : ℚ) + f) = f := by
    rw [Int.fract, hfloor]
    ring
  unfold roundHalfEven
  rw [hfloor, hfract]
  rcases lt_trichotomy f (1 / 2) with hlt | heq | hgt
  · rw [if_pos hlt, if_neg]
    intro hup
    rcases hup with hup | hup <;> linarith
  · by_cases hparity : n % 2 = 0 <;> simp [heq, hparity]
  · rw [if_neg (not_lt.mpr hgt.le), if_pos hgt, if_pos (.inl hgt)]

/-- Both signs are rounded alike. -/
theorem roundHalfEven_neg (q : ℚ) : roundHalfEven (-q) = -roundHalfEven q := by
  have hunits : q = ⌊q⌋ + Int.fract q := (Int.floor_add_fract q).symm
  have hnonneg := Int.fract_nonneg q
  have hlt := Int.fract_lt_one q
  rw [hunits, roundHalfEven_units hnonneg hlt]
  generalize Int.fract q = f at hnonneg hlt
  generalize ⌊q⌋ = n
  rcases hnonneg.lt_or_eq with hpos | hzero
  · have hneg : -((n : ℚ) + f) = ((-n - 1 : ℤ) : ℚ) + (1 - f) := by
      push_cast
      ring
    rw [hneg, roundHalfEven_units (by linarith) (by linarith)]
    rcases lt_trichotomy f (1 / 2) with hless | heq | hmore
    · rw [if_pos (.inl (by linarith)), if_neg]
      · omega
      · intro hup
        rcases hup with hup | hup <;> linarith
    · subst heq
      norm_num
      split_ifs <;> omega
    · rw [if_neg, if_pos (.inl hmore)]
      · omega
      · intro hup
        rcases hup with hup | hup <;> linarith
  · subst hzero
    have hneg : -((n : ℚ) + 0) = ((-n : ℤ) : ℚ) := by
      push_cast
      ring
    rw [hneg, roundHalfEven_intCast]
    norm_num

theorem roundHalfEven_le_floor_add_one (q : ℚ) : roundHalfEven q ≤ ⌊q⌋ + 1 := by
  unfold roundHalfEven
  split_ifs <;> omega

theorem floor_le_roundHalfEven (q : ℚ) : ⌊q⌋ ≤ roundHalfEven q := by
  unfold roundHalfEven
  split_ifs <;> omega

/-- Within the unit of two neighbours the farther one is rounded up first. -/
theorem roundHalfEven_mono {b c : ℚ} (h : b ≤ c) : roundHalfEven b ≤ roundHalfEven c := by
  rcases lt_or_eq_of_le (Int.floor_mono h) with hfloor | hfloor
  · calc roundHalfEven b ≤ ⌊b⌋ + 1 := roundHalfEven_le_floor_add_one b
      _ ≤ ⌊c⌋ := hfloor
      _ ≤ roundHalfEven c := floor_le_roundHalfEven c
  · have hfract : Int.fract b ≤ Int.fract c := by
      unfold Int.fract
      rw [hfloor]
      linarith
    unfold roundHalfEven
    rw [hfloor]
    split_ifs <;> first | omega | linarith

theorem le_roundHalfEven {n : ℤ} {q : ℚ} (h : (n : ℚ) ≤ q) : n ≤ roundHalfEven q := by
  rw [← roundHalfEven_intCast n]
  exact roundHalfEven_mono h

theorem roundHalfEven_le {n : ℤ} {q : ℚ} (h : q ≤ n) : roundHalfEven q ≤ n := by
  rw [← roundHalfEven_intCast n]
  exact roundHalfEven_mono h

theorem ulp_pos (q : ℚ) : 0 < ulp q := zpow_pos (by norm_num) _

@[simp] theorem nearest_zero : nearest 0 = 0 := by
  have hzero : roundHalfEven 0 = 0 := roundHalfEven_intCast 0
  simp [nearest, hzero]

variable {q : ℚ}

theorem nearest_nonneg (h : 0 ≤ q) : 0 ≤ nearest q := by
  have hround : 0 ≤ roundHalfEven (q / ulp q) :=
    le_roundHalfEven (by simpa using div_nonneg h (ulp_pos q).le)
  exact mul_nonneg (by exact_mod_cast hround) (ulp_pos q).le

theorem lt_two_zpow (h : 0 < q) : q < 2 ^ (exponent q + 1) := by
  have hlog := Int.lt_zpow_succ_log_self (b := 2) (by decide) q
  have hle : Int.log 2 q ≤ exponent q := by
    unfold exponent
    rw [abs_of_pos h]
    exact le_max_left _ _
  calc q < 2 ^ (Int.log 2 q + 1) := by exact_mod_cast hlog
    _ ≤ 2 ^ (exponent q + 1) := zpow_le_zpow_right₀ (by norm_num) (by omega)

theorem two_zpow_le (h : 0 < q) (hnormal : -1022 < exponent q) : 2 ^ exponent q ≤ q := by
  have hlog : exponent q = Int.log 2 q := by
    unfold exponent at hnormal ⊢
    rw [abs_of_pos h] at hnormal ⊢
    omega
  rw [hlog]
  exact_mod_cast Int.zpow_log_le_self (b := 2) (by decide) h

/-- A power of two, and a value between it and the next one, if it is normal, say the exponent. -/
theorem exponent_eq {e : ℤ} (hlow : -1022 < e → 2 ^ e ≤ q) (hhigh : q < 2 ^ (e + 1))
    (he : -1022 ≤ e) (hq : 0 < q) : exponent q = e := by
  have hle : Int.log 2 q ≤ e := by
    have hlt := (Int.lt_zpow_iff_log_lt (b := 2) (by decide) hq).mp (by exact_mod_cast hhigh)
    omega
  unfold exponent
  rw [abs_of_pos hq]
  rcases lt_or_eq_of_le he with hnormal | rfl
  · have hge := (Int.zpow_le_iff_le_log (b := 2) (by decide) hq).mp
      (by exact_mod_cast hlow hnormal)
    omega
  · omega

theorem mul_ulp (q : ℚ) (k : ℕ) : ((2 ^ k : ℤ) : ℚ) * ulp q = 2 ^ (exponent q - 52 + k) := by
  unfold ulp
  rw [zpow_add₀ (by norm_num), zpow_natCast, Int.cast_pow, mul_comm]
  norm_cast

/-- The mantissa has 53 bits, or is the next power of two. -/
theorem mantissa_le (h : 0 < q) : roundHalfEven (q / ulp q) ≤ 2 ^ 53 := by
  apply roundHalfEven_le
  rw [div_le_iff₀ (ulp_pos q), mul_ulp q 53]
  have hexp : exponent q - 52 + (53 : ℕ) = exponent q + 1 := by omega
  rw [hexp]
  exact (lt_two_zpow h).le

theorem le_mantissa (h : 0 < q) (hnormal : -1022 < exponent q) :
    2 ^ 52 ≤ roundHalfEven (q / ulp q) := by
  apply le_roundHalfEven
  rw [le_div_iff₀ (ulp_pos q), mul_ulp q 52]
  have hexp : exponent q - 52 + (52 : ℕ) = exponent q := by omega
  rw [hexp]
  exact two_zpow_le h hnormal

theorem nearest_le_two_zpow (h : 0 < q) : nearest q ≤ 2 ^ (exponent q + 1) := by
  have hexp : exponent q + 1 = exponent q - 52 + (53 : ℕ) := by omega
  rw [hexp, ← mul_ulp q 53]
  exact mul_le_mul_of_nonneg_right (by exact_mod_cast mantissa_le h) (ulp_pos q).le

theorem two_zpow_le_nearest (h : 0 < q) (hnormal : -1022 < exponent q) :
    2 ^ exponent q ≤ nearest q := by
  have hexp : exponent q = exponent q - 52 + (52 : ℕ) := by omega
  rw [hexp, ← mul_ulp q 52]
  exact mul_le_mul_of_nonneg_right (by exact_mod_cast le_mantissa h hnormal) (ulp_pos q).le

theorem nearest_of_units {m : ℤ} (h : q = m * ulp q) : nearest q = q := by
  have hdiv : q / ulp q = m := by
    rw [div_eq_iff (ulp_pos q).ne']
    exact h
  unfold nearest
  rw [hdiv, roundHalfEven_intCast]
  exact h.symm

theorem nearest_nearest (h : 0 ≤ q) : nearest (nearest q) = nearest q := by
  rcases lt_or_eq_of_le h with hpos | rfl
  · rcases lt_or_eq_of_le (nearest_nonneg h) with hxpos | hx
    · rcases lt_or_eq_of_le (nearest_le_two_zpow hpos) with hlt | heq
      · have hexp : exponent (nearest q) = exponent q :=
          exponent_eq (two_zpow_le_nearest hpos) hlt (le_max_right _ _) hxpos
        apply nearest_of_units (m := roundHalfEven (q / ulp q))
        unfold ulp
        rw [hexp]
        rfl
      · have hlow : -1022 ≤ exponent q := le_max_right _ _
        have hexp : exponent (nearest q) = exponent q + 1 := by
          apply exponent_eq (fun _ => heq.ge) _ (by omega) hxpos
          rw [heq]
          exact zpow_lt_zpow_right₀ (by norm_num) (by omega)
        apply nearest_of_units (m := 2 ^ 52)
        rw [mul_ulp, hexp, heq]
        congr 1
        omega
    · rw [← hx, nearest_zero]
  · simp

theorem unit_pos (p : ℤ) : (0 : ℚ) < 10 ^ p := zpow_pos (by norm_num) p

end Js.Number
