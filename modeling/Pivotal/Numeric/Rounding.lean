import Mathlib.Algebra.Order.Floor.Ring
import Mathlib.Tactic.Linarith
import Mathlib.Tactic.NormNum

/-! Rounding of a number that is so many whole units and a remainder of less than one. -/
namespace Numeric

variable {K : Type*} [Field K] [LinearOrder K]

/-- The rounding that treats both signs alike. -/
def byMagnitude (round : K → ℤ) (q : K) : ℤ := if q < 0 then -round (-q) else round q

theorem byMagnitude_of_nonneg (round : K → ℤ) {q : K} (h : 0 ≤ q) :
    byMagnitude round q = round q := if_neg (not_lt.mpr h)

variable [IsStrictOrderedRing K]

theorem byMagnitude_neg {round : K → ℤ} (hzero : round 0 = 0) {q : K} (h : 0 ≤ q) :
    byMagnitude round (-q) = -round q := by
  unfold byMagnitude
  rcases h.lt_or_eq with hpos | heq
  · rw [if_pos (neg_neg_of_pos hpos), neg_neg]
  · subst heq
    simp [hzero]

variable [FloorRing K] {n : ℤ} {f : K}

theorem floor_units (hf : 0 ≤ f) (hf' : f < 1) : ⌊(n : K) + f⌋ = n := by
  rw [Int.floor_eq_iff]
  constructor <;> linarith

theorem ceil_units (hf : 0 ≤ f) (hf' : f < 1) : ⌈(n : K) + f⌉ = if 0 < f then n + 1 else n := by
  split_ifs with hpos
  · rw [Int.ceil_eq_iff]
    push_cast
    constructor <;> linarith
  · have hzero : f = 0 := le_antisymm (not_lt.mp hpos) hf
    rw [hzero, add_zero, Int.ceil_intCast]

theorem floor_half_units (hf : 0 ≤ f) (hf' : f < 1) :
    ⌊(n : K) + f + 1 / 2⌋ = if 1 / 2 ≤ f then n + 1 else n := by
  split_ifs with hhalf
  · rw [Int.floor_eq_iff]
    push_cast
    constructor <;> linarith
  · rw [Int.floor_eq_iff]
    constructor <;> linarith

theorem ceil_half_units (hf : 0 ≤ f) (hf' : f < 1) :
    ⌈(n : K) + f - 1 / 2⌉ = if 1 / 2 < f then n + 1 else n := by
  split_ifs with hhalf
  · rw [Int.ceil_eq_iff]
    push_cast
    constructor <;> linarith
  · rw [Int.ceil_eq_iff]
    constructor <;> linarith

end Numeric
