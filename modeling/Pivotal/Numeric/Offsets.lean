import Mathlib.Tactic.Linarith
import Pivotal.Numeric.Steps

/-! Times that run ahead of or behind a clock by an offset that changes now and then: which instant
has a local time, found by two corrections of a guess. -/
namespace Numeric.Offsets
open Steps

/-- Offsets of at most `bound` either way, whose changes are `gap` apart. -/
structure Spaced (offset : ℤ → ℤ) (bound gap : ℤ) : Prop where
  bounded : ∀ t, -bound ≤ offset t ∧ offset t ≤ bound
  apart : ∀ c c', ChangesAt offset c → ChangesAt offset c' → c < c' → gap ≤ c' - c
  wide : 2 * bound < gap

variable {offset : ℤ → ℤ} {bound gap : ℤ}

/-- The one instant of a local time. -/
def OnlyAt (offset : ℤ → ℤ) (localTime x : ℤ) : Prop :=
  x + offset x = localTime ∧ ∀ y, y + offset y = localTime → y = x

/-- Within less than `gap` there are two offsets at most, one before the other. -/
theorem Spaced.exists_change (h : Spaced offset bound gap) {a b : ℤ} (hnear : b - a < gap) :
    ∃ t, ∀ x, a ≤ x → x ≤ b →
      (x < t → offset x = offset a) ∧ (t ≤ x → offset x = offset b) := by
  by_cases hchange : ∃ t, a < t ∧ t ≤ b ∧ ChangesAt offset t
  · obtain ⟨t, hat, htb, ht⟩ := hchange
    have hother : ∀ c, a < c → c ≤ b → c ≠ t → ¬ ChangesAt offset c := by
      intro c hac hcb hne hc
      rcases lt_or_gt_of_ne hne with hlt | hlt
      · have hgap := h.apart c t hc ht hlt
        omega
      · have hgap := h.apart t c ht hc hlt
        omega
    refine ⟨t, fun x hax hxb => ⟨fun hxt => ?_, fun htx => ?_⟩⟩
    · exact (eq_of_not_changesAt hax fun c hac hcx =>
        hother c hac (by omega) (by omega)).symm
    · exact eq_of_not_changesAt hxb fun c hxc hcb => hother c (by omega) hcb (by omega)
  · push Not at hchange
    refine ⟨a, fun x hax hxb => ⟨fun hxa => absurd hax (by omega), fun _ => ?_⟩⟩
    exact eq_of_not_changesAt hxb fun c hxc hcb => hchange c (by omega) hcb

/-- Two corrections find the one instant of a local time: the first leads to the side of a change on
which it is. -/
theorem Spaced.twoSteps (h : Spaced offset bound gap) {localTime x : ℤ}
    (hx : OnlyAt offset localTime x) :
    localTime - offset (localTime - offset localTime) = x := by
  obtain ⟨hat, honly⟩ := hx
  have hxBound := h.bounded x
  have hguessBound := h.bounded localTime
  have hwide := h.wide
  obtain ⟨t, ht⟩ := h.exists_change (a := localTime - bound) (b := localTime + bound)
    (by omega)
  generalize offset (localTime - bound) = before at ht
  generalize offset (localTime + bound) = after at ht
  have hxSide := ht x (by omega) (by omega)
  have hguess := ht localTime (by omega) (by omega)
  have hfirst := ht (localTime - offset localTime) (by omega) (by omega)
  rcases lt_or_ge x t with hxt | hxt
  · have hbefore := hxSide.1 hxt
    rcases lt_or_ge (localTime - offset localTime) t with hft | hft
    · rw [hfirst.1 hft]
      omega
    · -- The guess is corrected by the later offset to an instant that has it.
      have hlate : t ≤ localTime := by
        by_contra hearly
        have hsame := hguess.1 (by omega)
        omega
      have hsame := hguess.2 hlate
      have hafter := hfirst.2 hft
      have heq := honly (localTime - offset localTime) (by omega)
      omega
  · have hafter := hxSide.2 hxt
    rcases lt_or_ge (localTime - offset localTime) t with hft | hft
    · have hearly : localTime < t := by
        by_contra hlate
        have hsame := hguess.2 (by omega)
        omega
      have hsame := hguess.1 hearly
      have hbefore := hfirst.1 hft
      have heq := honly (localTime - offset localTime) (by omega)
      omega
    · rw [hfirst.2 hft]
      omega

end Numeric.Offsets
