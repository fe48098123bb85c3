import Pivotal.Fspiop.Money
import Pivotal.Js.Numeral

/-! The rational that the text of an amount denotes. Normalising keeps it, and the amounts that are
admitted are compared by it when they are compared as texts. -/
namespace Fspiop.FspiopMoney
open Js Js.Number

/-- The sign as a factor. -/
def Decimal.factor (d : Decimal) : ℤ := if d.sign = some '-' then -1 else 1

def Decimal.value (d : Decimal) : ℚ := d.factor * decimalValue d.integerPart d.fractionPart

/-- What a text denotes, with white space around it or without. -/
def rational (amount : List Char) : Option ℚ := (matchDecimal (trimChars amount)).map Decimal.value

theorem exists_trailing_zeros (cs : List Char) :
    ∃ k, cs = dropTrailingZeros cs ++ List.replicate k '0' := by
  have hsplit := List.rdropWhile_append_rtakeWhile (p := fun c => decide (c = '0')) (l := cs)
  have hzeros : ∀ c ∈ cs.rtakeWhile (· = '0'), c = '0' := by
    intro c hc
    simpa using List.mem_rtakeWhile_imp hc
  refine ⟨(cs.rtakeWhile (· = '0')).length, ?_⟩
  rw [← List.eq_replicate_of_mem hzeros]
  exact hsplit.symm

theorem getLast?_dropTrailingZeros (cs : List Char) :
    (dropTrailingZeros cs).getLast? ≠ some '0' := by
  intro hlast
  have hne : dropTrailingZeros cs ≠ [] := by
    intro hnil
    simp [hnil] at hlast
  have hnot := List.rdropWhile_last_not (p := fun c => decide (c = '0')) cs hne
  rw [List.getLast?_eq_some_getLast hne] at hlast
  simp [dropTrailingZeros] at hnot hlast
  exact hnot hlast

/-- The zeros at the end of a fraction say nothing. -/
theorem value_dropTrailingZeros (d : Decimal) :
    { d with fractionPart := dropTrailingZeros d.fractionPart : Decimal }.value = d.value := by
  obtain ⟨k, hk⟩ := exists_trailing_zeros d.fractionPart
  unfold Decimal.value Decimal.factor
  dsimp only
  conv_rhs => rw [hk, decimalValue_append_zeros]

theorem normalizeChars_of_none {amount : List Char} (h : matchDecimal (trimChars amount) = none) :
    normalizeChars amount = trimChars amount := by
  simp [normalizeChars, h]

theorem normalizeChars_of_some {amount : List Char} {d : Decimal}
    (h : matchDecimal (trimChars amount) = some d) : normalizeChars amount = d.render := by
  simp [normalizeChars, h]

theorem matchDecimal_normalizeChars (amount : List Char) :
    matchDecimal (normalizeChars amount) = (matchDecimal (trimChars amount)).map fun d =>
      { d with fractionPart := dropTrailingZeros d.fractionPart } := by
  cases h : matchDecimal (trimChars amount) with
  | none => rw [normalizeChars_of_none h, h, Option.map_none]
  | some d =>
    rw [normalizeChars_of_some h, matchDecimal_render (matchDecimal_wellFormed h), Option.map_some]

theorem trimChars_normalizeChars (amount : List Char) :
    trimChars (normalizeChars amount) = normalizeChars amount := by
  cases h : matchDecimal (trimChars amount) with
  | none => rw [normalizeChars_of_none h, trimChars_idem]
  | some d =>
    rw [normalizeChars_of_some h]
    exact trimChars_of_solid (render_solid (matchDecimal_wellFormed h))

theorem rational_normalizeChars (amount : List Char) :
    rational (normalizeChars amount) = rational amount := by
  unfold rational
  rw [trimChars_normalizeChars, matchDecimal_normalizeChars, Option.map_map]
  congr 1
  funext d
  exact value_dropTrailingZeros d

theorem rational_normalizeAmount (amount : String) :
    rational (normalizeAmount amount).toList = rational amount.toList := by
  rw [normalizeAmount, String.toList_ofList, rational_normalizeChars]

/-- A decimal as the pattern of the amounts has it. -/
structure Decimal.Plain (d : Decimal) : Prop where
  sign : d.sign = none
  canonical : Canonical d.integerPart d.fractionPart
  integerLength : d.integerPart.length ≤ 18
  fractionLength : d.fractionPart.length ≤ 4

theorem dropTrailingZeros_of_last {cs : List Char} (h : cs.getLast? ≠ some '0') :
    dropTrailingZeros cs = cs := by
  refine List.rdropWhile_eq_self_iff.mpr fun hne => ?_
  rw [List.getLast?_eq_some_getLast hne] at h
  simpa using h

theorem Decimal.Plain.wellFormed {d : Decimal} (h : d.Plain) : d.WellFormed where
  sign := by simp [h.sign]
  integerPart := h.canonical.integerPart
  nonempty := h.canonical.nonempty
  fractionPart := h.canonical.fractionPart

/-- A plain decimal is matched as it is written. -/
theorem Decimal.Plain.matchDecimal {d : Decimal} (h : d.Plain) : matchDecimal d.render = some d := by
  rw [matchDecimal_render h.wellFormed, dropTrailingZeros_of_last h.canonical.last]

theorem plain_of_amountPattern {amount : List Char} (h : amountPattern amount = true) :
    ∃ d : Decimal, d.Plain ∧ d.render = amount := by
  unfold amountPattern at h
  dsimp only at h
  have hsplit : amount.takeWhile isDigit ++ amount.dropWhile isDigit = amount :=
    List.takeWhile_append_dropWhile
  have hdigits : (amount.takeWhile isDigit).all isDigit = true := List.all_takeWhile
  generalize amount.takeWhile isDigit = i at h hsplit hdigits
  generalize amount.dropWhile isDigit = rest at h hsplit
  obtain ⟨hinteger, hrest⟩ := Bool.and_eq_true_iff.mp h
  have hi : i ≠ [] ∧ (i.head? = some '0' → i = ['0']) ∧ i.length ≤ 18 := by
    rcases Bool.or_eq_true_iff.mp hinteger with hzero | hplain
    · have hzero := of_decide_eq_true hzero
      subst hzero
      simp
    · cases i with
      | nil => simp at hplain
      | cons c cs =>
        simp at hplain
        simp [hplain]
  cases rest with
  | nil =>
    refine ⟨⟨none, i, []⟩, ⟨rfl, ⟨hdigits, hi.1, hi.2.1, rfl, by simp⟩, hi.2.2, by simp⟩, ?_⟩
    simpa [Decimal.render, dropTrailingZeros] using hsplit
  | cons c f =>
    simp only [Bool.and_eq_true, decide_eq_true_eq] at hrest
    obtain ⟨⟨⟨rfl, hf⟩, hlength⟩, hlast⟩ := hrest
    have hlast' : f.getLast? ≠ some '0' := by
      intro hzero
      simp [hzero] at hlast
    have hne : f ≠ [] := by
      intro hnil
      simp [hnil] at hlast
    refine ⟨⟨none, i, f⟩, ⟨rfl, ⟨hdigits, hi.1, hi.2.1, hf, hlast'⟩, hi.2.2, hlength⟩, ?_⟩
    simpa [Decimal.render, dropTrailingZeros_of_last hlast', hne] using hsplit

theorem Decimal.Plain.value {d : Decimal} (h : d.Plain) :
    d.value = decimalValue d.integerPart d.fractionPart := by
  simp [Decimal.value, Decimal.factor, h.sign]

/-- Plain decimals with one value are written alike. -/
theorem Decimal.Plain.unique {d d' : Decimal} (h : d.Plain) (h' : d'.Plain)
    (hvalue : d.value = d'.value) : d = d' := by
  rw [h.value, h'.value] at hvalue
  obtain ⟨hinteger, hfraction⟩ := h.canonical.unique h'.canonical hvalue
  cases d with
  | mk sign integerPart fractionPart =>
    cases d' with
    | mk sign' integerPart' fractionPart' =>
      have hsign := h.sign.trans h'.sign.symm
      dsimp only at hinteger hfraction hsign
      rw [hinteger, hfraction, hsign]

theorem rational_render {d : Decimal} (h : d.Plain) : rational d.render = some d.value := by
  unfold rational
  rw [trimChars_of_solid (render_solid h.wellFormed), h.matchDecimal, Option.map_some]

/-- Normalising keeps what a text denotes and is done once; of the amounts that the pattern admits
those that are written alike denote the same. -/
theorem normalizeAmount_canonical :
    (∀ amount : String,
      rational (normalizeAmount amount).toList = rational amount.toList ∧
        normalizeAmount (normalizeAmount amount) = normalizeAmount amount) ∧
      ∀ a b : String, amountPattern (normalizeAmount a).toList = true →
        amountPattern (normalizeAmount b).toList = true →
          (normalizeAmount a = normalizeAmount b ↔
            ∃ q, rational a.toList = some q ∧ rational b.toList = some q) := by
  constructor
  · intro amount
    exact ⟨rational_normalizeAmount amount, normalizeAmount_idem amount⟩
  · intro a b ha hb
    obtain ⟨d, hd, hrender⟩ := plain_of_amountPattern ha
    obtain ⟨d', hd', hrender'⟩ := plain_of_amountPattern hb
    have hvalue : rational a.toList = some d.value := by
      rw [← rational_normalizeAmount a, ← hrender, rational_render hd]
    have hvalue' : rational b.toList = some d'.value := by
      rw [← rational_normalizeAmount b, ← hrender', rational_render hd']
    constructor
    · intro heq
      use d.value, hvalue
      rw [← rational_normalizeAmount b, ← heq, ← hrender, rational_render hd]
    · rintro ⟨q, hq, hq'⟩
      rw [hvalue] at hq
      rw [hvalue'] at hq'
      have hsame : d = d' := hd.unique hd' (Option.some.inj (hq.trans hq'.symm))
      rw [hsame, hrender'] at hrender
      exact String.toList_injective hrender.symm

/-- Two ways to write one amount. -/
theorem normalizeAmount_canonical_sample :
    normalizeAmount " 12.50" = normalizeAmount "12.5" ∧
      ∃ q, rational " 12.50".toList = some q ∧ rational "12.5".toList = some q := by
  have hsame : normalizeAmount " 12.50" = normalizeAmount "12.5" := by decide
  exact ⟨hsame, (normalizeAmount_canonical.2 " 12.50" "12.5" (by decide) (by decide)).mp hsame⟩

end Fspiop.FspiopMoney
