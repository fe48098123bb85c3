import Pivotal.Js.Value

/-! The code points of a string, which an iteration over it yields. -/
namespace Js

/-- `String.fromCodePoint(n)` -/
def fromCodePoint (n : ℕ) : Units :=
  if n < 0x10000 then [UInt16.ofNat n]
  else [UInt16.ofNat (0xD800 + (n - 0x10000) / 0x400), UInt16.ofNat (0xDC00 + (n - 0x10000) % 0x400)]

/-- A surrogate that is not one of a pair is a code point. -/
def codePoints : Units → List ℕ
  | [] => []
  | [u] => [u.toNat]
  | high :: low :: s =>
    if isHighSurrogate high && isLowSurrogate low then
      (0x10000 + (high.toNat - 0xD800) * 0x400 + (low.toNat - 0xDC00)) :: codePoints s
    else high.toNat :: codePoints (low :: s)

/-- A code point that is not a surrogate. -/
def IsScalar (n : ℕ) : Prop := n < 0xD800 ∨ 0xE000 ≤ n ∧ n < 0x110000

theorem fromCodePoint_toNat (u : UInt16) : fromCodePoint u.toNat = [u] := by
  rw [fromCodePoint, if_pos (UInt16.toNat_lt u), UInt16.ofNat_toNat]

/-- The characters of a string are the string. -/
theorem flatMap_codePoints (s : Units) : (codePoints s).flatMap fromCodePoint = s := by
  fun_induction codePoints s with
  | case1 => rfl
  | case2 u => simp [fromCodePoint_toNat]
  | case3 high low s hpair ih =>
    rw [Bool.and_eq_true] at hpair
    simp only [isHighSurrogate, isLowSurrogate, Bool.and_eq_true, decide_eq_true_eq] at hpair
    have hhigh : 0xD800 + (0x10000 + (high.toNat - 0xD800) * 0x400 + (low.toNat - 0xDC00) - 0x10000) /
        0x400 = high.toNat := by omega
    have hlow : 0xDC00 + (0x10000 + (high.toNat - 0xD800) * 0x400 + (low.toNat - 0xDC00) - 0x10000) %
        0x400 = low.toNat := by omega
    rw [List.flatMap_cons, ih, fromCodePoint, if_neg (by omega), hhigh, hlow]
    simp
  | case4 high low s hpair ih =>
    rw [List.flatMap_cons, ih, fromCodePoint_toNat]
    rfl

theorem codePoints_fromCodePoint {n : ℕ} (h : IsScalar n) (s : Units) :
    codePoints (fromCodePoint n ++ s) = n :: codePoints s := by
  unfold IsScalar at h
  unfold fromCodePoint
  split
  · rename_i hsmall
    have hn : (UInt16.ofNat n).toNat = n := by
      rw [UInt16.toNat_ofNat']
      omega
    have hhigh : isHighSurrogate (UInt16.ofNat n) = false := by
      simp only [isHighSurrogate, hn, Bool.and_eq_false_iff, decide_eq_false_iff_not]
      omega
    cases s with
    | nil => simp [codePoints, hn]
    | cons u s => simp [codePoints, hhigh, hn]
  · rename_i hlarge
    have hhigh : (UInt16.ofNat (0xD800 + (n - 0x10000) / 0x400)).toNat =
        0xD800 + (n - 0x10000) / 0x400 := by
      rw [UInt16.toNat_ofNat']
      omega
    have hlow : (UInt16.ofNat (0xDC00 + (n - 0x10000) % 0x400)).toNat =
        0xDC00 + (n - 0x10000) % 0x400 := by
      rw [UInt16.toNat_ofNat']
      omega
    have hpair : (isHighSurrogate (UInt16.ofNat (0xD800 + (n - 0x10000) / 0x400)) &&
        isLowSurrogate (UInt16.ofNat (0xDC00 + (n - 0x10000) % 0x400))) = true := by
      simp only [isHighSurrogate, isLowSurrogate, hhigh, hlow, Bool.and_eq_true, decide_eq_true_eq]
      omega
    have hjoin : 0x10000 + (0xD800 + (n - 0x10000) / 0x400 - 0xD800) * 0x400 +
        (0xDC00 + (n - 0x10000) % 0x400 - 0xDC00) = n := by omega
    rw [List.cons_append, List.cons_append, List.nil_append, codePoints, if_pos hpair, hhigh, hlow,
      hjoin]

/-- The code points of characters that are written one after another. -/
theorem codePoints_flatMap {ns : List ℕ} (h : ∀ n ∈ ns, IsScalar n) :
    codePoints (ns.flatMap fromCodePoint) = ns := by
  induction ns with
  | nil => rfl
  | cons n ns ih =>
    rw [List.flatMap_cons, codePoints_fromCodePoint (h n List.mem_cons_self),
      ih fun m hm => h m (List.mem_cons_of_mem n hm)]

end Js
