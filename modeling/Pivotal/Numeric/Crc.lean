import Mathlib.Data.Nat.Notation
import Mathlib.Tactic.Common

/-! Cyclic redundancy checks of any width, least significant bit first: bit by bit, and from a
table with an entry for each byte. -/
namespace Crc

variable {w : ℕ} (poly : BitVec w)

/-- The division of one bit. -/
def bitStep (c : BitVec w) : BitVec w :=
  if c.getLsbD 0 then poly ^^^ (c >>> 1) else c >>> 1

def bits : ℕ → BitVec w → BitVec w
  | 0, c => c
  | n + 1, c => bits n (bitStep poly c)

/-- The register after one more byte. -/
def update (crc : BitVec w) (byte : UInt8) : BitVec w :=
  bits poly 8 (crc ^^^ byte.toBitVec.setWidth w)

/-- The check value of a text of bytes, with all bits set before and inverted afterwards. -/
def checksum (bytes : List UInt8) : BitVec w :=
  bytes.foldl (update poly) (BitVec.allOnes w) ^^^ BitVec.allOnes w

/-- What a table holds for the low byte of a register. -/
def entry (index : BitVec 8) : BitVec w := bits poly 8 (index.setWidth w)

theorem bitStep_xor (a b : BitVec w) :
    bitStep poly (a ^^^ b) = bitStep poly a ^^^ bitStep poly b := by
  have hself : poly ^^^ poly = 0#w := BitVec.xor_self
  simp only [bitStep, BitVec.getLsbD_xor, BitVec.ushiftRight_xor_distrib]
  cases a.getLsbD 0 <;> cases b.getLsbD 0
  · rfl
  · simp only [Bool.false_bne, ↓reduceIte, Bool.false_eq_true]
    ac_rfl
  · simp only [Bool.bne_false, ↓reduceIte, Bool.false_eq_true]
    ac_rfl
  · calc (a >>> 1 ^^^ b >>> 1)
        = (poly ^^^ poly) ^^^ (a >>> 1 ^^^ b >>> 1) := by rw [hself, BitVec.zero_xor]
      _ = (poly ^^^ a >>> 1) ^^^ (poly ^^^ b >>> 1) := by ac_rfl

theorem bits_xor (n : ℕ) (a b : BitVec w) :
    bits poly n (a ^^^ b) = bits poly n a ^^^ bits poly n b := by
  induction n generalizing a b with
  | zero => rfl
  | succ n ih => rw [bits, bitStep_xor, ih, bits, bits]

/-- Where the low bits are clear, the division only shifts. -/
theorem bits_of_low_clear {n : ℕ} {c : BitVec w} (h : ∀ i < n, c.getLsbD i = false) :
    bits poly n c = c >>> n := by
  induction n generalizing c with
  | zero => simp [bits]
  | succ n ih =>
    have hstep : bitStep poly c = c >>> 1 := by
      rw [bitStep, h 0 (Nat.succ_pos n)]
      rfl
    have hclear : ∀ i < n, (c >>> 1).getLsbD i = false := by
      intro i hi
      rw [BitVec.getLsbD_ushiftRight]
      exact h (1 + i) (by omega)
    rw [bits, hstep, ih hclear, Nat.add_comm, BitVec.shiftRight_add]

/-- A register is its low byte over the rest. -/
theorem low_xor_high (c : BitVec w) (n : ℕ) :
    (c.setWidth n).setWidth w ^^^ (c >>> n) <<< n = c := by
  apply BitVec.eq_of_getLsbD_eq
  intro i hi
  simp only [BitVec.getLsbD_xor, BitVec.getLsbD_setWidth, BitVec.getLsbD_shiftLeft,
    BitVec.getLsbD_ushiftRight, hi, decide_true, Bool.true_and]
  by_cases hlow : i < n
  · simp [hlow]
  · have hi' : n + (i - n) = i := by omega
    simp [hlow, hi']

theorem bits_split (c : BitVec w) :
    bits poly 8 c = entry poly (c.setWidth 8) ^^^ c >>> 8 := by
  have hclear : ∀ i < 8, ((c >>> 8) <<< 8).getLsbD i = false := by
    intro i hi
    simp [BitVec.getLsbD_shiftLeft, hi]
  have hshift : (c >>> 8) <<< 8 >>> 8 = c >>> 8 := by
    apply BitVec.eq_of_getLsbD_eq
    intro i hi
    simp only [BitVec.getLsbD_ushiftRight, BitVec.getLsbD_shiftLeft]
    by_cases hin : 8 + i < w
    · simp [hin]
    · simp [hin, BitVec.getLsbD_of_ge c (8 + i) (by omega)]
  calc bits poly 8 c
      = bits poly 8 ((c.setWidth 8).setWidth w ^^^ (c >>> 8) <<< 8) := by rw [low_xor_high]
    _ = entry poly (c.setWidth 8) ^^^ (c >>> 8) <<< 8 >>> 8 := by
      rw [bits_xor, bits_of_low_clear poly hclear, entry]
    _ = entry poly (c.setWidth 8) ^^^ c >>> 8 := by rw [hshift]

/-- The table gives the same register as the division of the eight bits. -/
theorem update_eq_entry (crc : BitVec w) (byte : UInt8) :
    update poly crc byte =
      entry poly ((crc ^^^ byte.toBitVec.setWidth w).setWidth 8) ^^^ crc >>> 8 := by
  have hbyte : (byte.toBitVec.setWidth w) >>> 8 = 0#w := by
    apply BitVec.eq_of_getLsbD_eq
    intro i hi
    simp [BitVec.getLsbD_ushiftRight]
  rw [update, bits_split, BitVec.ushiftRight_xor_distrib, hbyte, BitVec.xor_zero]

end Crc
