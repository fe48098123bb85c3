import Mathlib.Tactic.Common

/-! Lists that are read in batches: a range cut into blocks of one size, and what is known of a reader
that goes on from the cursor of the batch before. -/
namespace Store

section Blocks

variable {size start count : ℕ} {p : ℕ → ℕ → Prop}

/-- What holds of every block of a range, by where it begins and how many places it has. Only the last
can be shorter than the others. -/
def Blocks (size : ℕ) (p : ℕ → ℕ → Prop) (start count : ℕ) : Prop :=
  ∀ i, i * size < count → p (start + i * size) (min size (count - i * size))

theorem blocks_zero (size : ℕ) (p : ℕ → ℕ → Prop) (start : ℕ) : Blocks size p start 0 :=
  fun _ h => absurd h (Nat.not_lt_zero _)

/-- The first block and those after it. -/
theorem blocks_iff (hcount : 0 < count) : Blocks size p start count ↔
    p start (min size count) ∧ Blocks size p (start + min size count) (count - min size count) := by
  constructor
  · intro h
    constructor
    · simpa using h 0 (by omega)
    · intro i hi
      have hsize : min size count = size := by
        by_contra hne
        have hle : count ≤ size := by omega
        rw [Nat.min_eq_right hle, Nat.sub_self] at hi
        exact Nat.not_lt_zero _ hi
      rw [hsize] at hi ⊢
      have hnext := h (i + 1) (by rw [Nat.succ_mul]; omega)
      rw [Nat.succ_mul] at hnext
      rwa [show start + size + i * size = start + (i * size + size) by omega,
        show count - size - i * size = count - (i * size + size) by omega]
  · rintro ⟨hfirst, hrest⟩ i hi
    cases i with
    | zero => simpa using hfirst
    | succ i =>
      rw [Nat.succ_mul] at hi ⊢
      have hsize : min size count = size := by omega
      have hnext := hrest i (by omega)
      rw [hsize] at hnext
      rwa [show start + size + i * size = start + (i * size + size) by omega,
        show count - size - i * size = count - (i * size + size) by omega] at hnext

theorem blocks_single (hcount : count ≤ size) (hp : p start 0) :
    Blocks size p start count ↔ p start count := by
  rcases Nat.eq_zero_or_pos count with rfl | hpos
  · exact iff_of_true (blocks_zero size p start) hp
  · rw [blocks_iff hpos, Nat.min_eq_right hcount, Nat.sub_self]
    exact and_iff_left (blocks_zero size p _)

end Blocks

/-- What a reader answers: rows, and a cursor after the last of them where it takes more to follow. -/
structure Batch (ρ κ : Type) where
  records : List ρ
  nextCursor : Option κ
  nonempty : nextCursor ≠ none → records ≠ []

variable {ρ κ ε : Type}

/-- A reader of the rows of a list. It answers rows of it from every valid cursor. At a place of the list it reads
as many rows as are asked for and are there, which are the next ones of the list where it is `right`,
and then its cursor is at the place after them. -/
structure Reader (find : Option κ → ℕ → Except ε (Batch ρ κ)) (l : List ρ)
    (right : ℕ → ℕ → Prop) where
  Valid : Option κ → Prop
  At : ℕ → Option κ → Prop
  start : At 0 none
  valid : ∀ {k cursor}, At k cursor → Valid cursor
  cursor_ne_none : ∀ {k cursor}, At k cursor → 0 < k → k < l.length → cursor ≠ none
  read : ∀ {cursor limit}, Valid cursor → 0 < limit → ∃ batch, find cursor limit = .ok batch ∧
    batch.records.length ≤ limit ∧ batch.records ⊆ l ∧ Valid batch.nextCursor
  records : ∀ {k cursor limit batch}, At k cursor → 0 < limit → k + limit ≤ l.length →
    find cursor limit = .ok batch → batch.records.length = limit ∧
      (batch.records = (l.drop k).take limit ↔ right k limit)
  next : ∀ {k cursor limit batch}, At k cursor → 0 < limit → k + limit < l.length →
    find cursor limit = .ok batch → right k limit → At (k + limit) batch.nextCursor
  last : ∀ {k cursor limit batch}, At k cursor → 0 < limit → k + limit = l.length →
    find cursor limit = .ok batch → batch.nextCursor = none

namespace Reader

variable {find : Option κ → ℕ → Except ε (Batch ρ κ)} {l : List ρ} {right : ℕ → ℕ → Prop}

  (reader : Reader find l right) {k limit : ℕ} {cursor : Option κ} {batch : Batch ρ κ}
  (hcursor : reader.At k cursor) (hlimit : 0 < limit) (hcount : k + limit ≤ l.length)
  (hbatch : find cursor limit = .ok batch)
include hcursor hlimit hcount hbatch

/-- What is read of the list's next rows is right. -/
theorem right_of_prefix (h : batch.records <+: l.drop k) : right k limit := by
  obtain ⟨hlength, hrecords⟩ := reader.records hcursor hlimit hcount hbatch
  rw [← hrecords, ← hlength]
  exact List.prefix_iff_eq_take.mp h

/-- Only at the end of the list is there no cursor. -/
theorem at_end (hright : right k limit)
    (hstop : batch.records.length = 0 ∨ batch.nextCursor.isNone) : k + limit = l.length := by
  by_contra hne
  have hbefore : k + limit < l.length := by omega
  have hsome := reader.cursor_ne_none (reader.next hcursor hlimit hbefore hbatch hright) (by omega)
    hbefore
  rcases hstop with hempty | hnone
  · obtain ⟨hlength, -⟩ := reader.records hcursor hlimit hcount hbatch
    omega
  · exact hsome (Option.isNone_iff_eq_none.mp hnone)

theorem before_end (hmore : ¬ (batch.records.length = 0 ∨ batch.nextCursor.isNone)) :
    k + limit < l.length := by
  by_contra hend
  have hnone := reader.last hcursor hlimit (by omega) hbatch
  exact hmore (.inr (Option.isNone_iff_eq_none.mpr hnone))

end Reader

end Store
