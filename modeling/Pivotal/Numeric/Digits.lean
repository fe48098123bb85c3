import Mathlib.Data.Nat.ModEq
import Mathlib.Data.List.Lex
import Mathlib.Order.Monotone.Defs
import Mathlib.Tactic.Common

/-! Numbers written in a fixed number of digits, and the order of their texts. -/
namespace Digits

/-- The last `count` digits of a number, the most significant one first. -/
def fixed (base : ℕ) : ℕ → ℕ → List ℕ
  | 0, _ => []
  | count + 1, value => fixed base count (value / base) ++ [value % base]

variable {base : ℕ}

@[simp] theorem length_fixed (count value : ℕ) : (fixed base count value).length = count := by
  induction count generalizing value with
  | zero => rfl
  | succ count ih => rw [fixed, List.length_append, ih, List.length_singleton]

theorem lt_of_mem_fixed (hbase : 0 < base) {count value digit : ℕ}
    (h : digit ∈ fixed base count value) : digit < base := by
  induction count generalizing value with
  | zero => cases h
  | succ count ih =>
    rw [fixed, List.mem_append, List.mem_singleton] at h
    rcases h with h | rfl
    · exact ih h
    · exact Nat.mod_lt _ hbase

/-- The same digits, from the other end. -/
theorem fixed_succ (count value : ℕ) :
    fixed base (count + 1) value = (value / base ^ count % base) :: fixed base count value := by
  induction count generalizing value with
  | zero => simp [fixed]
  | succ count ih =>
    calc fixed base (count + 1 + 1) value
        = fixed base (count + 1) (value / base) ++ [value % base] := rfl
      _ = (value / base / base ^ count % base) ::
            (fixed base count (value / base) ++ [value % base]) := by rw [ih, List.cons_append]
      _ = (value / base ^ (count + 1) % base) :: fixed base (count + 1) value := by
        rw [Nat.div_div_eq_div_mul, ← pow_succ', fixed]

theorem lex_cons_iff {α : Type} {r : α → α → Prop} {a b : α} {l l' : List α} :
    List.Lex r (a :: l) (b :: l') ↔ r a b ∨ a = b ∧ List.Lex r l l' := by
  constructor
  · rintro (_ | h | h)
    · exact .inl h
    · exact .inr ⟨rfl, h⟩
  · rintro (h | ⟨rfl, h⟩)
    · exact .rel h
    · exact .cons h

/-- The texts compare as the numbers do, as far as the digits reach. -/
theorem lex_fixed_iff (hbase : 0 < base) (count v w : ℕ) :
    List.Lex (· < ·) (fixed base count v) (fixed base count w) ↔
      v % base ^ count < w % base ^ count := by
  induction count with
  | zero => simp [fixed, Nat.mod_one]
  | succ count ih =>
    have hsplit : ∀ n, n % base ^ (count + 1) =
        n % base ^ count + base ^ count * (n / base ^ count % base) := fun n => by
      rw [pow_succ, Nat.mod_mul]
    have hpos : 0 < base ^ count := Nat.pow_pos hbase
    have hv := Nat.mod_lt v hpos
    have hw := Nat.mod_lt w hpos
    rw [fixed_succ, fixed_succ, lex_cons_iff, ih, hsplit v, hsplit w]
    generalize v / base ^ count % base = i, w / base ^ count % base = j
    generalize v % base ^ count = low, w % base ^ count = low' at hv hw ⊢
    rcases lt_trichotomy i j with hlt | rfl | hgt
    · have hstep : base ^ count * (i + 1) ≤ base ^ count * j := Nat.mul_le_mul_left _ hlt
      rw [Nat.mul_succ] at hstep
      exact iff_of_true (.inl hlt) (by omega)
    · simp
    · have hstep : base ^ count * (j + 1) ≤ base ^ count * i := Nat.mul_le_mul_left _ hgt
      rw [Nat.mul_succ] at hstep
      refine iff_of_false ?_ (by omega)
      rintro (h | ⟨rfl, -⟩)
      · exact absurd h hgt.not_gt
      · exact lt_irrefl _ hgt

theorem fixed_inj_iff (hbase : 0 < base) {count v w : ℕ} (hv : v < base ^ count)
    (hw : w < base ^ count) : fixed base count v = fixed base count w ↔ v = w := by
  refine ⟨fun h => ?_, fun h => h ▸ rfl⟩
  have hvw := lex_fixed_iff hbase count v w
  have hwv := lex_fixed_iff hbase count w v
  have hirrefl : ¬ List.Lex (· < ·) (fixed base count w) (fixed base count w) :=
    irrefl_of (List.Lex (· < ·)) _
  rw [Nat.mod_eq_of_lt hv, Nat.mod_eq_of_lt hw, h] at hvw hwv
  rcases lt_trichotomy v w with hlt | heq | hgt
  · exact absurd (hvw.mpr hlt) hirrefl
  · exact heq
  · exact absurd (hwv.mpr hgt) hirrefl

section Signs

variable {α : Type} {sign : ℕ → α} {l l' : List ℕ}

/-- Signs in the order of the digits leave the order of the texts as it is. -/
theorem lex_map_iff [LT α] (hsign : ∀ i j, i < base → j < base → (sign i < sign j ↔ i < j))
    (hinj : ∀ i j, i < base → j < base → (sign i = sign j ↔ i = j))
    (hl : ∀ i ∈ l, i < base) (hl' : ∀ i ∈ l', i < base) :
    List.Lex (· < ·) (l.map sign) (l'.map sign) ↔ List.Lex (· < ·) l l' := by
  induction l generalizing l' with
  | nil =>
    cases l' with
    | nil => simp
    | cons j l' => simp
  | cons i l ih =>
    cases l' with
    | nil => simp
    | cons j l' =>
      rw [List.forall_mem_cons] at hl hl'
      rw [List.map_cons, List.map_cons, lex_cons_iff,
        lex_cons_iff, hsign i j hl.1 hl'.1, hinj i j hl.1 hl'.1,
        ih hl.2 hl'.2]

theorem map_inj_iff (hinj : ∀ i j, i < base → j < base → (sign i = sign j ↔ i = j))
    (hl : ∀ i ∈ l, i < base) (hl' : ∀ i ∈ l', i < base) :
    l.map sign = l'.map sign ↔ l = l' := by
  induction l generalizing l' with
  | nil => cases l' <;> simp
  | cons i l ih =>
    cases l' with
    | nil => simp
    | cons j l' =>
      rw [List.forall_mem_cons] at hl hl'
      rw [List.map_cons, List.map_cons, List.cons.injEq, List.cons.injEq, hinj i j hl.1 hl'.1,
        ih hl.2 hl'.2]

end Signs

/-- Two parts of a text, the first as long in both, compare one after the other. -/
theorem lex_append_iff {α : Type} {r : α → α → Prop} {l l' m m' : List α}
    (h : l.length = l'.length) :
    List.Lex r (l ++ m) (l' ++ m') ↔ List.Lex r l l' ∨ l = l' ∧ List.Lex r m m' := by
  induction l generalizing l' with
  | nil =>
    rw [List.length_nil, eq_comm, List.length_eq_zero_iff] at h
    subst h
    simp
  | cons a l ih =>
    cases l' with
    | nil => cases h
    | cons b l' =>
      rw [List.cons_append, List.cons_append, lex_cons_iff, lex_cons_iff,
        ih (Nat.succ.inj h), List.cons.injEq]
      tauto

end Digits
