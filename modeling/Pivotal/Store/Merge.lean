import Mathlib.Order.WithBot

/-! Merging a row with the values of a later statement, column by column: what
`ON DUPLICATE KEY UPDATE` can say of a nullable column, and runs of such merges. -/
namespace Store

variable {α : Type}

/-- `COALESCE(VALUES(column), column)` -/
def coalesce (values old : Option α) : Option α := values.or old

/-- `CASE WHEN column IS NULL THEN VALUES(column) WHEN VALUES(column) IS NULL THEN column
ELSE f(column, VALUES(column)) END` -/
def unlessNull (f : α → α → α) : Option α → Option α → Option α
  | none, values => values
  | some old, none => some old
  | some old, some values => some (f old values)

/-- `LEAST`, of what is not `NULL`. -/
def least [LinearOrder α] (old values : Option α) : Option α := unlessNull min old values

/-- `GREATEST`, of what is not `NULL`. -/
def greatest [LinearOrder α] (old values : Option α) : Option α := unlessNull max old values

@[simp] theorem coalesce_none (old : Option α) : coalesce none old = old := by simp [coalesce]

@[simp] theorem coalesce_some (a : α) (old : Option α) : coalesce (some a) old = some a := by
  simp [coalesce]

/-- The latest value, as an element of the order with `NULL` at its bottom. -/
def latest (column : Option α) : WithBot α := column

/-- The earliest value, as an element of the dual order with `NULL` at its bottom. -/
def earliest (column : Option α) : WithBot αᵒᵈ := column.map OrderDual.toDual

theorem latest_greatest [LinearOrder α] (old values : Option α) :
    latest (greatest old values) = latest old ⊔ latest values := by
  cases old with
  | none => exact (sup_eq_right.mpr bot_le).symm
  | some a =>
    cases values with
    | none => exact (sup_eq_left.mpr bot_le).symm
    | some b => exact WithBot.coe_max a b

theorem earliest_least [LinearOrder α] (old values : Option α) :
    earliest (least old values) = earliest old ⊔ earliest values := by
  cases old with
  | none => exact (sup_eq_right.mpr bot_le).symm
  | some a =>
    cases values with
    | none => exact (sup_eq_left.mpr bot_le).symm
    | some b => exact WithBot.coe_sup (OrderDual.toDual a) (OrderDual.toDual b)

theorem latest_injective : Function.Injective (latest (α := α)) := fun _ _ h => h

theorem earliest_injective : Function.Injective (earliest (α := α)) :=
  Option.map_injective OrderDual.toDual.injective

section Runs

variable {σ ι : Type} {L : Type} [SemilatticeSup L]

/-- When every step joins what it brings to a value, a run ends in the least upper bound of where
it began and of all that was brought. -/
theorem foldl_le_iff {step : σ → ι → σ} {value : σ → L} {brings : ι → L}
    (hstep : ∀ s i, value (step s i) = value s ⊔ brings i) (is : List ι) (s : σ) (c : L) :
    value (is.foldl step s) ≤ c ↔ value s ≤ c ∧ ∀ i ∈ is, brings i ≤ c := by
  induction is generalizing s with
  | nil => simp
  | cons i is ih =>
    have hrest := ih (step s i)
    rw [hstep, sup_le_iff] at hrest
    simp only [List.foldl_cons, List.mem_cons, forall_eq_or_imp]
    rw [hrest, and_assoc]

/-- Order and repetition of the steps do not matter: what counts is the set of what they bring. -/
theorem foldl_eq_of_brings (value : σ → L) {step : σ → ι → σ} {brings : ι → L}
    (hstep : ∀ s i, value (step s i) = value s ⊔ brings i) {is is' : List ι} {s s' : σ}
    (hs : value s = value s') (hsub : ∀ i ∈ is, ∃ i' ∈ is', brings i = brings i')
    (hsub' : ∀ i' ∈ is', ∃ i ∈ is, brings i' = brings i) :
    value (is.foldl step s) = value (is'.foldl step s') := by
  apply eq_of_forall_ge_iff
  intro c
  rw [foldl_le_iff hstep, foldl_le_iff hstep, hs]
  constructor
  · rintro ⟨hle, hall⟩
    refine ⟨hle, fun i' hi' => ?_⟩
    obtain ⟨i, hi, heq⟩ := hsub' i' hi'
    exact heq ▸ hall i hi
  · rintro ⟨hle, hall⟩
    refine ⟨hle, fun i hi => ?_⟩
    obtain ⟨i', hi', heq⟩ := hsub i hi
    exact heq ▸ hall i' hi'

end Runs

end Store
