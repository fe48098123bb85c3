import Mathlib.Algebra.BigOperators.Group.Finset.Basic
import Mathlib.Algebra.Order.BigOperators.Group.Finset
import Mathlib.Algebra.Order.BigOperators.Group.List
import Mathlib.Algebra.Order.Group.Defs
import Pivotal.Store.Group

/-! One row of each key, and when its values make up the sum of all rows. -/
namespace Store

variable {κ M : Type}

section Single

variable [AddCommGroup M] [LinearOrder M] [IsOrderedAddMonoid M]

/-- Values that are not negative have a sum among them if at most one of them adds something. -/
theorem sum_mem_iff {xs : List M} (hne : xs ≠ []) (hnonneg : ∀ x ∈ xs, 0 ≤ x) :
    xs.sum ∈ xs ↔ xs.Pairwise fun x y => x = 0 ∨ y = 0 := by
  induction xs with
  | nil => exact absurd rfl hne
  | cons x xs ih =>
    obtain ⟨hx, hxs⟩ := List.forall_mem_cons.mp hnonneg
    rw [List.sum_cons, List.mem_cons, List.pairwise_cons]
    by_cases hnil : xs = []
    · subst hnil
      simp
    · have hzero : xs.sum = 0 → ∀ y ∈ xs, y = 0 := fun hsum y hy =>
        List.all_zero_of_le_zero_le_of_sum_eq_zero hxs hsum hy
      constructor
      · intro hmem
        rcases hmem with hsum | hmem
        · have hall := hzero (by simpa using hsum)
          refine ⟨fun y hy => .inr (hall y hy), List.pairwise_of_forall_mem_list ?_⟩
          intro y hy _ _
          exact .inl (hall y hy)
        · have hle := List.single_le_sum hxs _ hmem
          have hx0 : x = 0 := le_antisymm (by simpa using hle) hx
          rw [hx0, zero_add] at hmem
          exact ⟨fun y _ => .inl hx0, (ih hnil hxs).mp hmem⟩
      · rintro ⟨hfirst, hrest⟩
        by_cases hx0 : x = 0
        · right
          rw [hx0, zero_add]
          exact (ih hnil hxs).mpr hrest
        · left
          rw [List.sum_eq_zero fun y hy => (hfirst y hy).resolve_left hx0, add_zero]

end Single

variable [DecidableEq κ]

/-- The values of one key. -/
def valuesOf (rows : List (κ × M)) (k : κ) : List M := (rows.filter fun r => r.1 = k).map Prod.snd

theorem mem_valuesOf {rows : List (κ × M)} {k : κ} {v : M} :
    v ∈ valuesOf rows k ↔ (k, v) ∈ rows := by
  simp [valuesOf]

/-- A relation of the values of each two rows with one key is one of the values of each key. -/
theorem pairwise_valuesOf_iff {R : M → M → Prop} {rows : List (κ × M)} :
    (rows.Pairwise fun r r' => r.1 = r'.1 → R r.2 r'.2) ↔ ∀ k, (valuesOf rows k).Pairwise R := by
  induction rows with
  | nil => simp [valuesOf]
  | cons r rows ih =>
    have hfirst : (∀ r' ∈ rows, r.1 = r'.1 → R r.2 r'.2) ↔ ∀ v ∈ valuesOf rows r.1, R r.2 v := by
      constructor
      · intro h v hv
        exact h _ (mem_valuesOf.mp hv) rfl
      · intro h r' hr' hkey
        exact h r'.2 (mem_valuesOf.mpr (by rw [hkey]; exact hr'))
    have hcons : ∀ k, valuesOf (r :: rows) k =
        if r.1 = k then r.2 :: valuesOf rows k else valuesOf rows k := by
      intro k
      by_cases hk : r.1 = k <;> simp [valuesOf, hk]
    rw [List.pairwise_cons, hfirst, ih]
    constructor
    · rintro ⟨hhead, htail⟩ k
      rw [hcons]
      split_ifs with hk
      · rw [List.pairwise_cons, ← hk]
        exact ⟨hhead, htail _⟩
      · exact htail k
    · intro h
      constructor
      · have hself := h r.1
        rw [hcons, if_pos rfl, List.pairwise_cons] at hself
        exact hself.1
      · intro k
        have hk := h k
        rw [hcons] at hk
        split_ifs at hk
        · exact hk.of_cons
        · exact hk

theorem sum_valuesOf [AddCommMonoid M] (rows : List (κ × M)) :
    ∑ k ∈ (rows.map Prod.fst).toFinset, (valuesOf rows k).sum = (rows.map Prod.snd).sum := by
  have hsame : (rows.map Prod.fst).toFinset = (rows.map Prod.fst).dedup.toFinset := by
    ext k
    simp
  rw [hsame, List.sum_toFinset _ (List.nodup_dedup _)]
  refine sum_fibres (List.nodup_dedup _) Prod.snd fun r hr => ?_
  exact List.mem_dedup.mpr (List.mem_map_of_mem hr)

variable [AddCommGroup M] [LinearOrder M] [IsOrderedAddMonoid M]

/-- One row of each key makes up the sum of all rows exactly if of two rows with one key there is
one that adds nothing. -/
theorem exists_choice_iff {rows : List (κ × M)} (hnonneg : ∀ r ∈ rows, 0 ≤ r.2) :
    (∃ f : κ → M, (∀ k ∈ (rows.map Prod.fst).toFinset, (k, f k) ∈ rows) ∧
      ∑ k ∈ (rows.map Prod.fst).toFinset, f k = (rows.map Prod.snd).sum) ↔
    rows.Pairwise fun r r' => r.1 = r'.1 → r.2 = 0 ∨ r'.2 = 0 := by
  have hvalues : ∀ k, ∀ v ∈ valuesOf rows k, 0 ≤ v := fun k v hv => hnonneg _ (mem_valuesOf.mp hv)
  have hne : ∀ k, k ∈ (rows.map Prod.fst).toFinset → valuesOf rows k ≠ [] := by
    intro k hk
    obtain ⟨r, hr, rfl⟩ := List.mem_map.mp (List.mem_toFinset.mp hk)
    exact List.ne_nil_of_mem (mem_valuesOf.mpr hr)
  rw [pairwise_valuesOf_iff (R := fun v v' : M => v = 0 ∨ v' = 0)]
  constructor
  · rintro ⟨f, hf, hsum⟩ k
    by_cases hk : k ∈ (rows.map Prod.fst).toFinset
    · have hle : ∀ k ∈ (rows.map Prod.fst).toFinset, f k ≤ (valuesOf rows k).sum :=
        fun k hk => List.single_le_sum (hvalues k) _ (mem_valuesOf.mpr (hf k hk))
      rw [← sum_valuesOf, Finset.sum_eq_sum_iff_of_le hle] at hsum
      rw [← sum_mem_iff (hne k hk) (hvalues k), ← hsum k hk]
      exact mem_valuesOf.mpr (hf k hk)
    · have hnil : valuesOf rows k = [] := by
        by_contra hsome
        obtain ⟨v, hv⟩ := List.exists_mem_of_ne_nil _ hsome
        exact hk (List.mem_toFinset.mpr (List.mem_map_of_mem (mem_valuesOf.mp hv)))
      rw [hnil]
      exact List.Pairwise.nil
  · intro hpairwise
    use fun k => (valuesOf rows k).sum
    constructor
    · intro k hk
      exact mem_valuesOf.mp ((sum_mem_iff (hne k hk) (hvalues k)).mpr (hpairwise k))
    · exact sum_valuesOf rows

end Store
