import Mathlib.Algebra.BigOperators.Group.List.Basic
import Mathlib.Algebra.Group.WithOne.Basic
import Mathlib.Data.List.Nodup

/-! Rows put together by a key, and the sums of their groups. -/
namespace Store

variable {α κ M : Type} [DecidableEq κ]

/-- The first row of every key. -/
def firsts (key : α → κ) : List α → List α
  | [] => []
  | a :: rows => a :: (firsts key rows).filter fun b => key b ≠ key a

/-- `GROUP BY`: for every key a row of it, and all the rows with the key. -/
def groups (key : α → κ) (rows : List α) : List (α × List α) :=
  (firsts key rows).map fun a => (a, rows.filter fun b => key b = key a)

variable {key : α → κ} {rows : List α}

theorem firsts_sublist (key : α → κ) (rows : List α) : (firsts key rows).Sublist rows := by
  induction rows with
  | nil => exact List.Sublist.slnil
  | cons a rows ih => exact (List.filter_sublist.trans ih).cons_cons a

theorem nodup_firsts (key : α → κ) (rows : List α) : ((firsts key rows).map key).Nodup := by
  induction rows with
  | nil => exact List.nodup_nil
  | cons a rows ih =>
    rw [firsts, List.map_cons, List.nodup_cons]
    constructor
    · intro hmem
      obtain ⟨b, hb, hkey⟩ := List.mem_map.mp hmem
      have hne := (List.mem_filter.mp hb).2
      simp only [ne_eq, decide_not, hkey, decide_true, Bool.not_true] at hne
      cases hne
    · exact ih.sublist (List.filter_sublist.map key)

theorem key_mem_firsts (key : α → κ) {a : α} (ha : a ∈ rows) : key a ∈ (firsts key rows).map key := by
  induction rows with
  | nil => cases ha
  | cons b rows ih =>
    rw [firsts, List.map_cons, List.mem_cons]
    by_cases hkey : key a = key b
    · exact .inl hkey
    · right
      rcases List.mem_cons.mp ha with rfl | ha
      · exact absurd rfl hkey
      · obtain ⟨c, hc, hca⟩ := List.mem_map.mp (ih ha)
        refine List.mem_map.mpr ⟨c, List.mem_filter.mpr ⟨hc, ?_⟩, hca⟩
        simpa [hca] using hkey

theorem mem_groups {g : α × List α} (hg : g ∈ groups key rows) :
    g.1 ∈ rows ∧ ∀ b ∈ g.2, b ∈ rows ∧ key b = key g.1 := by
  obtain ⟨a, ha, rfl⟩ := List.mem_map.mp hg
  constructor
  · exact (firsts_sublist key rows).mem ha
  · intro b hb
    simpa using hb

/-- A coarser key tells the groups apart exactly if no two of them share it. -/
theorem nodup_firsts_iff {κ' : Type} {key' : α → κ'} (h : ∀ a b, key a = key b → key' a = key' b) :
    ((firsts key rows).map key').Nodup ↔
      ∀ a ∈ rows, ∀ b ∈ rows, key' a = key' b → key a = key b := by
  constructor
  · intro hnodup a ha b hb hkey'
    obtain ⟨c, hc, hca⟩ := List.mem_map.mp (key_mem_firsts key ha)
    obtain ⟨d, hd, hdb⟩ := List.mem_map.mp (key_mem_firsts key hb)
    have hcd : key' c = key' d := (h c a hca).trans (hkey'.trans (h d b hdb).symm)
    have heq : c = d := List.inj_on_of_nodup_map hnodup hc hd hcd
    rw [← hca, ← hdb, heq]
  · intro hkeys
    have hnodup := nodup_firsts key rows
    rw [List.Nodup, List.pairwise_map] at hnodup ⊢
    refine hnodup.imp_of_mem ?_
    intro a b ha hb hne hkey'
    have hsublist := firsts_sublist key rows
    exact hne (hkeys a (hsublist.mem ha) b (hsublist.mem hb) hkey')

theorem firsts_filter {p : α → Bool} (hp : ∀ a b, key a = key b → p a = p b) :
    firsts key (rows.filter p) = (firsts key rows).filter p := by
  induction rows with
  | nil => rfl
  | cons a rows ih =>
    by_cases ha : p a = true
    · rw [List.filter_cons_of_pos ha, firsts, ih, firsts, List.filter_cons_of_pos ha,
        List.filter_filter, List.filter_filter]
      simp only [Bool.and_comm]
    · rw [List.filter_cons_of_neg ha, ih, firsts, List.filter_cons_of_neg ha, List.filter_filter]
      apply List.filter_congr
      intro b _
      by_cases hb : key b = key a
      · simpa [hb] using (hp b a hb).trans (Bool.eq_false_iff.mpr ha)
      · simp [hb]

/-- What the key decides can be asked of the groups as of the rows. -/
theorem groups_filter {p : α → Bool} (hp : ∀ a b, key a = key b → p a = p b) :
    groups key (rows.filter p) = (groups key rows).filter fun g => p g.1 := by
  rw [groups, groups, List.filter_map, firsts_filter hp]
  apply List.map_congr_left
  intro a ha
  have hpa : p a = true := (List.mem_filter.mp ha).2
  rw [List.filter_filter]
  congr 1
  apply List.filter_congr
  intro b _
  by_cases hb : key b = key a
  · simp [hb, hp b a hb, hpa]
  · simp [hb]

variable [AddCommMonoid M]

theorem sum_single {ks : List κ} (hks : ks.Nodup) {k : κ} (hk : k ∈ ks) (x : M) :
    (ks.map fun k' => if k = k' then x else 0).sum = x := by
  induction ks with
  | nil => cases hk
  | cons k' ks ih =>
    obtain ⟨hnot, hks⟩ := List.nodup_cons.mp hks
    rw [List.map_cons, List.sum_cons]
    rcases List.mem_cons.mp hk with rfl | hk
    · have hzero : ∀ y ∈ ks.map (fun k' => if k = k' then x else 0), y = 0 := by
        intro y hy
        obtain ⟨k', hk', rfl⟩ := List.mem_map.mp hy
        exact if_neg (ne_of_mem_of_not_mem hk' hnot).symm
      rw [if_pos rfl, List.sum_eq_zero hzero, add_zero]
    · rw [if_neg (ne_of_mem_of_not_mem hk hnot), ih hks hk, zero_add]

/-- Keys that are all different, and are those of the rows, divide the rows. -/
theorem sum_fibres {ks : List κ} (hks : ks.Nodup) (f : α → M) (h : ∀ a ∈ rows, key a ∈ ks) :
    (ks.map fun k => ((rows.filter fun a => key a = k).map f).sum).sum = (rows.map f).sum := by
  induction rows with
  | nil => simp
  | cons a rows ih =>
    have hcons : ∀ k, (((a :: rows).filter fun b => key b = k).map f).sum =
        (if key a = k then f a else 0) + ((rows.filter fun b => key b = k).map f).sum := by
      intro k
      by_cases hk : key a = k <;> simp [hk]
    simp only [hcons, List.sum_map_add]
    rw [sum_single hks (h a List.mem_cons_self), List.map_cons, List.sum_cons,
      ih fun b hb => h b (List.mem_cons_of_mem a hb)]

theorem sum_groups (key : α → κ) (f : α → M) (rows : List α) :
    ((groups key rows).map fun g => (g.2.map f).sum).sum = (rows.map f).sum := by
  have hfibres := sum_fibres (nodup_firsts key rows) f fun a ha => key_mem_firsts key ha
  rw [List.map_map] at hfibres
  rw [groups, List.map_map]
  exact hfibres

section Aggregate

variable {f : α → M}

/-- `SELECT key, SUM(f) … GROUP BY key`: the sum of the rows of a key, and nothing if there is no
such row. -/
def aggregate (key : α → κ) (f : α → M) (rows : List α) (k : κ) : WithZero M :=
  ((rows.filter fun a => key a = k).map fun a => (f a : WithZero M)).sum

theorem aggregate_append (rows rows' : List α) (k : κ) :
    aggregate key f (rows ++ rows') k = aggregate key f rows k + aggregate key f rows' k := by
  rw [aggregate, List.filter_append, List.map_append, List.sum_append]
  rfl

theorem aggregate_perm {rows' : List α} (h : rows.Perm rows') (k : κ) :
    aggregate key f rows k = aggregate key f rows' k :=
  ((h.filter _).map _).sum_eq

/-- What is aggregated depends on the keys and the values of the rows. -/
theorem aggregate_map {β : Type} {key' : β → κ} {f' : β → M} {s : α → β}
    (hkey : ∀ a ∈ rows, key' (s a) = key a) (hf : ∀ a ∈ rows, f' (s a) = f a) (k : κ) :
    aggregate key' f' (rows.map s) k = aggregate key f rows k := by
  have hfilter : (rows.map s).filter (fun b => key' b = k) =
      (rows.filter fun a => key a = k).map s := by
    rw [List.filter_map]
    congr 1
    apply List.filter_congr
    intro a ha
    simp [hkey a ha]
  rw [aggregate, hfilter, List.map_map]
  congr 1
  apply List.map_congr_left
  intro a ha
  rw [Function.comp_apply, hf a (List.mem_filter.mp ha).1]

theorem aggregate_congr {key' : α → κ} {f' : α → M} (hkey : ∀ a ∈ rows, key' a = key a)
    (hf : ∀ a ∈ rows, f' a = f a) (k : κ) : aggregate key' f' rows k = aggregate key f rows k := by
  have hmap := aggregate_map (s := id) hkey hf k
  rw [List.map_id] at hmap
  exact hmap

theorem coe_sum {xs : List M} (h : xs ≠ []) :
    (xs.sum : WithZero M) = (xs.map WithZero.coe).sum := by
  induction xs with
  | nil => exact absurd rfl h
  | cons x xs ih =>
    by_cases hnil : xs = []
    · simp [hnil]
    · rw [List.sum_cons, WithZero.coe_add, ih hnil, List.map_cons, List.sum_cons]

/-- What is summed of the rows of a key is a function of their aggregate, if it adds up. -/
theorem sum_filter_eq_lift {N : Type} [AddCommMonoid N] (φ : M →+ N) (k : κ) :
    ((rows.filter fun a => key a = k).map fun a => φ (f a)).sum =
      WithZero.lift (φ : M →ₙ+ N) (aggregate key f rows k) := by
  rw [aggregate, map_list_sum, List.map_map]
  rfl

/-- Rows that stand for groups, with the groups' sums, are aggregated as the rows of the groups. -/
theorem aggregate_groups {κ' β : Type} [DecidableEq κ'] {key' : α → κ'} {keyOf : β → κ'} {g : β → M}
    {s : α × List α → β} (hkey : ∀ a b, key a = key b → key' a = key' b)
    (hs : ∀ e, keyOf (s e) = key' e.1) (hg : ∀ e, g (s e) = (e.2.map f).sum) (k : κ') :
    aggregate keyOf g ((groups key rows).map s) k = aggregate key' f rows k := by
  have hfilter : ((groups key rows).map s).filter (fun b => keyOf b = k) =
      (groups key (rows.filter fun a => key' a = k)).map s := by
    rw [groups_filter fun a b hab => by rw [hkey a b hab], List.filter_map]
    congr 1
    apply List.filter_congr
    intro e _
    simp [hs]
  have hgroup : ∀ e ∈ groups key (rows.filter fun a => key' a = k),
      (g (s e) : WithZero M) = (e.2.map fun a : α => (f a : WithZero M)).sum := by
    intro e he
    obtain ⟨a, ha, rfl⟩ := List.mem_map.mp he
    have hmem : a ∈ ((rows.filter fun a => key' a = k).filter fun b => key b = key a) :=
      List.mem_filter.mpr ⟨(firsts_sublist key _).mem ha, by simp⟩
    rw [hg, coe_sum (List.ne_nil_of_mem (List.mem_map_of_mem hmem)), List.map_map]
    rfl
  have hsums := List.map_congr_left hgroup
  rw [aggregate, hfilter, List.map_map]
  dsimp only [Function.comp_def]
  rw [hsums, sum_groups]
  rfl

end Aggregate

end Store
