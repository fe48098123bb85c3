import Mathlib.Data.List.Nodup
import Mathlib.Data.List.Pairwise
import Mathlib.Tactic.Common

/-! A `Map` of JavaScript: at most one value a key, iterated in the order of insertion. -/
namespace Js

structure Map (κ υ : Type) where
  entries : List (κ × υ)
  nodup : (entries.map Prod.fst).Nodup

namespace Map

variable {κ υ : Type} [DecidableEq κ]

instance [DecidableEq υ] : DecidableEq (Map κ υ) := fun m m' =>
  decidable_of_iff (m.entries = m'.entries) (by cases m; cases m'; simp)

/-- `new Map()` -/
def empty : Map κ υ := ⟨[], List.nodup_nil⟩

def size (m : Map κ υ) : ℕ := m.entries.length

def get (m : Map κ υ) (k : κ) : Option υ := (m.entries.find? fun e => e.1 = k).map Prod.snd

/-- The first key in the order of insertion, `keys().next().value`. -/
def firstKey (m : Map κ υ) : Option κ := m.entries.head?.map Prod.fst

/-- The entries that satisfy `p`, in their order. -/
def filter (m : Map κ υ) (p : κ → υ → Bool) : Map κ υ where
  entries := m.entries.filter fun e => p e.1 e.2
  nodup := m.nodup.sublist (List.filter_sublist.map Prod.fst)

def delete (m : Map κ υ) (k : κ) : Map κ υ := m.filter fun k' _ => k' ≠ k

/-- The entries with a new value at `k`: an old key keeps its place, a new one goes last. -/
def setEntries (k : κ) (v : υ) : List (κ × υ) → List (κ × υ)
  | [] => [(k, v)]
  | e :: es => if e.1 = k then (k, v) :: es else e :: setEntries k v es

theorem mem_keys_setEntries {k k' : κ} {v : υ} {es : List (κ × υ)} :
    k' ∈ (setEntries k v es).map Prod.fst ↔ k' = k ∨ k' ∈ es.map Prod.fst := by
  induction es with
  | nil => simp [setEntries]
  | cons e es ih =>
    unfold setEntries
    split
    · rename_i he
      simp [he]
    · rw [List.map_cons, List.mem_cons, ih, List.map_cons, List.mem_cons]
      exact or_left_comm

theorem nodup_setEntries {k : κ} {v : υ} {es : List (κ × υ)} (h : (es.map Prod.fst).Nodup) :
    ((setEntries k v es).map Prod.fst).Nodup := by
  induction es with
  | nil => simp [setEntries]
  | cons e es ih =>
    rw [List.map_cons, List.nodup_cons] at h
    unfold setEntries
    split
    · rename_i he
      rw [List.map_cons, List.nodup_cons, ← he]
      exact h
    · rename_i he
      rw [List.map_cons, List.nodup_cons, mem_keys_setEntries]
      exact ⟨fun hm => hm.elim he h.1, ih h.2⟩

theorem setEntries_append {k : κ} {es : List (κ × υ)} (h : k ∉ es.map Prod.fst) (v : υ)
    (es' : List (κ × υ)) : setEntries k v (es ++ es') = es ++ setEntries k v es' := by
  induction es with
  | nil => rfl
  | cons e es ih =>
    rw [List.map_cons, List.mem_cons, not_or] at h
    rw [List.cons_append, setEntries, if_neg (Ne.symm h.1), ih h.2, List.cons_append]

def set (m : Map κ υ) (k : κ) (v : υ) : Map κ υ := ⟨setEntries k v m.entries, nodup_setEntries m.nodup⟩

@[simp] theorem get_empty (k : κ) : (empty : Map κ υ).get k = none := rfl

theorem find?_setEntries (k : κ) (v : υ) (es : List (κ × υ)) (k' : κ) :
    ((setEntries k v es).find? fun e => e.1 = k').map Prod.snd =
      if k' = k then some v else (es.find? fun e => e.1 = k').map Prod.snd := by
  induction es with
  | nil =>
    by_cases h : k = k'
    · simp [setEntries, h]
    · simp [setEntries, h, Ne.symm h]
  | cons e es ih =>
    by_cases he : e.1 = k
    · by_cases h : k = k'
      · simp [setEntries, he, h]
      · simp [setEntries, he, h, Ne.symm h]
    · rw [setEntries, if_neg he, List.find?_cons, List.find?_cons]
      by_cases h : e.1 = k'
      · subst h
        simp [he]
      · simp only [h, decide_false]
        exact ih

theorem get_set (m : Map κ υ) (k : κ) (v : υ) (k' : κ) :
    (m.set k v).get k' = if k' = k then some v else m.get k' :=
  find?_setEntries k v m.entries k'

@[simp] theorem get_set_self (m : Map κ υ) (k : κ) (v : υ) : (m.set k v).get k = some v := by
  simp [get_set]

/-- The entries of the map are what `get` finds. -/
theorem mem_entries {m : Map κ υ} {k : κ} {v : υ} : (k, v) ∈ m.entries ↔ m.get k = some v := by
  obtain ⟨es, hes⟩ := m
  unfold get
  dsimp only
  induction es with
  | nil => simp
  | cons e es ih =>
    rw [List.map_cons, List.nodup_cons] at hes
    by_cases he : e.1 = k
    · subst he
      simp only [List.mem_cons, List.find?_cons, decide_true, Option.map_some, Option.some.injEq]
      constructor
      · rintro (h | h)
        · rw [← h]
        · exact absurd (List.mem_map_of_mem (f := Prod.fst) h) hes.1
      · rintro rfl
        exact .inl rfl
    · have hne : (k, v) ≠ e := fun h => he (by rw [← h])
      simp only [List.mem_cons, hne, false_or, List.find?_cons, he, decide_false]
      exact ih hes.2

theorem get_filter (m : Map κ υ) (p : κ → υ → Bool) (k : κ) :
    (m.filter p).get k = (m.get k).filter (p k) := by
  ext v
  rw [← mem_entries, Option.filter_eq_some_iff, ← mem_entries]
  simp [filter]

theorem get_delete (m : Map κ υ) (k k' : κ) :
    (m.delete k).get k' = if k' = k then none else m.get k' := by
  rw [delete, get_filter]
  by_cases h : k' = k
  · simp [h]
  · cases m.get k' <;> simp [h]

omit [DecidableEq κ] in
/-- The entries are all different, so each two of them are entries of two keys. -/
theorem pairwise_entries_iff (m : Map κ υ) {R : κ × υ → κ × υ → Prop} [Std.Symm R] :
    m.entries.Pairwise R ↔ ∀ e ∈ m.entries, ∀ e' ∈ m.entries, e.1 ≠ e'.1 → R e e' := by
  have hnodup := m.nodup
  rw [List.Nodup, List.pairwise_map] at hnodup
  constructor
  · intro h e he e' he' hne
    exact h.forall he he' fun heq => hne (congrArg Prod.fst heq)
  · intro h
    exact hnodup.imp_of_mem fun he he' hne => h _ he _ he' hne

theorem notMem_keys_of_get {m : Map κ υ} {k : κ} (h : m.get k = none) :
    k ∉ m.entries.map Prod.fst := by
  intro hmem
  obtain ⟨e, he, rfl⟩ := List.mem_map.mp hmem
  rw [mem_entries.mp he] at h
  cases h

theorem entries_set_of_get {m : Map κ υ} {k : κ} (h : m.get k = none) (v : υ) :
    (m.set k v).entries = m.entries ++ [(k, v)] := by
  have happend := setEntries_append (notMem_keys_of_get h) v []
  rwa [List.append_nil] at happend

/-- The last entry keeps its place. -/
theorem entries_set_of_getLast {m : Map κ υ} {k : κ} {old : υ} {front : List (κ × υ)}
    (h : m.entries = front ++ [(k, old)]) (v : υ) : (m.set k v).entries = front ++ [(k, v)] := by
  have hnodup := m.nodup
  rw [h, List.map_append, List.nodup_append] at hnodup
  have hfront : k ∉ front.map Prod.fst := fun hmem =>
    hnodup.2.2 k hmem k (List.mem_singleton_self k) rfl
  have happend := setEntries_append hfront v [(k, old)]
  rw [← h] at happend
  exact happend.trans (by rw [setEntries, if_pos rfl])

omit [DecidableEq κ] in
theorem size_filter_le (m : Map κ υ) (p : κ → υ → Bool) : (m.filter p).size ≤ m.size :=
  List.length_filter_le ..

theorem length_setEntries_le (k : κ) (v : υ) (es : List (κ × υ)) :
    (setEntries k v es).length ≤ es.length + 1 := by
  induction es with
  | nil => simp [setEntries]
  | cons e es ih =>
    unfold setEntries
    split
    · simp
    · simpa using ih

theorem size_set_le (m : Map κ υ) (k : κ) (v : υ) : (m.set k v).size ≤ m.size + 1 :=
  length_setEntries_le k v m.entries

theorem size_delete_lt {m : Map κ υ} {k : κ} {v : υ} (h : m.get k = some v) :
    (m.delete k).size < m.size := by
  refine List.length_filter_lt_length_iff_exists.mpr ⟨(k, v), mem_entries.mpr h, ?_⟩
  simp

/-- The first key of a map is one of its keys. -/
theorem exists_get_of_firstKey {m : Map κ υ} {k : κ} (h : m.firstKey = some k) :
    ∃ v, m.get k = some v := by
  obtain ⟨e, he, rfl⟩ := Option.map_eq_some_iff.mp h
  exact ⟨e.2, mem_entries.mp (List.mem_of_mem_head? he)⟩

omit [DecidableEq κ] in
theorem firstKey_eq_none {m : Map κ υ} (h : m.firstKey = none) : m.size = 0 := by
  simpa [firstKey, size] using h

/-- Deleting some keys, one after the other. -/
theorem get_foldl_delete (m : Map κ υ) (ks : List κ) (k : κ) :
    (ks.foldl delete m).get k = if k ∈ ks then none else m.get k := by
  induction ks generalizing m with
  | nil => simp
  | cons k' ks ih =>
    rw [List.foldl_cons, ih, get_delete]
    by_cases h : k ∈ ks
    · simp [h]
    · by_cases hk : k = k' <;> simp [h, hk]

/-- Setting some keys, each to a value of its own. -/
theorem get_foldl_set (m : Map κ υ) (ks : List κ) (v : κ → υ) (k : κ) :
    (ks.foldl (fun m k => m.set k (v k)) m).get k = if k ∈ ks then some (v k) else m.get k := by
  induction ks generalizing m with
  | nil => simp
  | cons k' ks ih =>
    rw [List.foldl_cons, ih, get_set]
    by_cases h : k ∈ ks
    · simp [h]
    · by_cases hk : k = k' <;> simp [h, hk]

/-- Setting the key of each item to the item. -/
theorem get_foldl_set_key {m : Map κ υ} {key : υ → κ} {items : List υ} {k : κ} {v : υ}
    (h : (items.foldl (fun m item => m.set (key item) item) m).get k = some v) :
    (v ∈ items ∧ key v = k) ∨ m.get k = some v := by
  induction items generalizing m with
  | nil => exact .inr h
  | cons x items ih =>
    rcases ih h with ⟨hv, hk⟩ | hm
    · exact .inl ⟨List.mem_cons_of_mem x hv, hk⟩
    · rw [get_set] at hm
      split at hm
      · rename_i hk
        cases hm
        exact .inl ⟨List.mem_cons_self, hk.symm⟩
      · exact .inr hm

theorem get_foldl_set_key_eq_none {m : Map κ υ} {key : υ → κ} {items : List υ} {k : κ}
    (h : (items.foldl (fun m item => m.set (key item) item) m).get k = none) :
    m.get k = none ∧ ∀ v ∈ items, key v ≠ k := by
  induction items generalizing m with
  | nil => exact ⟨h, by simp⟩
  | cons x items ih =>
    obtain ⟨hm, hitems⟩ := ih h
    rw [get_set] at hm
    split at hm
    · cases hm
    · rename_i hk
      refine ⟨hm, ?_⟩
      intro v hv
      rcases List.mem_cons.mp hv with rfl | hv
      · exact fun hx => hk hx.symm
      · exact hitems v hv

end Map
end Js
