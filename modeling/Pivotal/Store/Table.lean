import Mathlib.Data.List.Nodup

/-! A table of rows with a unique key. -/
namespace Store

/-- Rows, no two with the same key. -/
structure Table {κ α : Type} (key : α → κ) where
  rows : List α
  distinct : (rows.map key).Nodup

namespace Table

variable {κ α : Type} {key : α → κ}

def empty : Table key := ⟨[], List.nodup_nil⟩

/-- `UPDATE … SET … WHERE p`, of columns other than the key. -/
def modify (t : Table key) (p : α → Bool) (f : α → α) (h : ∀ r, key (f r) = key r) :
    Table key where
  rows := t.rows.map fun r => if p r then f r else r
  distinct := by
    have hkey : key ∘ (fun r => if p r then f r else r) = key := by
      funext r
      simp only [Function.comp_apply]
      split
      · exact h r
      · rfl
    rw [List.map_map, hkey]
    exact t.distinct

/-- `INSERT`, of a key that is not in use. -/
def insert (t : Table key) (r : α) (h : ∀ r' ∈ t.rows, key r' ≠ key r) : Table key where
  rows := t.rows ++ [r]
  distinct := by
    rw [List.map_append, List.nodup_append]
    refine ⟨t.distinct, by simp, ?_⟩
    intro k hk k' hk' heq
    obtain ⟨r', hr', rfl⟩ := List.mem_map.mp hk
    simp only [List.map_cons, List.map_nil, List.mem_singleton] at hk'
    exact h r' hr' (heq.trans hk')

/-- `DELETE … WHERE p`. -/
def deleteWhere (t : Table key) (p : α → Bool) : Table key where
  rows := t.rows.filter fun r => !p r
  distinct := t.distinct.sublist ((List.filter_sublist).map key)

/-- `INSERT … VALUES (…), (…)` of several rows, which fails where a key is in use. -/
def insertAll [DecidableEq κ] (t : Table key) (rows : List α) : Option (Table key) :=
  if h : ((t.rows ++ rows).map key).Nodup then some ⟨t.rows ++ rows, h⟩ else none

theorem mem_modify {t : Table key} {p : α → Bool} {f : α → α} {h : ∀ r, key (f r) = key r}
    {r : α} : r ∈ (t.modify p f h).rows ↔ ∃ r' ∈ t.rows, r = if p r' then f r' else r' := by
  simp only [modify, List.mem_map, eq_comm]

theorem mem_insert {t : Table key} {r' : α} {h : ∀ r ∈ t.rows, key r ≠ key r'} {r : α} :
    r ∈ (t.insert r' h).rows ↔ r ∈ t.rows ∨ r = r' := by
  simp [insert]

theorem mem_deleteWhere {t : Table key} {p : α → Bool} {r : α} :
    r ∈ (t.deleteWhere p).rows ↔ r ∈ t.rows ∧ p r = false := by
  simp [deleteWhere]

theorem eq_of_key (t : Table key) {r r' : α} (h : r ∈ t.rows) (h' : r' ∈ t.rows)
    (hkey : key r = key r') : r = r' :=
  List.inj_on_of_nodup_map t.distinct h h' hkey

variable [DecidableEq κ]

/-- `SELECT … WHERE key = k`. -/
def find? (t : Table key) (k : κ) : Option α := t.rows.find? fun r => key r = k

theorem find?_eq_some_iff {t : Table key} {k : κ} {r : α} :
    t.find? k = some r ↔ r ∈ t.rows ∧ key r = k := by
  constructor
  · intro h
    exact ⟨List.mem_of_find?_eq_some h, by simpa using List.find?_some h⟩
  · rintro ⟨hr, hk⟩
    cases hfind : t.find? k with
    | none => simpa [hk] using List.find?_eq_none.mp hfind r hr
    | some r' =>
      have hr' : r' ∈ t.rows := List.mem_of_find?_eq_some hfind
      have hk' : key r' = k := by simpa using List.find?_some hfind
      rw [t.eq_of_key hr' hr (hk'.trans hk.symm)]

theorem find?_of_mem {t : Table key} {r : α} (h : r ∈ t.rows) : t.find? (key r) = some r :=
  find?_eq_some_iff.mpr ⟨h, rfl⟩

theorem find?_modify (t : Table key) (p : α → Bool) (f : α → α) (h : ∀ r, key (f r) = key r)
    (k : κ) : (t.modify p f h).find? k = (t.find? k).map fun r => if p r then f r else r := by
  have hkey : ∀ r, key (if p r then f r else r) = key r := by
    intro r
    split
    · exact h r
    · rfl
  simp only [find?, modify, List.find?_map, Function.comp_def, hkey]

theorem find?_insert (t : Table key) (r : α) (h : ∀ r' ∈ t.rows, key r' ≠ key r) (k : κ) :
    (t.insert r h).find? k = if key r = k then some r else t.find? k := by
  by_cases hk : key r = k
  · rw [if_pos hk]
    exact find?_eq_some_iff.mpr ⟨mem_insert.mpr (.inr rfl), hk⟩
  · simp [find?, insert, List.find?_append, hk]

end Table
end Store
