import Pivotal.Store.Table

/-! A table with a second unique key. -/
namespace Store

/-- Rows, no two with the same key, and no two with the same index. -/
structure Indexed {κ ι α : Type} (key : α → κ) (index : α → ι) extends Table key where
  unique : (rows.map index).Nodup

namespace Indexed

variable {κ ι α : Type} {key : α → κ} {index : α → ι}

def empty : Indexed key index := ⟨.empty, List.nodup_nil⟩

/-- No other row has the index of `r`. -/
def Admits (t : Indexed key index) (r : α) : Prop :=
  ∀ r' ∈ t.rows, key r' ≠ key r → index r' ≠ index r

instance [DecidableEq κ] [DecidableEq ι] (t : Indexed key index) (r : α) :
    Decidable (t.Admits r) := inferInstanceAs (Decidable (∀ r' ∈ t.rows, _))

theorem eq_of_index (t : Indexed key index) {r r' : α} (h : r ∈ t.rows) (h' : r' ∈ t.rows)
    (hindex : index r = index r') : r = r' :=
  List.inj_on_of_nodup_map t.unique h h' hindex

section Put

variable [DecidableEq κ]

/-- The row of this key is replaced, or inserted if there is none. -/
def put (t : Indexed key index) (r : α) (h : t.Admits r) : Indexed key index where
  rows := t.rows.filter (fun r' => key r' ≠ key r) ++ [r]
  distinct := by
    rw [List.map_append, List.nodup_append]
    refine ⟨t.distinct.sublist ((List.filter_sublist).map key), by simp, ?_⟩
    intro k hk k' hk'
    obtain ⟨r', hr', rfl⟩ := List.mem_map.mp hk
    obtain rfl : k' = key r := by simpa using hk'
    simpa using (List.mem_filter.mp hr').2
  unique := by
    rw [List.map_append, List.nodup_append]
    refine ⟨t.unique.sublist ((List.filter_sublist).map index), by simp, ?_⟩
    intro i hi i' hi'
    obtain ⟨r', hr', rfl⟩ := List.mem_map.mp hi
    obtain rfl : i' = index r := by simpa using hi'
    exact h r' (List.mem_filter.mp hr').1 (by simpa using (List.mem_filter.mp hr').2)

theorem mem_put {t : Indexed key index} {r r' : α} {h : t.Admits r} :
    r' ∈ (t.put r h).rows ↔ r' = r ∨ r' ∈ t.rows ∧ key r' ≠ key r := by
  simp only [put, List.mem_append, List.mem_filter, List.mem_singleton, decide_eq_true_eq]
  exact or_comm

end Put

section Find

variable [DecidableEq ι]

/-- `SELECT … WHERE index = i`. -/
def findBy (t : Indexed key index) (i : ι) : Option α := t.rows.find? fun r => index r = i

theorem findBy_eq_some_iff {t : Indexed key index} {i : ι} {r : α} :
    t.findBy i = some r ↔ r ∈ t.rows ∧ index r = i := by
  constructor
  · intro h
    exact ⟨List.mem_of_find?_eq_some h, by simpa using List.find?_some h⟩
  · rintro ⟨hr, hi⟩
    cases hfind : t.findBy i with
    | none => simpa [hi] using List.find?_eq_none.mp hfind r hr
    | some r' =>
      have hr' : r' ∈ t.rows := List.mem_of_find?_eq_some hfind
      have hi' : index r' = i := by simpa using List.find?_some hfind
      rw [t.eq_of_index hr' hr (hi'.trans hi.symm)]

theorem findBy_eq_none_iff {t : Indexed key index} {i : ι} :
    t.findBy i = none ↔ ∀ r ∈ t.rows, index r ≠ i := by
  simp [findBy, List.find?_eq_none]

end Find

section Save

variable {key : α → ℕ} {index : α → ι} (assign : ℕ → α → α)

/-- The row that an entity is saved as: one without an identifier is given a new one. -/
def SavedAs (t : Indexed key index) (entity row : α) : Prop :=
  if key entity = 0 then ∃ id, id ≠ 0 ∧ (∀ r ∈ t.rows, key r ≠ id) ∧ row = assign id entity
  else row = entity

/-- An identifier that no row has. -/
def nextId (t : Indexed key index) : ℕ := (t.rows.map key).max?.getD 0 + 1

theorem nextId_ne (t : Indexed key index) {r : α} (hr : r ∈ t.rows) : key r ≠ t.nextId := by
  have hkey : key r ≤ (t.rows.map key).max?.getD 0 := List.le_max?_getD_of_mem (List.mem_map_of_mem hr)
  unfold nextId
  omega

/-- The row with the next identifier. -/
def rowFor (t : Indexed key index) (entity : α) : α :=
  if key entity = 0 then assign t.nextId entity else entity

theorem savedAs_rowFor (t : Indexed key index) (entity : α) :
    t.SavedAs assign entity (t.rowFor assign entity) := by
  unfold SavedAs rowFor
  split
  · exact ⟨t.nextId, Nat.succ_ne_zero _, fun r hr => t.nextId_ne hr, rfl⟩
  · rfl

variable {assign}

theorem SavedAs.key_ne_zero (hkey : ∀ id x, key (assign id x) = id) {t : Indexed key index}
    {entity row : α} (h : t.SavedAs assign entity row) : key row ≠ 0 := by
  unfold SavedAs at h
  split at h
  · obtain ⟨id, hid, -, rfl⟩ := h
    rwa [hkey]
  · rename_i hentity
    rwa [h]

variable (assign) in
/-- An entity with the identifier of the row that was found for its index. -/
theorem SavedAs.admits [DecidableEq ι] (hindex : ∀ id x, index (assign id x) = index x)
    {t : Indexed key index} (hrows : ∀ r ∈ t.rows, key r ≠ 0) {entity row : α}
    (hentity : key entity = ((t.findBy (index entity)).map key).getD 0)
    (h : t.SavedAs assign entity row) : t.Admits row := by
  unfold SavedAs at h
  intro r hr hne hsame
  cases hfind : t.findBy (index entity) with
  | none =>
    have hzero : key entity = 0 := by rw [hentity, hfind]; rfl
    rw [if_pos hzero] at h
    obtain ⟨id, -, -, rfl⟩ := h
    rw [hindex] at hsame
    exact findBy_eq_none_iff.mp hfind r hr hsame
  | some found =>
    obtain ⟨hfound, hi⟩ := findBy_eq_some_iff.mp hfind
    have hid : key entity = key found := by rw [hentity, hfind]; rfl
    rw [if_neg (hid ▸ hrows found hfound)] at h
    rw [h] at hne hsame
    have heq := t.eq_of_index hr hfound (hsame.trans hi.symm)
    exact hne (heq ▸ hid.symm)

end Save
end Indexed
end Store
