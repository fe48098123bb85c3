import Mathlib.Tactic.Common

/-! A promise that the callers of a moment share: the first one starts the work, the others
join it, and it is dropped once it has settled. -/
namespace Async

/-- A work that was started. Its `finally` runs a turn after it has settled. -/
inductive Flight (ε α : Type) where
  | running
  | settled (r : Except ε α)
  | landed (r : Except ε α)
  deriving DecidableEq

/-- Whether a promise is the one to join. -/
def Flight.isOpen {ε α : Type} : Flight ε α → Bool
  | running => true
  | settled _ => true
  | landed _ => false

def Flight.result {ε α : Type} : Flight ε α → Option (Except ε α)
  | running => none
  | settled r => some r
  | landed r => some r

/-- The promise to join, among all the works there have been. -/
structure Shared (ε α : Type) where
  pending : Option ℕ
  flights : List (Flight ε α)
  deriving DecidableEq

namespace Shared

variable {ε α : Type}

def empty : Shared ε α := ⟨none, []⟩

/-- `pending ??= start(); return pending` -/
def join (s : Shared ε α) : Shared ε α × ℕ :=
  match s.pending with
  | some n => (s, n)
  | none => (⟨some s.flights.length, s.flights ++ [.running]⟩, s.flights.length)

def settle (s : Shared ε α) (n : ℕ) (r : Except ε α) : Shared ε α :=
  { s with flights := s.flights.set n (.settled r) }

/-- `finally(() => pending = null)` -/
def land (s : Shared ε α) (n : ℕ) (r : Except ε α) : Shared ε α :=
  ⟨none, s.flights.set n (.landed r)⟩

/-- The open work is the one to join. -/
structure Single (s : Shared ε α) : Prop where
  pending : ∀ n f, s.flights[n]? = some f → f.isOpen = true → s.pending = some n
  exists_open : ∀ n, s.pending = some n → ∃ f, s.flights[n]? = some f ∧ f.isOpen = true

variable {s : Shared ε α}

/-- An item of a list with one more is an old one, or the last. -/
theorem of_getElem?_snoc {β : Type} {l : List β} {a b : β} {n : ℕ} (h : (l ++ [a])[n]? = some b) :
    l[n]? = some b ∨ n = l.length ∧ b = a := by
  rw [List.getElem?_append] at h
  split at h
  · exact .inl h
  · rename_i hge
    obtain ⟨hlt, hb⟩ := List.getElem?_eq_some_iff.mp h
    have hn : n - l.length = 0 := by simpa using hlt
    exact .inr ⟨by omega, by simpa [hn] using hb.symm⟩

theorem single_empty : Single (empty : Shared ε α) := ⟨by simp [empty], by simp [empty]⟩

/-- There is no second work before the first has landed. -/
theorem Single.unique (h : Single s) {n m : ℕ} {f g : Flight ε α} (hn : s.flights[n]? = some f)
    (hf : f.isOpen = true) (hm : s.flights[m]? = some g) (hg : g.isOpen = true) : n = m :=
  Option.some.inj ((h.pending n f hn hf).symm.trans (h.pending m g hm hg))

/-- Who joins, joins an open work. -/
theorem Single.join (h : Single s) : Single s.join.1 ∧
    ∃ f, s.join.1.flights[s.join.2]? = some f ∧ f.isOpen = true := by
  unfold Shared.join
  split
  · rename_i n hn
    exact ⟨h, h.exists_open n hn⟩
  · rename_i hnone
    have hlast : (s.flights ++ [Flight.running])[s.flights.length]? = some .running := by simp
    refine ⟨⟨?_, ?_⟩, .running, hlast, rfl⟩
    · intro n f hf hopen
      rcases of_getElem?_snoc hf with hold | ⟨rfl, -⟩
      · have hpending := h.pending n f hold hopen
        rw [hnone] at hpending
        cases hpending
      · rfl
    · rintro n ⟨⟩
      exact ⟨.running, hlast, rfl⟩

theorem Single.settle (h : Single s) {n : ℕ} (hn : s.flights[n]? = some .running)
    (r : Except ε α) : Single (s.settle n r) := by
  obtain ⟨hlt, -⟩ := List.getElem?_eq_some_iff.mp hn
  have hset : (s.settle n r).flights[n]? = some (.settled r) := by
    simp [Shared.settle, hlt]
  have hpending : s.pending = some n := h.pending n _ hn rfl
  constructor
  · intro m f hf hopen
    by_cases hm : n = m
    · exact hm ▸ hpending
    · rw [Shared.settle, List.getElem?_set_ne hm] at hf
      exact h.pending m f hf hopen
  · intro m hm
    have hmn : n = m := Option.some.inj (hpending.symm.trans hm)
    exact ⟨.settled r, hmn ▸ hset, rfl⟩

theorem Single.land (h : Single s) {n : ℕ} {r : Except ε α}
    (hn : s.flights[n]? = some (.settled r)) : Single (s.land n r) := by
  refine ⟨?_, fun m hm => by cases hm⟩
  intro m f hf hopen
  obtain ⟨hlt, -⟩ := List.getElem?_eq_some_iff.mp hn
  by_cases hm : n = m
  · subst hm
    rw [Shared.land, List.getElem?_set_self hlt] at hf
    cases hf
    cases hopen
  · rw [Shared.land, List.getElem?_set_ne hm] at hf
    exact absurd (h.unique hn rfl hf hopen) hm

theorem result_join (s : Shared ε α) (n : ℕ) :
    s.join.1.flights[n]?.bind Flight.result = s.flights[n]?.bind Flight.result := by
  unfold join
  split
  · rfl
  · cases hn : (s.flights ++ [Flight.running])[n]? with
    | none =>
      have hge : s.flights.length ≤ n := by
        have hlen := List.getElem?_eq_none_iff.mp hn
        simp at hlen
        omega
      rw [List.getElem?_eq_none hge]
    | some f =>
      rcases of_getElem?_snoc hn with hold | ⟨rfl, rfl⟩
      · rw [hold]
      · simp [Flight.result]

theorem result_settle {n : ℕ} (hn : s.flights[n]? = some .running) (r : Except ε α) (m : ℕ) :
    (s.settle n r).flights[m]?.bind Flight.result =
      if m = n then some r else s.flights[m]?.bind Flight.result := by
  obtain ⟨hlt, -⟩ := List.getElem?_eq_some_iff.mp hn
  split
  · rename_i hm
    simp [settle, hm, hlt, Flight.result]
  · rename_i hm
    rw [settle, List.getElem?_set_ne (Ne.symm hm)]

theorem result_land {n : ℕ} {r : Except ε α} (hn : s.flights[n]? = some (.settled r)) (m : ℕ) :
    (s.land n r).flights[m]?.bind Flight.result = s.flights[m]?.bind Flight.result := by
  obtain ⟨hlt, -⟩ := List.getElem?_eq_some_iff.mp hn
  by_cases hm : m = n
  · rw [hm, land, List.getElem?_set_self hlt, hn]
    rfl
  · rw [land, List.getElem?_set_ne (Ne.symm hm)]

theorem getElem?_join {n : ℕ} {f : Flight ε α} (hn : s.flights[n]? = some f) :
    s.join.1.flights[n]? = some f := by
  unfold join
  split
  · exact hn
  · rw [List.getElem?_append_left (List.getElem?_eq_some_iff.mp hn).1]
    exact hn

theorem length_le_join (s : Shared ε α) : s.flights.length ≤ s.join.1.flights.length := by
  unfold join
  split
  · exact Nat.le_refl _
  · simp

end Shared
end Async
