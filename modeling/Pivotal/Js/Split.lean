import Pivotal.Js.Text

/-! Splitting a text at a character and joining the pieces again. -/
namespace Js

theorem join_cons {sep : Char} {ts : List (List Char)} (t : List Char) (h : ts ≠ []) :
    join sep (t :: ts) = t ++ sep :: join sep ts := by
  cases ts with
  | nil => exact absurd rfl h
  | cons _ _ => rfl

theorem split_cons_sep (sep : Char) (cs : List Char) : split sep (sep :: cs) = [] :: split sep cs := by
  rw [split]
  cases h : split sep cs with
  | nil => exact absurd h (split_ne_nil sep cs)
  | cons t ts => simp

theorem split_cons_ne {sep c : Char} (h : c ≠ sep) (cs : List Char) :
    split sep (c :: cs) = (c :: (split sep cs).headD []) :: (split sep cs).tail := by
  rw [split]
  cases split sep cs <;> simp [h]

theorem join_split (sep : Char) (cs : List Char) : join sep (split sep cs) = cs := by
  induction cs with
  | nil => rfl
  | cons c cs ih =>
    by_cases hc : c = sep
    · rw [hc, split_cons_sep, join_cons _ (split_ne_nil sep cs), ih]
      rfl
    · rw [split_cons_ne hc]
      revert ih
      cases split sep cs with
      | nil => exact fun ih => congrArg (c :: ·) ih
      | cons t ts =>
        cases ts with
        | nil => exact fun ih => congrArg (c :: ·) ih
        | cons _ _ => exact fun ih => congrArg (c :: ·) ih

theorem split_append_sep (sep : Char) (cs ds : List Char) :
    split sep (cs ++ sep :: ds) = split sep cs ++ split sep ds := by
  induction cs with
  | nil => exact split_cons_sep sep ds
  | cons c cs ih =>
    rw [List.cons_append]
    by_cases hc : c = sep
    · rw [hc, split_cons_sep, split_cons_sep, ih]
      rfl
    · rw [split_cons_ne hc, split_cons_ne hc, ih]
      cases h : split sep cs with
      | nil => exact absurd h (split_ne_nil sep cs)
      | cons _ _ => rfl

/-- What joined texts are split into. -/
theorem split_join (sep : Char) {ts : List (List Char)} (h : ts ≠ []) :
    split sep (join sep ts) = ts.flatMap (split sep) := by
  induction ts with
  | nil => exact absurd rfl h
  | cons t ts ih =>
    by_cases hts : ts = []
    · rw [hts, List.flatMap_singleton]
      rfl
    · rw [join_cons t hts, split_append_sep, ih hts, List.flatMap_cons]

theorem split_of_notMem {sep : Char} {cs : List Char} (h : sep ∉ cs) : split sep cs = [cs] := by
  induction cs with
  | nil => rfl
  | cons c cs ih =>
    have hc : c ≠ sep := fun heq => h (heq ▸ List.mem_cons_self)
    rw [split_cons_ne hc, ih fun hmem => h (List.mem_cons_of_mem c hmem)]
    rfl

theorem notMem_of_mem_split {sep : Char} {cs t : List Char} (h : t ∈ split sep cs) : sep ∉ t := by
  induction cs generalizing t with
  | nil =>
    rw [split, List.mem_singleton] at h
    simp [h]
  | cons c cs ih =>
    by_cases hc : c = sep
    · rw [hc, split_cons_sep] at h
      rcases List.mem_cons.mp h with rfl | h
      · simp
      · exact ih h
    · rw [split_cons_ne hc] at h
      cases hsplit : split sep cs with
      | nil => exact absurd hsplit (split_ne_nil sep cs)
      | cons first rest =>
        rw [hsplit] at h ih
        rcases List.mem_cons.mp h with rfl | h
        · have hfirst : sep ∉ first := ih List.mem_cons_self
          simpa [Ne.symm hc] using hfirst
        · exact ih (List.mem_cons_of_mem first h)

theorem flatMap_split {sep : Char} {ts : List (List Char)} (h : ∀ t ∈ ts, sep ∉ t) :
    ts.flatMap (split sep) = ts := by
  induction ts with
  | nil => rfl
  | cons t ts ih =>
    rw [List.flatMap_cons, split_of_notMem (h t List.mem_cons_self),
      ih fun u hu => h u (List.mem_cons_of_mem t hu)]
    rfl

theorem mem_join {sep c : Char} {ts : List (List Char)} {t : List Char} (ht : t ∈ ts) (hc : c ∈ t) :
    c ∈ join sep ts := by
  induction ts with
  | nil => cases ht
  | cons first rest ih =>
    by_cases hrest : rest = []
    · subst hrest
      rw [List.mem_singleton] at ht
      rwa [← ht]
    · rw [join_cons first hrest, List.mem_append]
      rcases List.mem_cons.mp ht with rfl | ht
      · exact .inl hc
      · exact .inr (List.mem_cons_of_mem sep (ih ht))

theorem of_mem_join {sep c : Char} {ts : List (List Char)} (h : c ∈ join sep ts) :
    c = sep ∨ ∃ t ∈ ts, c ∈ t := by
  induction ts with
  | nil => cases h
  | cons first rest ih =>
    by_cases hrest : rest = []
    · subst hrest
      exact .inr ⟨first, List.mem_cons_self, h⟩
    · rw [join_cons first hrest, List.mem_append, List.mem_cons] at h
      rcases h with h | h | h
      · exact .inr ⟨first, List.mem_cons_self, h⟩
      · exact .inl h
      · rcases ih h with h | ⟨t, ht, hc⟩
        · exact .inl h
        · exact .inr ⟨t, List.mem_cons_of_mem first ht, hc⟩

/-- A joined text ends as the last of its pieces does. -/
theorem getLast?_join (sep : Char) (front : List (List Char)) {t : List Char} (ht : t ≠ []) :
    (join sep (front ++ [t])).getLast? = t.getLast? := by
  induction front with
  | nil => rfl
  | cons first rest ih =>
    have hjoin : join sep (rest ++ [t]) ≠ [] := by
      intro h
      rw [h, List.getLast?_nil] at ih
      exact ht (List.getLast?_eq_none_iff.mp ih.symm)
    rw [List.cons_append, join_cons first (by simp), List.getLast?_append, List.getLast?_cons, ih]
    cases hlast : t.getLast? with
    | none => exact absurd (List.getLast?_eq_none_iff.mp hlast) ht
    | some c => simp

end Js
