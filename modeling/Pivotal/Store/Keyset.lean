import Mathlib.Data.List.DropRight
import Mathlib.Data.List.Pairwise
import Mathlib.Data.List.Sort

/-! Rows in a strict order: the list of those with a property, what lies beyond one of them, the
pages the list is cut into, and the beginning of a list that is merged from two others. -/
namespace Store

variable {ρ : Type} {lt : ρ → ρ → Prop} {p q : ρ → Prop} {l m : List ρ}

/-- The rows of `p`, each once and in order. -/
structure Lists (lt : ρ → ρ → Prop) (p : ρ → Prop) (l : List ρ) : Prop where
  mem : ∀ r, r ∈ l ↔ p r
  sorted : l.Pairwise lt

namespace Lists

theorem nodup [IsStrictOrder ρ lt] (h : Lists lt p l) : l.Nodup := by
  refine h.sorted.imp ?_
  rintro a _ hlt rfl
  exact irrefl a hlt

/-- There is one such list. -/
theorem unique [IsStrictOrder ρ lt] (h : Lists lt p l) (h' : Lists lt p m) : l = m := by
  have hperm : l.Perm m := by
    rw [List.perm_ext_iff_of_nodup h.nodup h'.nodup]
    intro r
    rw [h.mem, h'.mem]
  refine List.Perm.eq_of_pairwise ?_ h.sorted h'.sorted hperm
  intro a b _ _ hab hba
  exact absurd hba (asymm hab)

theorem congr (h : Lists lt p l) (hpq : ∀ r, p r ↔ q r) : Lists lt q l :=
  ⟨fun r => (h.mem r).trans (hpq r), h.sorted⟩

theorem filter (h : Lists lt p l) (f : ρ → Bool) :
    Lists lt (fun r => p r ∧ f r = true) (l.filter f) := by
  constructor
  · intro r
    rw [List.mem_filter, h.mem]
  · exact h.sorted.filter f

theorem reverse (h : Lists lt p l) : Lists (fun a b => lt b a) p l.reverse := by
  constructor
  · intro r
    rw [List.mem_reverse, h.mem]
  · exact List.pairwise_reverse.mpr h.sorted

/-- What comes after a row of the list. -/
theorem beyond [IsStrictOrder ρ lt] {before after : List ρ} {r : ρ}
    (h : Lists lt p (before ++ r :: after)) : Lists lt (fun s => p s ∧ lt r s) after := by
  obtain ⟨_, hright, hacross⟩ := List.pairwise_append.mp h.sorted
  obtain ⟨hafter, hsorted⟩ := List.pairwise_cons.mp hright
  constructor
  · intro s
    rw [← h.mem, List.mem_append, List.mem_cons]
    constructor
    · intro hs
      exact ⟨.inr (.inr hs), hafter s hs⟩
    · rintro ⟨hs | rfl | hs, hlt⟩
      · exact absurd hlt (asymm (hacross s hs r List.mem_cons_self))
      · exact absurd hlt (irrefl s)
      · exact hs
  · exact hsorted

/-- Sorting lists the rows, when the rows that are sorted before one another differ in order. -/
theorem ofMergeSort {le : ρ → ρ → Bool} (htrans : ∀ a b c, le a b → le b c → le a c)
    (htotal : ∀ a b, le a b || le b a) (hnodup : l.Nodup)
    (hlt : ∀ a ∈ l, ∀ b ∈ l, le a b = true → a ≠ b → lt a b) :
    Lists lt (· ∈ l) (l.mergeSort le) := by
  have hperm := List.mergeSort_perm l le
  constructor
  · intro r
    exact hperm.mem_iff
  · have hle := List.pairwise_mergeSort htrans htotal l
    have hne : (l.mergeSort le).Pairwise (· ≠ ·) := hperm.nodup_iff.mpr hnodup
    refine (hle.and hne).imp_of_mem ?_
    intro a b ha hb hab
    exact hlt a (hperm.mem_iff.mp ha) b (hperm.mem_iff.mp hb) hab.1 hab.2

section Merge

variable [IsStrictOrder ρ lt] {n : ℕ}

theorem eq_filter [DecidablePred q] (h : Lists lt p l) (h' : Lists lt q m)
    (hqp : ∀ r, q r → p r) : m = l.filter (q ·) := by
  refine h'.unique ((h.filter (q ·)).congr ?_)
  intro s
  rw [decide_eq_true_eq]
  exact ⟨fun hs => hs.2, fun hs => ⟨hqp s hs, hs⟩⟩

/-- A row early in a list is early in every list of fewer rows that has it. -/
theorem mem_take (h : Lists lt p l) (h' : Lists lt q m) (hqp : ∀ r, q r → p r) {r : ρ}
    (hr : r ∈ l.take n) (hq : q r) : r ∈ m.take n := by
  classical
  have hm : m = l.filter (q ·) := h.eq_filter h' hqp
  have hsub : (l.take n).filter (q ·) <+: m := by
    have happend := List.filter_append (p := (q ·)) (l.take n) (l.drop n)
    rw [List.take_append_drop] at happend
    rw [hm, happend]
    exact List.prefix_append _ _
  have hlength : ((l.take n).filter (q ·)).length ≤ n :=
    (List.length_filter_le _ _).trans (List.length_take_le n l)
  refine (List.prefix_take_iff.mpr ⟨hsub, hlength⟩).subset ?_
  rw [List.mem_filter, decide_eq_true_eq]
  exact ⟨hr, hq⟩

/-- A list of fewer rows that has the first ones begins with them. -/
theorem take_eq (h : Lists lt p l) (h' : Lists lt q m) (hqp : ∀ r, q r → p r)
    (hfirst : ∀ r ∈ l.take n, q r) : m.take n = l.take n := by
  classical
  have hm : m = l.filter (q ·) := h.eq_filter h' hqp
  have hkeep : (l.take n).filter (q ·) = l.take n := by
    rw [List.filter_eq_self]
    intro r hr
    exact decide_eq_true (hfirst r hr)
  have happend := List.filter_append (p := (q ·)) (l.take n) (l.drop n)
  rw [List.take_append_drop, hkeep, ← hm] at happend
  rw [happend]
  rcases Nat.lt_or_ge l.length n with hlt | hge
  · rw [List.drop_eq_nil_of_le hlt.le, List.filter_nil, List.append_nil, List.take_take, min_self]
  · have hlength : (l.take n).length = n := List.length_take_of_le hge
    rw [List.take_append_of_le_length hlength.ge, List.take_take, min_self]

/-- The first rows of the union are the first of those that are early in one of its parts. -/
theorem take_union {k : List ρ} (h : Lists lt (fun r => p r ∨ q r) k) (hp : Lists lt p l)
    (hq : Lists lt q m) (n : ℕ) :
    ∃ u, Lists lt (fun r => r ∈ l.take n ∨ r ∈ m.take n) u ∧ u.take n = k.take n := by
  classical
  have hsub (r : ρ) (hr : r ∈ l.take n ∨ r ∈ m.take n) : p r ∨ q r :=
    hr.imp (fun hl => (hp.mem r).mp (List.mem_of_mem_take hl))
      fun hm => (hq.mem r).mp (List.mem_of_mem_take hm)
  have hu := (h.filter fun r => r ∈ l.take n ∨ r ∈ m.take n).congr fun r => by
    rw [decide_eq_true_eq, and_iff_right_of_imp (hsub r)]
  refine ⟨_, hu, h.take_eq hu hsub ?_⟩
  intro r hr
  rcases (h.mem r).mp (List.mem_of_mem_take hr) with hpr | hqr
  · exact .inl (h.mem_take hp (fun _ => .inl) hr hpr)
  · exact .inr (h.mem_take hq (fun _ => .inr) hr hqr)

end Merge

/-- The same rows in two orders begin alike exactly if what comes after one of the first rows in one
order comes after it in the other. -/
theorem take_eq_iff {lt' : ρ → ρ → Prop} [IsStrictOrder ρ lt] [IsStrictOrder ρ lt']
    (h : Lists lt p l) (h' : Lists lt' p m) (n : ℕ) :
    m.take n = l.take n ↔ ∀ a ∈ l.take n, ∀ b, p b → lt a b → lt' a b := by
  classical
  have hl : l.take n ++ l.drop n = l := List.take_append_drop n l
  have hm : m.take n ++ m.drop n = m := List.take_append_drop n m
  constructor
  · intro heq a ha b hb hlt
    have hsorted := h'.sorted
    rw [← hm, List.pairwise_append] at hsorted
    have hb : b ∈ m.take n ++ m.drop n := by
      rw [hm]
      exact (h'.mem b).mpr hb
    rcases List.mem_append.mp hb with hb | hb
    · -- Both are among the first rows, which are sorted by either order.
      have hfirst := h.sorted.sublist (List.take_sublist n l)
      rw [← heq] at hfirst ha
      have hsymm : Std.Symm fun x y => lt x y ∧ lt' x y ∨ lt y x ∧ lt' y x := ⟨fun _ _ => Or.symm⟩
      have hboth : (m.take n).Pairwise fun x y => lt x y ∧ lt' x y ∨ lt y x ∧ lt' y x :=
        (hfirst.and hsorted.1).imp Or.inl
      have hne : a ≠ b := fun hab => irrefl b (hab ▸ hlt)
      rcases hboth.forall ha hb hne with hab | hba
      · exact hab.2
      · exact absurd hlt (asymm hba.1)
    · rw [← heq] at ha
      exact hsorted.2.2 a ha b hb
  · intro hfirst
    have hsorted := h.sorted
    rw [← hl, List.pairwise_append] at hsorted
    have hmem : ∀ r, p r ↔ r ∈ l.take n ∨ r ∈ l.drop n := by
      intro r
      rw [← h.mem, ← List.mem_append, hl]
    have hlists : Lists lt' p (l.take n ++ m.filter (· ∉ l.take n)) := by
      constructor
      · intro r
        rw [List.mem_append, List.mem_filter, h'.mem, hmem]
        by_cases hr : r ∈ l.take n <;> simp [hr]
      · rw [List.pairwise_append]
        refine ⟨hsorted.1.imp_of_mem fun ha hb => hfirst _ ha _ ((hmem _).mpr (.inl hb)),
          h'.sorted.filter _, ?_⟩
        intro a ha b hb
        obtain ⟨hb, hnot⟩ := List.mem_filter.mp hb
        have hdrop := ((hmem b).mp ((h'.mem b).mp hb)).resolve_left (of_decide_eq_true hnot)
        exact hfirst a ha b ((h'.mem b).mp hb) (hsorted.2.2 a ha b hdrop)
    rw [h'.unique hlists]
    rcases Nat.lt_or_ge l.length n with hshort | hlong
    · have hall : m.filter (· ∉ l.take n) = [] := by
        rw [List.filter_eq_nil_iff]
        intro r hr
        have hr := (h.mem r).mpr ((h'.mem r).mp hr)
        simpa [List.take_of_length_le hshort.le] using hr
      rw [hall, List.append_nil, List.take_take, min_self]
    · rw [List.take_append_of_le_length (List.length_take_of_le hlong).ge, List.take_take, min_self]

end Lists

/-- A page of a list, with the rows before it and after it. Only at an end of the list is it not
full. -/
structure Cut (l : List ρ) (size : ℕ) (before page after : List ρ) : Prop where
  eq : l = before ++ page ++ after
  length_le : page.length ≤ size
  full : page.length = size ∨ before = [] ∨ after = []

namespace Cut

variable {size : ℕ} {before page after : List ρ} {r : ρ}

theorem first (l : List ρ) (size : ℕ) : Cut l size [] (l.take size) (l.drop size) where
  eq := by rw [List.nil_append, List.take_append_drop]
  length_le := List.length_take_le size l
  full := .inr (.inl rfl)

theorem last (l : List ρ) (size : ℕ) : Cut l size (l.rdrop size) (l.rtake size) [] where
  eq := by rw [List.append_nil, List.rdrop, List.rtake, List.take_append_drop]
  length_le := by
    rw [List.rtake, List.length_drop]
    omega
  full := .inr (.inr rfl)

/-- The page after a row. -/
theorem next (h : l = before ++ r :: after) (size : ℕ) :
    Cut l size (before ++ [r]) (after.take size) (after.drop size) where
  eq := by simp [h]
  length_le := List.length_take_le size after
  full := by
    rcases Nat.lt_or_ge after.length size with hlt | hge
    · exact .inr (.inr (List.drop_eq_nil_of_le hlt.le))
    · exact .inl (List.length_take_of_le hge)

/-- The page before a row. -/
theorem prev (h : l = before ++ r :: after) (size : ℕ) :
    Cut l size (before.rdrop size) (before.rtake size) (r :: after) where
  eq := by rw [h, List.rdrop, List.rtake, List.take_append_drop]
  length_le := (last before size).length_le
  full := by
    rw [List.rtake, List.rdrop, List.length_drop]
    rcases Nat.lt_or_ge before.length size with hlt | hge
    · right
      left
      rw [Nat.sub_eq_zero_of_le hlt.le, List.take_zero]
    · left
      omega

/-- The page before the row that follows a page is that page. -/
theorem rtake_eq (h : Cut l size before page (r :: after)) : (before ++ page).rtake size = page := by
  rw [List.rtake, List.length_append]
  rcases h.full with hfull | rfl | hnil
  · rw [hfull, Nat.add_sub_cancel, List.drop_left]
  · rw [List.nil_append, List.length_nil, Nat.zero_add, Nat.sub_eq_zero_of_le h.length_le,
      List.drop_zero]
  · exact absurd hnil (List.cons_ne_nil r after)

theorem rdrop_eq (h : Cut l size before page (r :: after)) :
    (before ++ page).rdrop size = before := by
  have happend : (before ++ page).rdrop size ++ (before ++ page).rtake size = before ++ page := by
    rw [List.rdrop, List.rtake, List.take_append_drop]
  rw [h.rtake_eq] at happend
  exact List.append_cancel_right happend

end Cut

/-- A page is told from a list that goes on by one row more than its size. -/
theorem probe (l : List ρ) (size : ℕ) :
    (if size < (l.take (size + 1)).length then (l.take (size + 1)).take size
      else l.take (size + 1)) = l.take size := by
  rw [List.length_take]
  split
  · rw [List.take_take, Nat.min_eq_left (Nat.le_succ size)]
  · rw [List.take_of_length_le (show l.length ≤ size + 1 by omega),
      List.take_of_length_le (show l.length ≤ size by omega)]

theorem size_lt_length_take (l : List ρ) (size : ℕ) :
    size < (l.take (size + 1)).length ↔ l.drop size ≠ [] := by
  rw [List.length_take, Ne, List.drop_eq_nil_iff]
  omega

end Store
