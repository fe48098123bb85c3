import Mathlib.Algebra.Order.Ring.Int
import Mathlib.Data.Int.SuccPred
import Mathlib.Data.List.Basic

/-! Functions of the integers that are constant but for single steps: where they change, how a
change is found, and the intervals between chosen points. -/
namespace Numeric.Steps

section Changes

variable {δ : Type}

/-- The value at `x` is not the one before. -/
def ChangesAt (f : ℤ → δ) (x : ℤ) : Prop := f (x - 1) ≠ f x

theorem eq_of_not_changesAt {f : ℤ → δ} {a b : ℤ} (h : a ≤ b)
    (hconst : ∀ x, a < x → x ≤ b → ¬ ChangesAt f x) : f a = f b := by
  induction b, h using Int.leInduction with
  | base => rfl
  | succ b hab ih =>
    have hlast := not_not.mp (hconst (b + 1) (by omega) le_rfl)
    rw [add_sub_cancel_right] at hlast
    rw [← hlast]
    exact ih fun x hax hxb => hconst x hax (by omega)

/-- Between two values that differ, there is a change. -/
theorem exists_changesAt {f : ℤ → δ} {a b : ℤ} (h : a ≤ b) (hne : f a ≠ f b) :
    ∃ x, a < x ∧ x ≤ b ∧ ChangesAt f x := by
  by_contra hnone
  apply hne
  apply eq_of_not_changesAt h
  intro x hax hxb hx
  exact hnone ⟨x, hax, hxb, hx⟩

/-- The first integer after `lower` at which `p` fails, as far as `p` fails from there on. -/
def bisect (p : ℤ → Bool) (lower upper : ℤ) : ℤ :=
  if 1 < upper - lower then
    let middle := (lower + upper) / 2
    if p middle then bisect p middle upper else bisect p lower middle
  else upper
termination_by (upper - lower).toNat

/-- Bisection keeps a value of which `p` holds below, and one of which it does not above. -/
theorem bisect_spec {p : ℤ → Bool} {lower upper : ℤ} (h : lower < upper) (hlower : p lower = true)
    (hupper : p upper = false) :
    lower < bisect p lower upper ∧ bisect p lower upper ≤ upper ∧
      p (bisect p lower upper - 1) = true ∧ p (bisect p lower upper) = false := by
  fun_induction bisect p lower upper with
  | case1 lower upper hlt middle hmiddle ih =>
    have hle : lower < middle ∧ middle < upper := by omega
    obtain ⟨hlow, hrest⟩ := ih hle.2 hmiddle hupper
    exact ⟨hle.1.trans hlow, hrest⟩
  | case2 lower upper hlt middle hmiddle ih =>
    have hle : lower < middle ∧ middle < upper := by omega
    obtain ⟨hlow, hup, hrest⟩ := ih hle.1 hlower (Bool.eq_false_iff.mpr hmiddle)
    exact ⟨hlow, hup.trans hle.2.le, hrest⟩
  | case3 lower upper hlt =>
    have heq : upper - 1 = lower := by omega
    rw [heq]
    exact ⟨h, le_rfl, hlower, hupper⟩

/-- Between two values that differ, bisection finds a change. -/
theorem changesAt_bisect [DecidableEq δ] {f : ℤ → δ} {lower upper : ℤ} (h : lower < upper)
    (hne : f lower ≠ f upper) :
    lower < bisect (fun x => f x = f lower) lower upper ∧
      bisect (fun x => f x = f lower) lower upper ≤ upper ∧
      ChangesAt f (bisect (fun x => f x = f lower) lower upper) := by
  obtain ⟨hlow, hup, hbefore, hat⟩ :=
    bisect_spec (p := fun x => f x = f lower) h (by simp) (by simpa using hne.symm)
  refine ⟨hlow, hup, ?_⟩
  intro heq
  rw [decide_eq_true_eq] at hbefore
  rw [decide_eq_false_iff_not] at hat
  exact hat (heq.symm.trans hbefore)

end Changes

section Intervals

variable {α : Type} [LinearOrder α]

/-- Intervals that are not empty, each of which begins where the one before it ends. -/
inductive Consecutive : α → α → List (α × α) → Prop
  | last {start stop : α} : start < stop → Consecutive start stop [(start, stop)]
  | cons {start middle stop : α} {rest : List (α × α)} : start < middle →
      Consecutive middle stop rest → Consecutive start stop ((start, middle) :: rest)

variable {start stop : α} {intervals : List (α × α)}

theorem Consecutive.lt (h : Consecutive start stop intervals) : start < stop := by
  induction h with
  | last hlt => exact hlt
  | cons hlt _ ih => exact hlt.trans ih

/-- They are parts of the whole. -/
theorem Consecutive.bounds (h : Consecutive start stop intervals) :
    ∀ i ∈ intervals, start ≤ i.1 ∧ i.1 < i.2 ∧ i.2 ≤ stop := by
  induction h with
  | last hlt => simpa using hlt
  | cons hlt hrest ih =>
    intro i hi
    rcases List.mem_cons.mp hi with rfl | hi
    · exact ⟨le_rfl, hlt, hrest.lt.le⟩
    · have hbounds := ih i hi
      exact ⟨hlt.le.trans hbounds.1, hbounds.2⟩

/-- Every point of the whole lies in exactly one of them. -/
theorem Consecutive.existsUnique (h : Consecutive start stop intervals) {x : α} (hstart : start ≤ x)
    (hstop : x < stop) : ∃! i, i ∈ intervals ∧ i.1 ≤ x ∧ x < i.2 := by
  induction h with
  | @last start stop hlt =>
    use (start, stop)
    constructor
    · exact ⟨List.mem_singleton_self _, hstart, hstop⟩
    · intro i hi
      exact List.mem_singleton.mp hi.1
  | @cons start middle stop rest hlt hrest ih =>
    rcases lt_or_ge x middle with hx | hx
    · use (start, middle)
      constructor
      · exact ⟨List.mem_cons_self, hstart, hx⟩
      · intro i hi
        rcases List.mem_cons.mp hi.1 with heq | hmem
        · exact heq
        · exact absurd ((hrest.bounds i hmem).1.trans hi.2.1) (not_le.mpr hx)
    · obtain ⟨i, hi, hunique⟩ := ih hx hstop
      use i
      constructor
      · exact ⟨List.mem_cons_of_mem _ hi.1, hi.2⟩
      · intro j hj
        rcases List.mem_cons.mp hj.1 with rfl | hmem
        · exact absurd hj.2.2 (not_lt.mpr hx)
        · exact hunique j ⟨hmem, hj.2⟩

/-- From every point to the next, and from the last one to the end. -/
def intervalsOf (starts : List α) (stop : α) : List (α × α) :=
  starts.mapIdx fun index start => (start, starts[index + 1]?.getD stop)

omit [LinearOrder α] in
theorem intervalsOf_singleton (start stop : α) : intervalsOf [start] stop = [(start, stop)] := rfl

omit [LinearOrder α] in
theorem intervalsOf_cons (start middle stop : α) (starts : List α) :
    intervalsOf (start :: middle :: starts) stop =
      (start, middle) :: intervalsOf (middle :: starts) stop := by
  simp [intervalsOf, List.mapIdx_cons]

theorem consecutive_intervalsOf {starts : List α} (hsorted : (start :: starts).Pairwise (· < ·))
    (hstop : ∀ x ∈ start :: starts, x < stop) :
    Consecutive start stop (intervalsOf (start :: starts) stop) := by
  induction starts generalizing start with
  | nil => exact .last (hstop start List.mem_cons_self)
  | cons middle starts ih =>
    rw [intervalsOf_cons]
    rw [List.pairwise_cons] at hsorted
    apply Consecutive.cons (hsorted.1 middle List.mem_cons_self)
    exact ih hsorted.2 fun x hx => hstop x (List.mem_cons_of_mem _ hx)

omit [LinearOrder α] in
theorem fst_mem_of_mem_intervalsOf {starts : List α} {i : α × α} (h : i ∈ intervalsOf starts stop) :
    i.1 ∈ starts := by
  obtain ⟨index, hindex, rfl⟩ := List.mem_mapIdx.mp h
  exact List.getElem_mem hindex

/-- No point lies inside an interval. -/
theorem not_mem_inside {starts : List α} (hsorted : starts.Pairwise (· < ·)) {i : α × α}
    (h : i ∈ intervalsOf starts stop) {x : α} (hx : x ∈ starts) : ¬ (i.1 < x ∧ x < i.2) := by
  induction starts with
  | nil => cases hx
  | cons start starts ih =>
    rw [List.pairwise_cons] at hsorted
    cases starts with
    | nil =>
      rw [intervalsOf_singleton, List.mem_singleton] at h
      rw [List.mem_singleton] at hx
      rw [h, hx]
      exact fun hlt => lt_irrefl _ hlt.1
    | cons middle starts =>
      rw [intervalsOf_cons] at h
      rcases List.mem_cons.mp h with rfl | hrest
      · intro hlt
        rcases List.mem_cons.mp hx with rfl | hx
        · exact lt_irrefl _ hlt.1
        · rcases List.mem_cons.mp hx with rfl | hx
          · exact lt_irrefl _ hlt.2
          · exact lt_asymm hlt.2 ((List.pairwise_cons.mp hsorted.2).1 x hx)
      · rcases List.mem_cons.mp hx with rfl | hx
        · exact fun hlt => lt_asymm hlt.1 (hsorted.1 _ (fst_mem_of_mem_intervalsOf hrest))
        · exact ih hsorted.2 hrest hx

end Intervals

end Numeric.Steps
