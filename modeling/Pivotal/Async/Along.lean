/-! Runs of a step function, with a condition on each step that may look at the state before it. -/
namespace Async

variable {σ α : Type} {step : σ → α → σ} {ok : σ → α → Prop}

/-- Every step of the run meets the condition. -/
def Along (step : σ → α → σ) (ok : σ → α → Prop) : σ → List α → Prop
  | _, [] => True
  | s, a :: steps => ok s a ∧ Along step ok (step s a) steps

theorem Along.append {s : σ} {before after : List α} (h : Along step ok s (before ++ after)) :
    Along step ok s before ∧ Along step ok (before.foldl step s) after := by
  induction before generalizing s with
  | nil => exact ⟨trivial, h⟩
  | cons a before ih =>
    obtain ⟨hbefore, hafter⟩ := ih h.2
    exact ⟨⟨h.1, hbefore⟩, hafter⟩

theorem Along.snoc {s : σ} {before : List α} {a : α} (h : Along step ok s before)
    (ha : ok (before.foldl step s) a) : Along step ok s (before ++ [a]) := by
  induction before generalizing s with
  | nil => exact ⟨ha, trivial⟩
  | cons b before ih => exact ⟨h.1, ih h.2 ha⟩

/-- What every step keeps holds after the run. -/
theorem Along.keeps {I : σ → Prop} (hstep : ∀ s a, I s → ok s a → I (step s a)) {s : σ}
    (hs : I s) {steps : List α} (h : Along step ok s steps) : I (steps.foldl step s) := by
  induction steps generalizing s with
  | nil => exact hs
  | cons a steps ih => exact ih (hstep s a hs h.1) h.2

/-- A condition that keeps an invariant, on the steps of a run, and what it gives with it. -/
theorem Along.of_invariant {I : σ → Prop} {good : σ → α → Prop}
    (hstep : ∀ s a, I s → ok s a → I (step s a)) (hgood : ∀ s a, I s → ok s a → good s a) {s : σ}
    (hs : I s) {steps : List α} (h : Along step ok s steps) : Along step good s steps := by
  induction steps generalizing s with
  | nil => exact trivial
  | cons a steps ih => exact ⟨hgood s a hs h.1, ih (hstep s a hs h.1) h.2⟩

end Async
