import Mathlib.Tactic.Common

/-! Synchronous computations that return. -/
namespace Js

variable {ε α β : Type}

theorem bind_ok_iff {x : Except ε α} {f : α → Except ε β} {b : β} :
    (x >>= f) = .ok b ↔ ∃ a, x = .ok a ∧ f a = .ok b := by
  cases x <;> simp [bind, Except.bind]

theorem pure_ok_iff {a b : α} : (pure a : Except ε α) = .ok b ↔ a = b := by
  simp [pure, Except.pure]

theorem toOption_eq_some_iff {x : Except ε α} {a : α} : x.toOption = some a ↔ x = .ok a := by
  cases x <;> simp [Except.toOption]

theorem unless_ok_iff {p : Prop} [Decidable p] {e : ε} {f : β → Except ε α} {x : Except ε α}
    {a : α} : (if p then throw e >>= f else x) = .ok a ↔ ¬ p ∧ x = .ok a := by
  by_cases h : p
  · simp [h, throw, throwThe, MonadExceptOf.throw, bind, Except.bind]
  · simp [h]

@[simp] theorem throw_ne_ok {e : ε} {a : α} : (throw e : Except ε α) ≠ .ok a := by
  simp [throw, throwThe, MonadExceptOf.throw]

theorem exists_ok {x : Except ε α} (h : x.toOption.isSome = true) : ∃ a, x = .ok a := by
  obtain ⟨a, ha⟩ := Option.isSome_iff_exists.mp h
  exact ⟨a, toOption_eq_some_iff.mp ha⟩

theorem exists_ok_some {x : Except ε (Option α)} (h : (x.toOption.bind id).isSome = true) :
    ∃ a, x = .ok (some a) := by
  obtain ⟨a, ha⟩ := Option.isSome_iff_exists.mp h
  obtain ⟨b, hb, rfl⟩ := Option.bind_eq_some_iff.mp ha
  exact ⟨a, toOption_eq_some_iff.mp hb⟩

end Js
