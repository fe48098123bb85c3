import Mathlib.Tactic.Common

/-! Writes to a store that may fail, and what a replica of the store may show. -/
namespace Async

/-- How a write ended. Its caller cannot tell a lost answer from a rejected write. -/
inductive Written (ε α : Type) where
  | done (a : α)
  | lost (e : ε)
  | rejected (e : ε)
  deriving DecidableEq

namespace Written

variable {ε α ρ : Type}

/-- What the caller sees. -/
def toExcept : Written ε α → Except ε α
  | .done a => .ok a
  | .lost e => .error e
  | .rejected e => .error e

def isRejected : Written ε α → Bool
  | .rejected _ => true
  | _ => false

/-- What the write makes of the store, when it would make `next` of it. -/
def applies (w : Written ε α) (s next : ρ) : ρ :=
  match w with
  | .done _ => next
  | .lost _ => next
  | .rejected _ => s

@[simp] theorem toExcept_done (a : α) : (done a : Written ε α).toExcept = .ok a := rfl

@[simp] theorem toExcept_lost (e : ε) : (lost e : Written ε α).toExcept = .error e := rfl

@[simp] theorem toExcept_rejected (e : ε) : (rejected e : Written ε α).toExcept = .error e := rfl

@[simp] theorem applies_done (a : α) (s next : ρ) : (done a : Written ε α).applies s next = next := rfl

@[simp] theorem applies_lost (e : ε) (s next : ρ) : (lost e : Written ε α).applies s next = next := rfl

@[simp] theorem applies_rejected (e : ε) (s next : ρ) :
    (rejected e : Written ε α).applies s next = s := rfl

theorem applies_cases (w : Written ε α) (s next : ρ) :
    w.applies s next = next ∨ (∃ e, w = .rejected e) ∧ w.applies s next = s := by
  cases w with
  | done a => exact .inl rfl
  | lost e => exact .inl rfl
  | rejected e => exact .inr ⟨⟨e, rfl⟩, rfl⟩

theorem applies_isRejected (w : Written ε α) (s next : ρ) :
    w.isRejected = false ∧ w.applies s next = next ∨
      w.isRejected = true ∧ w.applies s next = s := by
  cases w with
  | done a => exact .inl ⟨rfl, rfl⟩
  | lost e => exact .inl ⟨rfl, rfl⟩
  | rejected e => exact .inr ⟨rfl, rfl⟩

end Written

/-- A primary with its earlier states, any of which a lagging replica may still show. -/
structure Replicated (ρ : Type) where
  primary : ρ
  past : List ρ
  deriving DecidableEq

namespace Replicated

variable {ρ : Type}

/-- The primary's first state. -/
def initial (s : ρ) : Replicated ρ := ⟨s, []⟩

def write (s : Replicated ρ) (next : ρ) : Replicated ρ := ⟨next, s.primary :: s.past⟩

/-- What a read of the replica may show. -/
def Shows (s : Replicated ρ) (t : ρ) : Prop := t = s.primary ∨ t ∈ s.past

@[simp] theorem write_primary (s : Replicated ρ) (next : ρ) : (s.write next).primary = next := rfl

theorem shows_primary (s : Replicated ρ) : s.Shows s.primary := .inl rfl

@[simp] theorem shows_initial {s t : ρ} : (initial s).Shows t ↔ t = s := by
  simp [Shows, initial]

@[simp] theorem shows_write {s : Replicated ρ} {next t : ρ} :
    (s.write next).Shows t ↔ t = next ∨ s.Shows t := by
  simp [Shows, write]

end Replicated
end Async
