import Pivotal.Async.Program

/-! One process of a runtime that runs a call up to its next `await`. What it does on the way is
done at once, and nothing else runs meanwhile. -/
namespace Async

variable {Op : Type} {Answer : Op → Type} {ε α ρ τ : Type}

/-- What a call does at once, and `none` if it is awaited. -/
abbrev Immediate (Op : Type) (Answer : Op → Type) (ρ : Type) :=
  ρ → (op : Op) → Option (Answer op × ρ)

/-- Up to the next call that is awaited. -/
def Program.turn (now : Immediate Op Answer ρ) : Program Op Answer ε α → List (Event Op Answer) →
    ρ → Program Op Answer ε α × List (Event Op Answer) × ρ
  | .done r, t, m => (.done r, t, m)
  | .call op resume, t, m =>
    match now m op with
    | some (a, m') => (resume a).turn now (t ++ [⟨op, a⟩]) m'
    | none => (.call op resume, t, m)

/-- A call under way: what was answered to it, and what is left of it. -/
structure Execution (τ Op : Type) (Answer : Op → Type) (ε α : Type) where
  tag : τ
  trace : List (Event Op Answer)
  program : Program Op Answer ε α

structure EventLoop (τ Op : Type) (Answer : Op → Type) (ε α ρ : Type) where
  memory : ρ
  executions : List (Execution τ Op Answer ε α)

namespace EventLoop

variable {now : Immediate Op Answer ρ}

/-- The execution between `before` and `after` takes its turn. -/
def resume (now : Immediate Op Answer ρ) (m : ρ) (before after : List (Execution τ Op Answer ε α))
    (e : Execution τ Op Answer ε α) : EventLoop τ Op Answer ε α ρ where
  memory := (e.program.turn now e.trace m).2.2
  executions := before ++
    ⟨e.tag, (e.program.turn now e.trace m).2.1, (e.program.turn now e.trace m).1⟩ :: after

/-- A call that is not waited for. -/
def start (now : Immediate Op Answer ρ) (l : EventLoop τ Op Answer ε α ρ) (tag : τ)
    (p : Program Op Answer ε α) : EventLoop τ Op Answer ε α ρ :=
  resume now l.memory l.executions [] ⟨tag, [], p⟩

/-- What one execution awaits is answered. -/
inductive Answered (now : Immediate Op Answer ρ) :
    EventLoop τ Op Answer ε α ρ → EventLoop τ Op Answer ε α ρ → Prop
  | mk {m : ρ} {before after : List (Execution τ Op Answer ε α)} {tag : τ}
      {t : List (Event Op Answer)} {op : Op} {k : Answer op → Program Op Answer ε α}
      (a : Answer op) : now m op = none →
      Answered now ⟨m, before ++ ⟨tag, t, .call op k⟩ :: after⟩
        (resume now m before after ⟨tag, t ++ [⟨op, a⟩], k a⟩)

/-- The only execution is answered. -/
theorem Answered.only {m : ρ} {tag : τ} {t : List (Event Op Answer)} {op : Op}
    {k : Answer op → Program Op Answer ε α} (a : Answer op) (h : now m op = none) :
    Answered now ⟨m, [⟨tag, t, .call op k⟩]⟩ (resume now m [] [] ⟨tag, t ++ [⟨op, a⟩], k a⟩) :=
  @mk _ _ _ _ _ _ now m [] [] tag t op k a h

/-- The second of two executions is answered. -/
theorem Answered.second {m : ρ} {e : Execution τ Op Answer ε α} {tag : τ}
    {t : List (Event Op Answer)} {op : Op} {k : Answer op → Program Op Answer ε α} (a : Answer op)
    (h : now m op = none) : Answered now ⟨m, [e, ⟨tag, t, .call op k⟩]⟩
      (resume now m [e] [] ⟨tag, t ++ [⟨op, a⟩], k a⟩) :=
  @mk _ _ _ _ _ _ now m [e] [] tag t op k a h

/-- An invariant that every call keeps, whether it is done at once or awaited. -/
structure Invariant (now : Immediate Op Answer ρ) (I : EventLoop τ Op Answer ε α ρ → Prop) :
    Prop where
  immediate : ∀ {m m' : ρ} {before after : List (Execution τ Op Answer ε α)} {tag : τ}
    {t : List (Event Op Answer)} {op : Op} {k : Answer op → Program Op Answer ε α} {a : Answer op},
    now m op = some (a, m') → I ⟨m, before ++ ⟨tag, t, .call op k⟩ :: after⟩ →
      I ⟨m', before ++ ⟨tag, t ++ [⟨op, a⟩], k a⟩ :: after⟩
  awaited : ∀ {m : ρ} {before after : List (Execution τ Op Answer ε α)} {tag : τ}
    {t : List (Event Op Answer)} {op : Op} {k : Answer op → Program Op Answer ε α} (a : Answer op),
    now m op = none → I ⟨m, before ++ ⟨tag, t, .call op k⟩ :: after⟩ →
      I ⟨m, before ++ ⟨tag, t ++ [⟨op, a⟩], k a⟩ :: after⟩

variable {I : EventLoop τ Op Answer ε α ρ → Prop}

theorem Invariant.resume (hI : Invariant now I) {m : ρ}
    {before after : List (Execution τ Op Answer ε α)} {e : Execution τ Op Answer ε α}
    (h : I ⟨m, before ++ e :: after⟩) : I (resume now m before after e) := by
  obtain ⟨tag, t, p⟩ := e
  induction p generalizing t m with
  | done r => exact h
  | call op k ih =>
    cases hnow : now m op with
    | none => simpa [EventLoop.resume, Program.turn, hnow] using h
    | some answer =>
      obtain ⟨a, m'⟩ := answer
      simpa [EventLoop.resume, Program.turn, hnow] using ih a _ (hI.immediate hnow h)

theorem Invariant.start (hI : Invariant now I) {l : EventLoop τ Op Answer ε α ρ} {tag : τ}
    {p : Program Op Answer ε α} (h : I ⟨l.memory, l.executions ++ [⟨tag, [], p⟩]⟩) :
    I (l.start now tag p) := hI.resume h

theorem Invariant.answered (hI : Invariant now I) {l l' : EventLoop τ Op Answer ε α ρ} (h : I l)
    (hl : Answered now l l') : I l' := by
  cases hl with
  | mk a hnow => exact hI.resume (hI.awaited a hnow h)

end EventLoop
end Async
