import Mathlib.Tactic.Common

/-! Resumption programs: computations that suspend at every awaited call and
resume with the value the environment answers. Rejections travel as in a promise
chain, and a program always settles, because it is a well-founded tree. -/
namespace Async

/-- One answered call of a program. -/
structure Event (Op : Type) (Answer : Op → Type) where
  op : Op
  answer : Answer op

/-- `call op resume` awaits `op`; `resume` is what runs once `op` is answered. -/
inductive Program (Op : Type) (Answer : Op → Type) (ε α : Type) where
  | done (result : Except ε α)
  | call (op : Op) (resume : Answer op → Program Op Answer ε α)

variable {Op : Type} {Answer : Op → Type} {ε α β : Type}

namespace Program

/-- Continue with whatever the program settled to, a value or a rejection. -/
def settle : Program Op Answer ε α → (Except ε α → Program Op Answer ε β) →
    Program Op Answer ε β
  | .done r, f => f r
  | .call op resume, f => .call op fun a => (resume a).settle f

/-- Pass a rejection on, as `await` does. -/
def onOk (f : α → Program Op Answer ε β) : Except ε α → Program Op Answer ε β
  | .ok a => f a
  | .error e => .done (.error e)

/-- Run the handler on a rejection, as a `catch` clause does. -/
def onError (f : ε → Program Op Answer ε α) : Except ε α → Program Op Answer ε α
  | .ok a => .done (.ok a)
  | .error e => f e

instance : Monad (Program Op Answer ε) where
  pure a := .done (.ok a)
  bind p f := p.settle (onOk f)

instance : MonadExceptOf ε (Program Op Answer ε) where
  throw e := .done (.error e)
  tryCatch p f := p.settle (onError f)

/-- `try { p } finally { cleanup }`: a rejection of `cleanup` replaces the result of `p`. -/
def tryFinally (p : Program Op Answer ε α) (cleanup : Program Op Answer ε Unit) :
    Program Op Answer ε α :=
  p.settle fun r => cleanup.settle (onOk fun _ => .done r)

/-- Await a call that cannot reject. -/
def perform (op : Op) : Program Op Answer ε (Answer op) := .call op fun a => .done (.ok a)

/-- Settle with the outcome of a synchronous computation. -/
def lift (r : Except ε α) : Program Op Answer ε α := .done r

theorem bind_bind {γ : Type} (p : Program Op Answer ε α) (f : α → Program Op Answer ε β)
    (g : β → Program Op Answer ε γ) : p >>= f >>= g = p >>= fun a => f a >>= g := by
  induction p with
  | done r =>
    cases r with
    | ok a => rfl
    | error e => rfl
  | call op resume ih => exact congrArg (Program.call op) (funext ih)

@[simp] theorem onOk_ok (f : α → Program Op Answer ε β) (a : α) :
    onOk f (.ok a) = f a := rfl

@[simp] theorem onOk_error (f : α → Program Op Answer ε β) (e : ε) :
    onOk f (.error e) = .done (.error e) := rfl

@[simp] theorem onError_ok (f : ε → Program Op Answer ε α) (a : α) :
    onError f (.ok a) = .done (.ok a) := rfl

@[simp] theorem onError_error (f : ε → Program Op Answer ε α) (e : ε) :
    onError f (.error e) = f e := rfl

/-- What the program settled to, if it has. -/
def result : Program Op Answer ε α → Option (Except ε α)
  | .done r => some r
  | .call _ _ => none

/-- The call that the program awaits, if it has not settled. -/
def awaits : Program Op Answer ε α → Option Op
  | .done _ => none
  | .call op _ => some op

/-- `p.Runs t p'`: answering the calls of `p` as in `t` leaves `p'` to run. -/
inductive Runs : Program Op Answer ε α → List (Event Op Answer) → Program Op Answer ε α → Prop
  | refl (p) : Runs p [] p
  | call {op : Op} {resume : Answer op → Program Op Answer ε α} {t : List (Event Op Answer)}
      {p : Program Op Answer ε α} (a : Answer op) :
      Runs (resume a) t p → Runs (.call op resume) (⟨op, a⟩ :: t) p

/-- A complete execution: the calls it made with their answers, and its outcome. -/
def Settles (p : Program Op Answer ε α) (t : List (Event Op Answer)) (r : Except ε α) : Prop :=
  p.Runs t (.done r)

theorem Runs.snoc {p : Program Op Answer ε α} {t : List (Event Op Answer)} {op : Op}
    {resume : Answer op → Program Op Answer ε α} (h : p.Runs t (.call op resume))
    (a : Answer op) : p.Runs (t ++ [⟨op, a⟩]) (resume a) := by
  generalize hq : Program.call op resume = q at h
  induction h with
  | refl =>
    subst hq
    exact .call a (.refl _)
  | call b _ ih => exact .call b (ih hq)

@[simp] theorem settles_done_iff {r r' : Except ε α} {t : List (Event Op Answer)} :
    (Program.done r : Program Op Answer ε α).Settles t r' ↔ t = [] ∧ r = r' := by
  constructor
  · intro h
    cases h
    exact ⟨rfl, rfl⟩
  · rintro ⟨rfl, rfl⟩
    exact .refl _

@[simp] theorem settles_call_iff {op : Op} {resume : Answer op → Program Op Answer ε α}
    {t : List (Event Op Answer)} {r : Except ε α} :
    (Program.call op resume).Settles t r ↔
      ∃ a t', t = ⟨op, a⟩ :: t' ∧ (resume a).Settles t' r := by
  constructor
  · intro h
    cases h with
    | call a h => exact ⟨a, _, rfl, h⟩
  · rintro ⟨a, t', rfl, h⟩
    exact .call a h

/-- An execution of a program, and then one of what continues it. -/
theorem Settles.settle {p : Program Op Answer ε α} {f : Except ε α → Program Op Answer ε β}
    {t t' : List (Event Op Answer)} {r : Except ε α} {r' : Except ε β} (hp : p.Settles t r)
    (hf : (f r).Settles t' r') : (p.settle f).Settles (t ++ t') r' := by
  induction p generalizing t with
  | done _ =>
    obtain ⟨rfl, rfl⟩ := settles_done_iff.mp hp
    exact hf
  | call op resume ih =>
    obtain ⟨a, t, rfl, hrest⟩ := settles_call_iff.mp hp
    exact settles_call_iff.mpr ⟨a, _, rfl, ih a hrest⟩

/-- Run against an environment that answers from the calls already answered. -/
def run (env : List (Event Op Answer) → (op : Op) → Answer op) :
    Program Op Answer ε α → List (Event Op Answer) → List (Event Op Answer) × Except ε α
  | .done r, t => (t, r)
  | .call op resume, t => (resume (env t op)).run env (t ++ [⟨op, env t op⟩])

theorem run_settles (env : List (Event Op Answer) → (op : Op) → Answer op)
    (p : Program Op Answer ε α) (t : List (Event Op Answer)) :
    ∃ t', (p.run env t).1 = t ++ t' ∧ p.Settles t' (p.run env t).2 := by
  induction p generalizing t with
  | done r => exact ⟨[], by simp [run], .refl _⟩
  | call op resume ih =>
    obtain ⟨t', ht, hs⟩ := ih (env t op) (t ++ [⟨op, env t op⟩])
    exact ⟨⟨op, env t op⟩ :: t', by simpa [run] using ht, .call _ hs⟩

/-- Whatever the environment answers, the program settles. -/
theorem settles_run (env : List (Event Op Answer) → (op : Op) → Answer op)
    (p : Program Op Answer ε α) : p.Settles (p.run env []).1 (p.run env []).2 := by
  obtain ⟨t, ht, hs⟩ := run_settles env p []
  rw [ht]
  exact hs

end Program

/-- A monitor watches the calls of one program: `next` records an answered call,
`allows` says which calls may be made. -/
structure Monitor (Op : Type) (Answer : Op → Type) (σ : Type) where
  next : σ → (op : Op) → Answer op → σ
  allows : σ → Op → Prop

namespace Monitor

variable {σ : Type} (M : Monitor Op Answer σ)

/-- The record after the calls of `t`. -/
def after (s : σ) (t : List (Event Op Answer)) : σ := t.foldl (fun s e => M.next s e.op e.answer) s

@[simp] theorem after_nil (s : σ) : M.after s [] = s := rfl

@[simp] theorem after_cons (s : σ) (e : Event Op Answer) (t : List (Event Op Answer)) :
    M.after s (e :: t) = M.after (M.next s e.op e.answer) t := rfl

@[simp] theorem after_append (s : σ) (t t' : List (Event Op Answer)) :
    M.after s (t ++ t') = M.after (M.after s t) t' := by
  simp [after, List.foldl_append]

/-- Records whether a call of some kind has been answered. -/
def seen (kind : Event Op Answer → Bool) : Monitor Op Answer Bool where
  next s op a := s || kind ⟨op, a⟩
  allows _ _ := True

/-- Records every answered call. -/
def trace : Monitor Op Answer (List (Event Op Answer)) where
  next s op a := s ++ [⟨op, a⟩]
  allows _ _ := True

/-- Two monitors side by side. -/
def prod {τ : Type} (M : Monitor Op Answer σ) (N : Monitor Op Answer τ) :
    Monitor Op Answer (σ × τ) where
  next s op a := (M.next s.1 op a, N.next s.2 op a)
  allows s op := M.allows s.1 op ∧ N.allows s.2 op

@[simp] theorem seen_after (kind : Event Op Answer → Bool) (s : Bool)
    (t : List (Event Op Answer)) : (seen kind).after s t = (s || t.any kind) := by
  induction t generalizing s with
  | nil => simp
  | cons e t ih =>
    rw [after_cons, ih, List.any_cons, ← Bool.or_assoc]
    rfl

@[simp] theorem trace_after (s t : List (Event Op Answer)) : trace.after s t = s ++ t := by
  induction t generalizing s with
  | nil => simp
  | cons e t ih =>
    rw [after_cons, ih]
    exact List.append_assoc s [e] t

@[simp] theorem prod_after {τ : Type} (N : Monitor Op Answer τ) (s : σ × τ)
    (t : List (Event Op Answer)) : (M.prod N).after s t = (M.after s.1 t, N.after s.2 t) := by
  induction t generalizing s with
  | nil => rfl
  | cons e t ih =>
    rw [after_cons, ih]
    rfl

end Monitor

namespace Program

variable {σ : Type} {M : Monitor Op Answer σ} {Q Q' : σ → Except ε α → Prop} {s : σ}

/-- From record `s`, the program only makes calls the monitor allows, and it can
only settle in a way that `Q` describes. -/
def Obeys (M : Monitor Op Answer σ) :
    Program Op Answer ε α → σ → (σ → Except ε α → Prop) → Prop
  | .done r, s, Q => Q s r
  | .call op resume, s, Q => M.allows s op ∧ ∀ a, (resume a).Obeys M (M.next s op a) Q

@[simp] theorem obeys_done {r : Except ε α} :
    (Program.done r : Program Op Answer ε α).Obeys M s Q ↔ Q s r := Iff.rfl

@[simp] theorem obeys_call {op : Op} {resume : Answer op → Program Op Answer ε α} :
    (Program.call op resume).Obeys M s Q ↔
      M.allows s op ∧ ∀ a, (resume a).Obeys M (M.next s op a) Q := Iff.rfl

theorem obeys_settle {p : Program Op Answer ε β} {f : Except ε β → Program Op Answer ε α} :
    (p.settle f).Obeys M s Q ↔ p.Obeys M s fun s' r => (f r).Obeys M s' Q := by
  induction p generalizing s with
  | done r => rfl
  | call op resume ih => simp only [settle, obeys_call, ih]

theorem Obeys.mono {p : Program Op Answer ε α} (h : p.Obeys M s Q)
    (hQ : ∀ s' r, Q s' r → Q' s' r) : p.Obeys M s Q' := by
  induction p generalizing s with
  | done r => exact hQ _ _ h
  | call op resume ih => exact ⟨h.1, fun a => ih a (h.2 a)⟩

@[simp] theorem obeys_pure {a : α} :
    (pure a : Program Op Answer ε α).Obeys M s Q ↔ Q s (.ok a) := Iff.rfl

@[simp] theorem obeys_throw {e : ε} :
    (throw e : Program Op Answer ε α).Obeys M s Q ↔ Q s (.error e) := Iff.rfl

@[simp] theorem obeys_lift {r : Except ε α} :
    (lift r : Program Op Answer ε α).Obeys M s Q ↔ Q s r := Iff.rfl

@[simp] theorem obeys_perform {op : Op} {Q : σ → Except ε (Answer op) → Prop} :
    (perform op : Program Op Answer ε (Answer op)).Obeys M s Q ↔
      M.allows s op ∧ ∀ a, Q (M.next s op a) (.ok a) := Iff.rfl

/-- The rule of `await`: a rejection skips the rest. -/
@[simp] theorem obeys_bind {p : Program Op Answer ε β} {f : β → Program Op Answer ε α} :
    (p >>= f).Obeys M s Q ↔
      p.Obeys M s fun s' r => (onOk f r).Obeys M s' Q := obeys_settle

/-- The rule of `catch`. -/
@[simp] theorem obeys_tryCatch {p : Program Op Answer ε α} {f : ε → Program Op Answer ε α} :
    (tryCatch p f).Obeys M s Q ↔
      p.Obeys M s fun s' r => (onError f r).Obeys M s' Q := obeys_settle

/-- The rule of `finally`. -/
@[simp] theorem obeys_tryFinally {p : Program Op Answer ε α}
    {cleanup : Program Op Answer ε Unit} :
    (p.tryFinally cleanup).Obeys M s Q ↔
      p.Obeys M s fun s' r => cleanup.Obeys M s' fun s'' c =>
        (onOk (fun _ => (.done r : Program Op Answer ε α)) c).Obeys M s'' Q := by
  simp only [tryFinally, obeys_settle]

variable {R : σ → Prop}

/-- Sequencing through an assertion on the record alone. -/
theorem Obeys.seq {p : Program Op Answer ε β} {f : β → Program Op Answer ε α}
    (hp : p.Obeys M s fun s' _ => R s') (hf : ∀ b s', R s' → (f b).Obeys M s' Q)
    (he : ∀ e s', R s' → Q s' (.error e)) : (p >>= f).Obeys M s Q := by
  rw [obeys_bind]
  refine hp.mono ?_
  rintro s' (e | b) h
  · exact he e s' h
  · exact hf b s' h

/-- Sequencing through what holds when the first part returns. -/
theorem Obeys.andThen {p : Program Op Answer ε β} {f : β → Program Op Answer ε α}
    {T : σ → β → Prop} (hp : p.Obeys M s fun s' r => ∀ b, r = .ok b → T s' b)
    (hf : ∀ b s', T s' b → (f b).Obeys M s' Q) (he : ∀ e s', Q s' (.error e)) :
    (p >>= f).Obeys M s Q := by
  rw [obeys_bind]
  refine hp.mono ?_
  rintro s' (e | b) h
  · exact he e s'
  · exact hf b s' (h b rfl)

/-- Sequencing after an awaited call. -/
theorem Obeys.afterPerform {op : Op} {f : Answer op → Program Op Answer ε α}
    (h : M.allows s op) (hf : ∀ a, (f a).Obeys M (M.next s op a) Q) :
    (perform op >>= f).Obeys M s Q := ⟨h, hf⟩

/-- Sequencing after a synchronous computation that may throw. -/
theorem Obeys.afterLift {x : Except ε β} {f : β → Program Op Answer ε α}
    (he : ∀ e, Q s (.error e)) (hf : ∀ b, x = .ok b → (f b).Obeys M s Q) :
    (lift x >>= f).Obeys M s Q := by
  rcases x with e | b
  · exact he e
  · exact hf b rfl

/-- A check that throws, and what follows it. -/
theorem Obeys.unless {c : Prop} [Decidable c] {e : ε} {f : β → Program Op Answer ε α}
    {p : Program Op Answer ε α} (he : c → Q s (.error e)) (hp : ¬ c → p.Obeys M s Q) :
    (if c then throw e >>= f else p).Obeys M s Q := by
  split
  · exact he ‹_›
  · exact hp ‹_›

/-- Every call of the program is allowed by records in `R`, and leads back into `R`. -/
def Keeps (M : Monitor Op Answer σ) (R : σ → Prop) (p : Program Op Answer ε α) : Prop :=
  ∀ s, R s → p.Obeys M s fun s' _ => R s'

theorem keeps_pure (a : α) : (pure a : Program Op Answer ε α).Keeps M R := fun _ h => h

theorem keeps_throw (e : ε) : (throw e : Program Op Answer ε α).Keeps M R := fun _ h => h

theorem keeps_lift (r : Except ε α) : (lift r : Program Op Answer ε α).Keeps M R := fun _ h => h

theorem keeps_perform {op : Op}
    (h : ∀ s, R s → M.allows s op ∧ ∀ a, R (M.next s op a)) :
    (perform op : Program Op Answer ε (Answer op)).Keeps M R := fun s hs => h s hs

theorem Keeps.bind {p : Program Op Answer ε β} {f : β → Program Op Answer ε α}
    (hp : p.Keeps M R) (hf : ∀ b, (f b).Keeps M R) : (p >>= f).Keeps M R :=
  fun s hs => (hp s hs).seq (fun b s' h => hf b s' h) fun _ _ h => h

theorem Keeps.tryCatch {p : Program Op Answer ε α} {f : ε → Program Op Answer ε α}
    (hp : p.Keeps M R) (hf : ∀ e, (f e).Keeps M R) : (tryCatch p f).Keeps M R := by
  intro s hs
  rw [obeys_tryCatch]
  refine (hp s hs).mono ?_
  rintro s' (e | a) h
  · exact hf e s' h
  · exact h

theorem Keeps.tryFinally {p : Program Op Answer ε α} {cleanup : Program Op Answer ε Unit}
    (hp : p.Keeps M R) (hc : cleanup.Keeps M R) : (p.tryFinally cleanup).Keeps M R := by
  intro s hs
  rw [obeys_tryFinally]
  refine (hp s hs).mono fun s' r h => (hc s' h).mono ?_
  rintro s'' (e | u) h'
  · exact h'
  · exact h'

/-- A check that throws, and what follows it. -/
theorem Keeps.unless {c : Prop} [Decidable c] {e : ε} {f : β → Program Op Answer ε α}
    {p : Program Op Answer ε α} (h : p.Keeps M R) : (if c then throw e >>= f else p).Keeps M R := by
  split
  · exact fun s hs => hs
  · exact h

/-- A loop over a list. -/
theorem Keeps.foldlM {γ : Type} {f : β → γ → Program Op Answer ε β} {items : List γ}
    (h : ∀ b, ∀ x ∈ items, (f b x).Keeps M R) (b : β) : (items.foldlM f b).Keeps M R := by
  induction items generalizing b with
  | nil => exact keeps_pure b
  | cons x items ih =>
    rw [List.foldlM_cons]
    refine (h b x List.mem_cons_self).bind fun b' => ih ?_ b'
    exact fun b y hy => h b y (List.mem_cons_of_mem x hy)

/-- Every call the program may make is in `P`. -/
def Within (P : Op → Prop) : Program Op Answer ε α → Prop
  | .done _ => True
  | .call op resume => P op ∧ ∀ a, (resume a).Within P

section Within

variable {P P' : Op → Prop}

@[simp] theorem within_pure (a : α) : (pure a : Program Op Answer ε α).Within P := trivial

@[simp] theorem within_throw (e : ε) : (throw e : Program Op Answer ε α).Within P := trivial

@[simp] theorem within_lift (r : Except ε α) : (lift r : Program Op Answer ε α).Within P := trivial

@[simp] theorem within_perform {op : Op} :
    (perform op : Program Op Answer ε (Answer op)).Within P ↔ P op := by
  constructor
  · exact fun h => h.1
  · exact fun h => ⟨h, fun _ => trivial⟩

theorem Within.bind {p : Program Op Answer ε β} {f : β → Program Op Answer ε α}
    (hp : p.Within P) (hf : ∀ b, (f b).Within P) : (p >>= f).Within P := by
  induction p with
  | done r =>
    rcases r with e | b
    · trivial
    · exact hf b
  | call op resume ih => exact ⟨hp.1, fun a => ih a (hp.2 a)⟩

/-- What follows a call whose answer says how it ended. -/
theorem Within.answered {op : Op} {x : Answer op → Except ε β} {f : β → Program Op Answer ε α}
    (h : P op) (hf : ∀ b, (f b).Within P) : (perform op >>= fun a => lift (x a) >>= f).Within P :=
  ⟨h, fun a => (within_lift (x a)).bind hf⟩

theorem Within.tryCatch {p : Program Op Answer ε α} {f : ε → Program Op Answer ε α}
    (hp : p.Within P) (hf : ∀ e, (f e).Within P) : (tryCatch p f).Within P := by
  induction p with
  | done r =>
    rcases r with e | a
    · exact hf e
    · trivial
  | call op resume ih => exact ⟨hp.1, fun a => ih a (hp.2 a)⟩

theorem Within.tryFinally {p : Program Op Answer ε α} {cleanup : Program Op Answer ε Unit}
    (hp : p.Within P) (hcleanup : cleanup.Within P) : (p.tryFinally cleanup).Within P := by
  induction p with
  | done r => exact hcleanup.bind fun _ => trivial
  | call op resume ih => exact ⟨hp.1, fun a => ih a (hp.2 a)⟩

theorem Within.mono {p : Program Op Answer ε α} (h : p.Within P) (hP : ∀ op, P op → P' op) :
    p.Within P' := by
  induction p with
  | done r => trivial
  | call op resume ih => exact ⟨hP op h.1, fun a => ih a (h.2 a)⟩

/-- A check that throws, and what follows it. -/
theorem Within.unless {c : Prop} [Decidable c] {e : ε} {f : β → Program Op Answer ε α}
    {p : Program Op Answer ε α} (h : p.Within P) : (if c then throw e >>= f else p).Within P := by
  split
  · trivial
  · exact h

/-- A step that is only taken when it is asked for. -/
theorem Within.when {c : Prop} [Decidable c] {p : Program Op Answer ε Unit}
    {f : Unit → Program Op Answer ε α} (hp : p.Within P) (hf : ∀ u, (f u).Within P) :
    (if c then p >>= f else f ()).Within P := by
  split
  · exact hp.bind hf
  · exact hf ()

/-- A loop over a list, with what it accumulates. -/
theorem Within.foldlM {γ : Type} {f : β → γ → Program Op Answer ε β} {items : List γ}
    (h : ∀ b, ∀ x ∈ items, (f b x).Within P) (b : β) : (items.foldlM f b).Within P := by
  induction items generalizing b with
  | nil => trivial
  | cons x items ih =>
    rw [List.foldlM_cons]
    exact (h b x List.mem_cons_self).bind fun b' => ih (fun b y hy => h b y (List.mem_cons_of_mem x hy)) b'

theorem within_of_forall (h : ∀ op, P op) (p : Program Op Answer ε α) : p.Within P := by
  induction p with
  | done r => trivial
  | call op resume ih => exact ⟨h op, ih⟩

/-- Every call of an execution is in `P`. -/
theorem Within.of_runs {p p' : Program Op Answer ε α} {t : List (Event Op Answer)} (h : p.Within P)
    (ht : p.Runs t p') : ∀ e ∈ t, P e.op := by
  induction ht with
  | refl =>
    intro e he
    cases he
  | call a _ ih =>
    intro e he
    rcases List.mem_cons.mp he with rfl | he
    · exact h.1
    · exact ih (h.2 a) e he

theorem Within.keeps {p : Program Op Answer ε α} (h : p.Within P)
    (hP : ∀ s op, R s → P op → M.allows s op ∧ ∀ a, R (M.next s op a)) : p.Keeps M R := by
  induction p with
  | done r => exact fun _ hs => hs
  | call op resume ih =>
    intro s hs
    exact ⟨(hP s op hs h.1).1, fun a => ih a (h.2 a) _ ((hP s op hs h.1).2 a)⟩

end Within

section Embed

variable {Op' : Type} {Answer' : Op' → Type} (f : Op → Op')
  (g : ∀ op, Answer' (f op) → Answer op)

/-- The same program where there are more calls than it makes. -/
def embed : Program Op Answer ε α → Program Op' Answer' ε α
  | .done r => .done r
  | .call op resume => .call (f op) fun a => (resume (g op a)).embed

/-- An embedded program obeys what its calls obey, also where more is recorded of them. -/
theorem Obeys.embedInto {τ : Type} {N : Monitor Op' Answer' τ} (into : σ → τ)
    (hallows : ∀ s op, M.allows s op → N.allows (into s) (f op))
    (hnext : ∀ s op a, N.next (into s) (f op) a = into (M.next s op (g op a)))
    {p : Program Op Answer ε α} {Q : τ → Except ε α → Prop}
    (h : p.Obeys M s fun s' r => Q (into s') r) : (p.embed f g).Obeys N (into s) Q := by
  induction p generalizing s with
  | done r => exact h
  | call op resume ih =>
    constructor
    · exact hallows s op h.1
    · intro a
      rw [hnext]
      exact ih (g op a) (h.2 (g op a))

theorem Obeys.embed {N : Monitor Op' Answer' σ} (hallows : ∀ s op, M.allows s op → N.allows s (f op))
    (hnext : ∀ s op a, N.next s (f op) a = M.next s op (g op a)) {p : Program Op Answer ε α}
    (h : p.Obeys M s Q) : (p.embed f g).Obeys N s Q :=
  Obeys.embedInto f g id hallows hnext h

end Embed

theorem Within.embed {Op' : Type} {Answer' : Op' → Type} {f : Op → Op'}
    {g : ∀ op, Answer' (f op) → Answer op} {P : Op' → Prop} {p : Program Op Answer ε α}
    (h : p.Within fun op => P (f op)) : (p.embed f g).Within P := by
  induction p with
  | done r => trivial
  | call op resume ih => exact ⟨h.1, fun a => ih _ (h.2 _)⟩

section MapError

variable {ε' : Type} (h : ε → ε')

/-- The same program, with its rejections in a larger type. -/
def mapError : Program Op Answer ε α → Program Op Answer ε' α
  | .done r => .done (r.mapError h)
  | .call op resume => .call op fun a => (resume a).mapError

theorem mapError_bind (p : Program Op Answer ε α) (f : α → Program Op Answer ε β) :
    (p >>= f).mapError h = p.mapError h >>= fun x => (f x).mapError h := by
  induction p with
  | done r => cases r <;> rfl
  | call op resume ih => exact congrArg (Program.call op) (funext ih)

theorem obeys_mapError {p : Program Op Answer ε α} {Q : σ → Except ε' α → Prop} :
    (p.mapError h).Obeys M s Q ↔ p.Obeys M s fun s' r => Q s' (r.mapError h) := by
  induction p generalizing s with
  | done r => rfl
  | call op resume ih => simp only [mapError, obeys_call, ih]

theorem Within.mapError {P : Op → Prop} {p : Program Op Answer ε α} (hp : p.Within P) :
    (p.mapError h).Within P := by
  induction p with
  | done r => trivial
  | call op resume ih => exact ⟨hp.1, fun a => ih a (hp.2 a)⟩

end MapError

/-- A monitor that allows every call is obeyed. -/
theorem obeys_of_allows (h : ∀ s op, M.allows s op) (p : Program Op Answer ε α) (s : σ) :
    p.Obeys M s fun _ _ => True := by
  induction p generalizing s with
  | done r => trivial
  | call op resume ih => exact ⟨h s op, fun a => ih a _⟩

/-- What is left to run still obeys the monitor. -/
theorem Obeys.runs {p p' : Program Op Answer ε α} {t : List (Event Op Answer)}
    (h : p.Obeys M s Q) (ht : p.Runs t p') : p'.Obeys M (M.after s t) Q := by
  induction ht generalizing s with
  | refl => exact h
  | call a _ ih => exact ih (h.2 a)

/-- A complete execution ends in a record and an outcome that `Q` describes. -/
theorem Obeys.settles {p : Program Op Answer ε α} {t : List (Event Op Answer)}
    {r : Except ε α} (h : p.Obeys M s Q) (ht : p.Settles t r) : Q (M.after s t) r :=
  h.runs ht

/-- Every call of an execution was allowed by the record at that time. -/
theorem Obeys.allowed {p p' : Program Op Answer ε α} {t t' : List (Event Op Answer)}
    {e : Event Op Answer} (h : p.Obeys M s Q) (ht : p.Runs (t ++ e :: t') p') :
    M.allows (M.after s t) e.op := by
  generalize hu : t ++ e :: t' = u at ht
  induction ht generalizing s t with
  | refl => simp at hu
  | call a _ ih =>
    cases t with
    | nil =>
      simp only [List.nil_append, List.cons.injEq] at hu
      obtain ⟨rfl, -⟩ := hu
      exact h.1
    | cons e' t =>
      simp only [List.cons_append, List.cons.injEq] at hu
      obtain ⟨rfl, hu⟩ := hu
      rw [M.after_cons]
      exact ih (h.2 a) hu

end Program
end Async
