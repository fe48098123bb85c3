import Mathlib.Logic.Function.Basic
import Pivotal.Async.Program

/-! Any number of programs interleaved over one shared state. A step starts a job,
answers the pending call of one process, loses a process, or lets the shared state
move by itself. Delays need no step of their own: a process may stay unscheduled. -/
namespace Async

/-- Jobs and the programs they run, what the shared state answers, how it moves alone. -/
structure System (Op : Type) (Answer : Op → Type) (ε α κ ρ : Type) where
  entry : κ → Program Op Answer ε α
  perform : ρ → (op : Op) → Answer op → ρ → Prop
  background : ρ → ρ → Prop

structure Process (Op : Type) (Answer : Op → Type) (ε α κ : Type) where
  job : κ
  trace : List (Event Op Answer)
  program : Program Op Answer ε α

structure Config (ι : Type) (Op : Type) (Answer : Op → Type) (ε α κ ρ : Type) where
  shared : ρ
  process : ι → Option (Process Op Answer ε α κ)

inductive Label (ι : Type) (Op : Type) (Answer : Op → Type) (κ : Type) where
  | start (i : ι) (job : κ)
  | call (i : ι) (e : Event Op Answer)
  | crash (i : ι)
  | background

variable {ι Op : Type} {Answer : Op → Type} {ε α κ ρ σ : Type}

/-- The pool before any job. -/
def Config.initial (shared : ρ) : Config ι Op Answer ε α κ ρ := ⟨shared, fun _ => none⟩

def Config.withShared (c : Config ι Op Answer ε α κ ρ) (s : ρ) : Config ι Op Answer ε α κ ρ :=
  { c with shared := s }

@[simp] theorem Config.withShared_shared (c : Config ι Op Answer ε α κ ρ) (s : ρ) :
    (c.withShared s).shared = s := rfl

@[simp] theorem Config.withShared_process (c : Config ι Op Answer ε α κ ρ) (s : ρ) :
    (c.withShared s).process = c.process := rfl

variable [DecidableEq ι]

def Config.put (c : Config ι Op Answer ε α κ ρ) (i : ι)
    (p : Option (Process Op Answer ε α κ)) : Config ι Op Answer ε α κ ρ :=
  { c with process := Function.update c.process i p }

@[simp] theorem Config.put_shared (c : Config ι Op Answer ε α κ ρ) (i : ι)
    (p : Option (Process Op Answer ε α κ)) : (c.put i p).shared = c.shared := rfl

@[simp] theorem Config.put_self (c : Config ι Op Answer ε α κ ρ) (i : ι)
    (p : Option (Process Op Answer ε α κ)) : (c.put i p).process i = p := by
  simp [Config.put]

theorem Config.put_ne (c : Config ι Op Answer ε α κ ρ) {i j : ι} (h : j ≠ i)
    (p : Option (Process Op Answer ε α κ)) : (c.put i p).process j = c.process j := by
  simp [Config.put, h]

@[simp] theorem Config.put_withShared_put (c : Config ι Op Answer ε α κ ρ) (i : ι) (s s' : ρ)
    (p q : Option (Process Op Answer ε α κ)) :
    (((c.withShared s).put i p).withShared s').put i q = (c.withShared s').put i q := by
  simp [Config.put, Config.withShared]

@[simp] theorem Config.withShared_put_again (c : Config ι Op Answer ε α κ ρ) (i : ι) (s : ρ)
    (p q : Option (Process Op Answer ε α κ)) :
    ((c.put i p).withShared s).put i q = (c.withShared s).put i q := by
  simp [Config.put, Config.withShared]

@[simp] theorem Config.put_process (c : Config ι Op Answer ε α κ ρ) (i : ι) :
    (c.withShared c.shared).put i (c.process i) = c := by
  simp [Config.put, Config.withShared]

section Solo

variable (policy : ρ → (op : Op) → Answer op × ρ)

/-- Run a program to its end with nothing in between, the shared state following `policy`. -/
def Program.solo : Program Op Answer ε α → ρ → List (Event Op Answer) →
    ρ × List (Event Op Answer) × Except ε α
  | .done r, s, t => (s, t, r)
  | .call op resume, s, t =>
    (resume (policy s op).1).solo (policy s op).2 (t ++ [⟨op, (policy s op).1⟩])

/-- Run at most `n` calls of a program, and leave the rest. -/
def Program.advance : ℕ → Program Op Answer ε α → ρ → List (Event Op Answer) →
    ρ × List (Event Op Answer) × Program Op Answer ε α
  | 0, p, s, t => (s, t, p)
  | _ + 1, .done r, s, t => (s, t, .done r)
  | n + 1, .call op resume, s, t =>
    (resume (policy s op).1).advance n (policy s op).2 (t ++ [⟨op, (policy s op).1⟩])

/-- Let one process of a pool make at most `n` calls. -/
def Config.advance (c : Config ι Op Answer ε α κ ρ) (i : ι) (n : ℕ) : Config ι Op Answer ε α κ ρ :=
  match c.process i with
  | none => c
  | some ⟨job, t, p⟩ => (c.withShared (p.advance policy n c.shared t).1).put i
      (some ⟨job, (p.advance policy n c.shared t).2.1, (p.advance policy n c.shared t).2.2⟩)

/-- `P` holds of every call of the solo run, with the shared state and the calls before it. -/
def Program.SoloAll (P : ρ → List (Event Op Answer) → Event Op Answer → Prop) :
    Program Op Answer ε α → ρ → List (Event Op Answer) → Prop
  | .done _, _, _ => True
  | .call op resume, s, t => P s t ⟨op, (policy s op).1⟩ ∧
    (resume (policy s op).1).SoloAll P (policy s op).2 (t ++ [⟨op, (policy s op).1⟩])

instance Program.decidableSoloAll (P : ρ → List (Event Op Answer) → Event Op Answer → Prop)
    [∀ s t e, Decidable (P s t e)] : (p : Program Op Answer ε α) → (s : ρ) →
    (t : List (Event Op Answer)) → Decidable (p.SoloAll policy P s t)
  | .done _, _, _ => .isTrue trivial
  | .call _ resume, s, t =>
    @instDecidableAnd _ _ _ (Program.decidableSoloAll P (resume _) (policy s _).2 (t ++ [⟨_, _⟩]))

/-- `P` holds of the first calls of the solo run. -/
def Program.AdvanceAll (P : ρ → Event Op Answer → Prop) : ℕ → Program Op Answer ε α → ρ → Prop
  | 0, _, _ => True
  | _ + 1, .done _, _ => True
  | n + 1, .call op resume, s => P s ⟨op, (policy s op).1⟩ ∧
    (resume (policy s op).1).AdvanceAll P n (policy s op).2

instance Program.decidableAdvanceAll (P : ρ → Event Op Answer → Prop) [∀ s e, Decidable (P s e)] :
    (n : ℕ) → (p : Program Op Answer ε α) → (s : ρ) → Decidable (p.AdvanceAll policy P n s)
  | 0, _, _ => .isTrue trivial
  | _ + 1, .done _, _ => .isTrue trivial
  | n + 1, .call _ resume, s =>
    @instDecidableAnd _ _ _ (Program.decidableAdvanceAll P n (resume _) (policy s _).2)

variable {policy}

theorem Program.advanceAll_of_forall {P : ρ → Event Op Answer → Prop} (hP : ∀ s e, P s e) (n : ℕ)
    (p : Program Op Answer ε α) (s : ρ) : p.AdvanceAll policy P n s := by
  induction n generalizing p s with
  | zero => trivial
  | succ n ih =>
    cases p with
    | done r => trivial
    | call op resume => exact ⟨hP _ _, ih _ _⟩

theorem Program.SoloAll.mono {P P' : ρ → List (Event Op Answer) → Event Op Answer → Prop}
    (hP : ∀ s t e, P s t e → P' s t e) {p : Program Op Answer ε α} {s : ρ}
    {t : List (Event Op Answer)} (h : p.SoloAll policy P s t) : p.SoloAll policy P' s t := by
  induction p generalizing s t with
  | done r => trivial
  | call op resume ih => exact ⟨hP _ _ _ h.1, ih _ h.2⟩

theorem Program.soloAll_of_forall {P : ρ → List (Event Op Answer) → Event Op Answer → Prop}
    (hP : ∀ s t e, P s t e) (p : Program Op Answer ε α) (s : ρ) (t : List (Event Op Answer)) :
    p.SoloAll policy P s t := by
  induction p generalizing s t with
  | done r => trivial
  | call op resume ih => exact ⟨hP _ _ _, ih _ _ _⟩

theorem Program.advance_add (p : Program Op Answer ε α) (m n : ℕ) (s : ρ)
    (t : List (Event Op Answer)) : p.advance policy (m + n) s t =
      (p.advance policy m s t).2.2.advance policy n (p.advance policy m s t).1
        (p.advance policy m s t).2.1 := by
  induction m generalizing p s t with
  | zero => rw [Nat.zero_add, Program.advance]
  | succ m ih =>
    cases p with
    | done r =>
      cases n with
      | zero => rfl
      | succ n => rfl
    | call op resume =>
      rw [Nat.add_right_comm]
      exact ih _ _ _

theorem Config.advance_add (c : Config ι Op Answer ε α κ ρ) (i : ι) (m n : ℕ) :
    c.advance policy i (m + n) = (c.advance policy i m).advance policy i n := by
  cases hi : c.process i with
  | none => simp only [Config.advance, hi]
  | some p =>
    obtain ⟨job, t, p⟩ := p
    simp only [Config.advance, hi, Config.put_self, Config.put_shared, Config.withShared_shared,
      Program.advance_add, Config.put_withShared_put]

/-- Nothing is left of a process that has settled. -/
theorem Config.advance_of_settled {c : Config ι Op Answer ε α κ ρ} {i : ι}
    (hi : (c.process i).bind (fun p => p.program.awaits) = none) (n : ℕ) :
    c.advance policy i n = c := by
  cases hp : c.process i with
  | none => simp only [Config.advance, hp]
  | some p =>
    obtain ⟨job, t, p⟩ := p
    cases p with
    | done r =>
      have hsame : (c.withShared c.shared).put i (some ⟨job, t, .done r⟩) = c := by
        rw [← hp, Config.put_process]
      cases n with
      | zero => simpa only [Config.advance, hp, Program.advance] using hsame
      | succ n => simpa only [Config.advance, hp, Program.advance] using hsame
    | call op resume =>
      rw [hp] at hi
      cases hi

@[simp] theorem Config.advance_zero (c : Config ι Op Answer ε α κ ρ) (i : ι) :
    c.advance policy i 0 = c := by
  cases hp : c.process i with
  | none => simp only [Config.advance, hp]
  | some p =>
    have hsame : (c.withShared c.shared).put i (some p) = c := by rw [← hp, Config.put_process]
    simpa only [Config.advance, hp, Program.advance] using hsame

end Solo

namespace System

variable (S : System Op Answer ε α κ ρ)

/-- `crash` loses a process that has not settled, with everything it knew. -/
inductive Step : Config ι Op Answer ε α κ ρ → Label ι Op Answer κ →
    Config ι Op Answer ε α κ ρ → Prop
  | start {c : Config ι Op Answer ε α κ ρ} {i : ι} (job : κ) : c.process i = none →
      Step c (.start i job) (c.put i (some ⟨job, [], S.entry job⟩))
  | call {c : Config ι Op Answer ε α κ ρ} {i : ι} {job : κ} {t : List (Event Op Answer)}
      {op : Op} {resume : Answer op → Program Op Answer ε α} {a : Answer op} {s : ρ} :
      c.process i = some ⟨job, t, .call op resume⟩ → S.perform c.shared op a s →
      Step c (.call i ⟨op, a⟩)
        ((c.withShared s).put i (some ⟨job, t ++ [⟨op, a⟩], resume a⟩))
  | crash {c : Config ι Op Answer ε α κ ρ} {i : ι} {job : κ} {t : List (Event Op Answer)}
      {op : Op} {resume : Answer op → Program Op Answer ε α} :
      c.process i = some ⟨job, t, .call op resume⟩ → Step c (.crash i) (c.put i none)
  | background {c : Config ι Op Answer ε α κ ρ} {s : ρ} : S.background c.shared s →
      Step c .background (c.withShared s)

/-- The configurations reached from `c₀` by steps that each meet `ok` where they are taken. -/
inductive Reaches (ok : Config ι Op Answer ε α κ ρ → Label ι Op Answer κ → Prop)
    (c₀ : Config ι Op Answer ε α κ ρ) : Config ι Op Answer ε α κ ρ → Prop
  | refl : Reaches ok c₀ c₀
  | tail {c c' : Config ι Op Answer ε α κ ρ} {l : Label ι Op Answer κ} :
      Reaches ok c₀ c → ok c l → S.Step c l c' → Reaches ok c₀ c'

/-- Every schedule. -/
def Any : Config ι Op Answer ε α κ ρ → Label ι Op Answer κ → Prop := fun _ _ => True

/-- The schedules in which no process is lost. -/
def NoCrash : Config ι Op Answer ε α κ ρ → Label ι Op Answer κ → Prop := fun _ l => ∀ i, l ≠ .crash i

variable {S} {ok ok' : Config ι Op Answer ε α κ ρ → Label ι Op Answer κ → Prop}
  {c₀ c : Config ι Op Answer ε α κ ρ}

/-- A property that holds at the start and that every admitted step keeps. -/
theorem Reaches.invariant {P : Config ι Op Answer ε α κ ρ → Prop} (h : S.Reaches ok c₀ c)
    (h₀ : P c₀)
    (hstep : ∀ c c' l, S.Reaches ok c₀ c → P c → ok c l → S.Step c l c' → P c') : P c := by
  induction h with
  | refl => exact h₀
  | tail hr hl hs ih => exact hstep _ _ _ hr ih hl hs

theorem Reaches.trans {c' : Config ι Op Answer ε α κ ρ} (h : S.Reaches ok c₀ c)
    (h' : S.Reaches ok c c') : S.Reaches ok c₀ c' := by
  induction h' with
  | refl => exact h
  | tail _ hl hs ih => exact .tail ih hl hs

theorem Reaches.mono (h : S.Reaches ok c₀ c)
    (hok : ∀ c l, S.Reaches ok' c₀ c → ok c l → ok' c l) : S.Reaches ok' c₀ c := by
  induction h with
  | refl => exact .refl
  | tail _ hl hs ih => exact .tail ih (hok _ _ ih hl) hs

/-- A process may run to its end by itself. -/
theorem Reaches.finish {policy : ρ → (op : Op) → Answer op × ρ} (i : ι) {job : κ}
    (hpolicy : ∀ s op, S.perform s op (policy s op).1 (policy s op).2)
    (p : Program Op Answer ε α) {t : List (Event Op Answer)} (h : S.Reaches ok c₀ c)
    (hi : c.process i = some ⟨job, t, p⟩)
    (hall : p.SoloAll policy (fun s t e =>
      ∀ p, ok ((c.withShared s).put i (some ⟨job, t, p⟩)) (.call i e)) c.shared t) :
    S.Reaches ok c₀ ((c.withShared (p.solo policy c.shared t).1).put i
      (some ⟨job, (p.solo policy c.shared t).2.1, .done (p.solo policy c.shared t).2.2⟩)) := by
  have hrun : ∀ (p : Program Op Answer ε α) (s : ρ) (t : List (Event Op Answer)),
      S.Reaches ok c₀ ((c.withShared s).put i (some ⟨job, t, p⟩)) →
      p.SoloAll policy (fun s t e =>
        ∀ p, ok ((c.withShared s).put i (some ⟨job, t, p⟩)) (.call i e)) s t →
      S.Reaches ok c₀ ((c.withShared (p.solo policy s t).1).put i
        (some ⟨job, (p.solo policy s t).2.1, .done (p.solo policy s t).2.2⟩)) := by
    intro p
    induction p with
    | done r => exact fun s t hr _ => hr
    | call op resume ih =>
      intro s t hr hall
      refine ih _ _ _ ?_ hall.2
      have hstep := Step.call (S := S) (Config.put_self (c.withShared s) i
        (some ⟨job, t, .call op resume⟩)) (hpolicy s op)
      have hlast := hr.tail (hall.1 _) hstep
      rwa [Config.put_withShared_put] at hlast
  refine hrun p c.shared t ?_ hall
  rwa [← hi, Config.put_process]

/-- So may one that is started. -/
theorem Reaches.solo {policy : ρ → (op : Op) → Answer op × ρ} (h : S.Reaches ok c₀ c)
    (i : ι) (job : κ) (hi : c.process i = none)
    (hpolicy : ∀ s op, S.perform s op (policy s op).1 (policy s op).2)
    (hstart : ok c (.start i job))
    (hall : (S.entry job).SoloAll policy (fun s t e =>
      ∀ p, ok ((c.withShared s).put i (some ⟨job, t, p⟩)) (.call i e)) c.shared []) :
    S.Reaches ok c₀ ((c.withShared ((S.entry job).solo policy c.shared []).1).put i
      (some ⟨job, ((S.entry job).solo policy c.shared []).2.1,
        .done ((S.entry job).solo policy c.shared []).2.2⟩)) := by
  have hrun := (h.tail hstart (.start job hi)).finish i hpolicy (S.entry job) (Config.put_self ..)
    (by simpa only [Config.withShared_put_again, Config.put_shared] using hall)
  rwa [Config.withShared_put_again] at hrun

/-- A process may run a while by itself, where its calls can be answered. -/
theorem Reaches.advanceWhere {policy : ρ → (op : Op) → Answer op × ρ} {P : ρ → Event Op Answer → Prop}
    (h : S.Reaches ok c₀ c) (i : ι)
    (hpolicy : ∀ s op, P s ⟨op, (policy s op).1⟩ → S.perform s op (policy s op).1 (policy s op).2)
    (hok : ∀ s e, P s e → ∀ p, ok ((c.withShared s).put i p) (.call i e)) (n : ℕ)
    (hall : ∀ p, c.process i = some p → p.program.AdvanceAll policy P n c.shared) :
    S.Reaches ok c₀ (c.advance policy i n) := by
  have hrun : ∀ (n : ℕ) (job : κ) (p : Program Op Answer ε α) (s : ρ) (t : List (Event Op Answer)),
      S.Reaches ok c₀ ((c.withShared s).put i (some ⟨job, t, p⟩)) → p.AdvanceAll policy P n s →
      S.Reaches ok c₀ ((c.withShared (p.advance policy n s t).1).put i
        (some ⟨job, (p.advance policy n s t).2.1, (p.advance policy n s t).2.2⟩)) := by
    intro n
    induction n with
    | zero => exact fun _ _ _ _ hr _ => hr
    | succ n ih =>
      intro job p s t hr hall
      cases p with
      | done r => exact hr
      | call op resume =>
        have hstep := Step.call (S := S) (Config.put_self (c.withShared s) i
          (some ⟨job, t, .call op resume⟩)) (hpolicy s op hall.1)
        have hlast := hr.tail (hok _ _ hall.1 _) hstep
        rw [Config.put_withShared_put] at hlast
        exact ih _ _ _ _ hlast hall.2
  simp only [Config.advance]
  split
  · exact h
  · rename_i job t p hi
    refine hrun n job p c.shared t ?_ (hall _ hi)
    rwa [← hi, Config.put_process]

/-- A process may run a while by itself. -/
theorem Reaches.advanceAll {policy : ρ → (op : Op) → Answer op × ρ} {P : ρ → Event Op Answer → Prop}
    (h : S.Reaches ok c₀ c) (i : ι)
    (hpolicy : ∀ s op, S.perform s op (policy s op).1 (policy s op).2)
    (hok : ∀ s e, P s e → ∀ p, ok ((c.withShared s).put i p) (.call i e)) (n : ℕ)
    (hall : ∀ p, c.process i = some p → p.program.AdvanceAll policy P n c.shared) :
    S.Reaches ok c₀ (c.advance policy i n) :=
  h.advanceWhere i (fun s op _ => hpolicy s op) hok n hall

/-- In the schedule of all schedules nothing has to be shown for it. -/
theorem Reaches.advance {policy : ρ → (op : Op) → Answer op × ρ} (h : S.Reaches Any c₀ c)
    (hpolicy : ∀ s op, S.perform s op (policy s op).1 (policy s op).2) (i : ι) (n : ℕ) :
    S.Reaches Any c₀ (c.advance policy i n) :=
  h.advanceAll (P := fun _ _ => True) i hpolicy (fun _ _ _ _ => trivial) n
    fun p _ => Program.advanceAll_of_forall (fun _ _ => trivial) n p.program c.shared

omit [DecidableEq ι] in
theorem noCrash_start (i : ι) (job : κ) : NoCrash c (.start i job : Label ι Op Answer κ) := by
  intro j
  simp

omit [DecidableEq ι] in
theorem noCrash_call (i : ι) (e : Event Op Answer) : NoCrash c (.call i e : Label ι Op Answer κ) := by
  intro j
  simp

/-- Nor in the schedule without a crash. -/
theorem Reaches.advance_noCrash {policy : ρ → (op : Op) → Answer op × ρ}
    (h : S.Reaches NoCrash c₀ c)
    (hpolicy : ∀ s op, S.perform s op (policy s op).1 (policy s op).2) (i : ι) (n : ℕ) :
    S.Reaches NoCrash c₀ (c.advance policy i n) :=
  h.advanceAll (P := fun _ _ => True) i hpolicy (fun _ e _ _ => noCrash_call i e) n
    fun p _ => Program.advanceAll_of_forall (fun _ _ => trivial) n p.program c.shared

/-- The next call of a process that has one. -/
theorem exists_step {policy : ρ → (op : Op) → Answer op × ρ}
    (hpolicy : ∀ s op, S.perform s op (policy s op).1 (policy s op).2) {i : ι}
    (hi : (c.process i).map (fun p => p.program.result.isSome) = some false) :
    ∃ e, S.Step c (.call i e) (c.advance policy i 1) := by
  obtain ⟨⟨job, t, p⟩, hp, hpending⟩ := Option.map_eq_some_iff.mp hi
  cases p with
  | done r => cases hpending
  | call op resume =>
    refine ⟨⟨op, (policy c.shared op).1⟩, ?_⟩
    have hstep := Step.call (S := S) hp (hpolicy c.shared op)
    simpa [Config.advance, hp, Program.advance] using hstep

/-- The next call of a process, where it is known. -/
theorem step_advance {policy : ρ → (op : Op) → Answer op × ρ}
    (hpolicy : ∀ s op, S.perform s op (policy s op).1 (policy s op).2) {i : ι} (op : Op)
    (hi : (c.process i).bind (fun p => p.program.awaits) = some op) :
    S.Step c (.call i ⟨op, (policy c.shared op).1⟩) (c.advance policy i 1) := by
  obtain ⟨⟨job, t, p⟩, hp, hawaits⟩ := Option.bind_eq_some_iff.mp hi
  cases p with
  | done r => cases hawaits
  | call op' resume =>
    cases hawaits
    have hstep := Step.call (S := S) hp (hpolicy c.shared op)
    simpa [Config.advance, hp, Program.advance] using hstep

/-- A process may run a while by itself, where each of its calls is admitted in its turn. -/
theorem Reaches.advanceEach {policy : ρ → (op : Op) → Answer op × ρ} (h : S.Reaches ok c₀ c)
    (i : ι) (hpolicy : ∀ s op, S.perform s op (policy s op).1 (policy s op).2) (n : ℕ)
    (hok : ∀ k < n, ∀ op,
      ((c.advance policy i k).process i).bind (fun p => p.program.awaits) = some op →
      ok (c.advance policy i k) (.call i ⟨op, (policy (c.advance policy i k).shared op).1⟩)) :
    S.Reaches ok c₀ (c.advance policy i n) := by
  induction n with
  | zero => rwa [Config.advance_zero]
  | succ n ih =>
    have hbefore := ih fun k hk => hok k (Nat.lt_succ_of_lt hk)
    rw [Config.advance_add]
    cases hawaits : ((c.advance policy i n).process i).bind fun p => p.program.awaits with
    | none => rwa [Config.advance_of_settled hawaits]
    | some op =>
      exact hbefore.tail (hok n (Nat.lt_succ_self n) op hawaits) (step_advance hpolicy op hawaits)

/-- A settled process stays as it is. -/
theorem Reaches.settled_stays (h : S.Reaches ok c₀ c) {i : ι} {job : κ}
    {t : List (Event Op Answer)} {r : Except ε α} (hi : c₀.process i = some ⟨job, t, .done r⟩) :
    c.process i = some ⟨job, t, .done r⟩ := by
  induction h with
  | refl => exact hi
  | @tail c c' l _ _ hs ih =>
    cases hs with
    | @start j job' hj =>
      have hij : i ≠ j := by
        rintro rfl
        simp [ih] at hj
      rwa [Config.put_ne _ hij]
    | @call j job' t' op resume a s hj _ =>
      have hij : i ≠ j := by
        rintro rfl
        simp [ih] at hj
      rwa [Config.put_ne _ hij]
    | @crash j job' t' op resume hj =>
      have hij : i ≠ j := by
        rintro rfl
        simp [ih] at hj
      rwa [Config.put_ne _ hij]
    | background _ => exact ih

/-- Every process is its job's program with the recorded calls answered. -/
theorem Reaches.process_runs {s : ρ} (h : S.Reaches ok (.initial s) c) {i : ι}
    {p : Process Op Answer ε α κ} (hp : c.process i = some p) :
    (S.entry p.job).Runs p.trace p.program := by
  induction h generalizing i p with
  | refl => simp [Config.initial] at hp
  | @tail c c' l _ _ hs ih =>
    cases hs with
    | @start i' job hi =>
      by_cases hij : i = i'
      · subst hij
        simp only [Config.put_self, Option.some.injEq] at hp
        subst hp
        exact .refl _
      · exact ih (by rwa [Config.put_ne _ hij] at hp)
    | @call i' job t op resume a s hi _ =>
      by_cases hij : i = i'
      · subst hij
        simp only [Config.put_self, Option.some.injEq] at hp
        subst hp
        exact (ih hi).snoc a
      · exact ih (by rwa [Config.put_ne _ hij] at hp)
    | @crash i' job t op resume hi =>
      by_cases hij : i = i'
      · subst hij
        simp at hp
      · exact ih (by rwa [Config.put_ne _ hij] at hp)
    | background _ => exact ih hp

end System

/-! Records of processes, one of which is replaced or removed. -/

section Update

theorem forall_update {f : ι → Option σ} {i : ι} {r' : σ} {P : ι → σ → Prop} :
    (∀ j r, Function.update f i (some r') j = some r → P j r) ↔
      P i r' ∧ ∀ j r, j ≠ i → f j = some r → P j r := by
  constructor
  · intro h
    refine ⟨h i r' (by simp), fun j r hj hf => h j r ?_⟩
    rwa [Function.update_of_ne hj]
  · rintro ⟨hi, hne⟩ j r hf
    by_cases hj : j = i
    · subst hj
      simp only [Function.update_self, Option.some.injEq] at hf
      exact hf ▸ hi
    · exact hne j r hj (by rwa [Function.update_of_ne hj] at hf)

theorem exists_update {f : ι → Option σ} {i : ι} {r r' : σ} {P : σ → Prop}
    (hi : f i = some r) (hP : P r → P r') (h : ∃ j s, f j = some s ∧ P s) :
    ∃ j s, Function.update f i (some r') j = some s ∧ P s := by
  obtain ⟨j, s, hj, hs⟩ := h
  by_cases hji : j = i
  · subst hji
    obtain rfl : r = s := by simpa [hi] using hj
    exact ⟨j, r', by simp, hP hs⟩
  · exact ⟨j, s, by rwa [Function.update_of_ne hji], hs⟩

theorem update_eq_some {f : ι → Option σ} {i j : ι} {x : Option σ} {r : σ} :
    Function.update f i x j = some r ↔ j = i ∧ x = some r ∨ j ≠ i ∧ f j = some r := by
  by_cases hj : j = i
  · subst hj
    simp
  · simp [hj]

theorem of_update_none {f : ι → Option σ} {i j : ι} {r : σ}
    (h : Function.update f i none j = some r) : j ≠ i ∧ f j = some r := by
  simpa using update_eq_some.mp h

end Update

section Monitored

variable {M : Monitor Op Answer σ} {s₀ : κ → σ} {Q : κ → σ → Except ε α → Prop}

/-- What a monitor has recorded of a process. -/
def Process.record (M : Monitor Op Answer σ) (s₀ : κ → σ) (p : Process Op Answer ε α κ) : σ :=
  M.after (s₀ p.job) p.trace

@[simp] theorem Process.record_start (job : κ) (q : Program Op Answer ε α) :
    Process.record M s₀ ⟨job, [], q⟩ = s₀ job := rfl

@[simp] theorem Process.record_snoc (job : κ) (t : List (Event Op Answer))
    (e : Event Op Answer) (q q' : Program Op Answer ε α) :
    Process.record M s₀ ⟨job, t ++ [e], q⟩ =
      M.next (Process.record M s₀ ⟨job, t, q'⟩) e.op e.answer := by
  simp [Process.record]

variable {S : System Op Answer ε α κ ρ}
  {ok : Config ι Op Answer ε α κ ρ → Label ι Op Answer κ → Prop}
  {c : Config ι Op Answer ε α κ ρ} {s : ρ} {i : ι}

/-- If every entry program obeys the monitor, so does what any process has left to run. -/
theorem System.Reaches.obeys (h : S.Reaches ok (.initial s) c)
    (hS : ∀ job, (S.entry job).Obeys M (s₀ job) (Q job))
    {p : Process Op Answer ε α κ} (hp : c.process i = some p) :
    p.program.Obeys M (p.record M s₀) (Q p.job) :=
  (hS p.job).runs (h.process_runs hp)

/-- The pending call of a process is one the monitor allows. -/
theorem System.Reaches.allows (h : S.Reaches ok (.initial s) c)
    (hS : ∀ job, (S.entry job).Obeys M (s₀ job) (Q job))
    {job : κ} {t : List (Event Op Answer)} {op : Op}
    {resume : Answer op → Program Op Answer ε α}
    (hp : c.process i = some ⟨job, t, .call op resume⟩) :
    M.allows (Process.record M s₀ (ε := ε) (α := α) ⟨job, t, .call op resume⟩) op :=
  (h.obeys hS hp).1

/-- A settled process is described by the postcondition. -/
theorem System.Reaches.settled (h : S.Reaches ok (.initial s) c)
    (hS : ∀ job, (S.entry job).Obeys M (s₀ job) (Q job))
    {job : κ} {t : List (Event Op Answer)} {r : Except ε α}
    (hp : c.process i = some ⟨job, t, .done r⟩) : Q job (M.after (s₀ job) t) r :=
  h.obeys hS hp

/-- What a monitor has recorded of every process. -/
def Config.records (M : Monitor Op Answer σ) (s₀ : κ → σ) (c : Config ι Op Answer ε α κ ρ) :
    ι → Option σ := fun j => (c.process j).map (Process.record M s₀)

omit [DecidableEq ι] in
theorem Config.records_eq {j : ι} {p : Process Op Answer ε α κ} (h : c.process j = some p) :
    c.records M s₀ j = some (p.record M s₀) := by
  simp [Config.records, h]

omit [DecidableEq ι] in
theorem Config.records_eq_none {j : ι} (h : c.process j = none) :
    c.records M s₀ j = none := by
  simp [Config.records, h]

omit [DecidableEq ι] in
@[simp] theorem Config.records_initial (s : ρ) :
    (Config.initial s : Config ι Op Answer ε α κ ρ).records M s₀ = fun _ => none := rfl

omit [DecidableEq ι] in
@[simp] theorem Config.records_withShared (c : Config ι Op Answer ε α κ ρ) (s : ρ) :
    (c.withShared s).records M s₀ = c.records M s₀ := rfl

@[simp] theorem Config.records_put (c : Config ι Op Answer ε α κ ρ) (j : ι)
    (p : Option (Process Op Answer ε α κ)) :
    (c.put j p).records M s₀ =
      Function.update (c.records M s₀) j (p.map (Process.record M s₀)) := by
  funext k
  by_cases h : k = j
  · subst h
    simp [Config.records]
  · simp [Config.records, Config.put_ne c h, h]

variable (S M s₀) in
/-- A step, seen through the records: programs are gone, and what is left of them is
that they only make calls the monitor allows. -/
inductive System.Move : ρ → (ι → Option σ) → Label ι Op Answer κ → ρ → (ι → Option σ) → Prop
  | start {s : ρ} {f : ι → Option σ} {i : ι} (job : κ) : f i = none →
      Move s f (.start i job) s (Function.update f i (some (s₀ job)))
  | call {s s' : ρ} {f : ι → Option σ} {i : ι} {r : σ} {op : Op} {a : Answer op} :
      f i = some r → M.allows r op → S.perform s op a s' →
      Move s f (.call i ⟨op, a⟩) s' (Function.update f i (some (M.next r op a)))
  | crash {s : ρ} {f : ι → Option σ} {i : ι} {r : σ} {op : Op} : f i = some r →
      M.allows r op → Move s f (.crash i) s (Function.update f i none)
  | background {s s' : ρ} {f : ι → Option σ} : S.background s s' →
      Move s f .background s' f

/-- Every step of a pool whose programs obey the monitor is a move of its records. -/
theorem System.Reaches.move {c' : Config ι Op Answer ε α κ ρ} {l : Label ι Op Answer κ}
    (h : S.Reaches ok (.initial s) c)
    (hS : ∀ job, (S.entry job).Obeys M (s₀ job) (Q job)) (hs : S.Step c l c') :
    S.Move M s₀ c.shared (c.records M s₀) l c'.shared (c'.records M s₀) := by
  cases hs with
  | start job hi =>
    simp only [Config.put_shared, Config.records_put, Option.map_some, Process.record_start]
    exact .start job (Config.records_eq_none hi)
  | @call i job t op resume a s' hi hp =>
    simp only [Config.put_shared, Config.withShared_shared, Config.records_put,
      Config.records_withShared, Option.map_some]
    rw [Process.record_snoc _ _ _ _ (.call op resume)]
    exact .call (Config.records_eq hi) (h.allows hS hi) hp
  | crash hi =>
    simp only [Config.put_shared, Config.records_put, Option.map_none]
    exact .crash (Config.records_eq hi) (h.allows hS hi)
  | background hb => exact .background hb

/-- An invariant of the shared state and the records, from the moves alone. -/
theorem System.Reaches.records_invariant
    (okMove : ρ → (ι → Option σ) → Label ι Op Answer κ → Prop) (P : ρ → (ι → Option σ) → Prop)
    (h : S.Reaches (fun c l => okMove c.shared (c.records M s₀) l) (.initial s) c)
    (hS : ∀ job, (S.entry job).Obeys M (s₀ job) (Q job)) (h₀ : P s fun _ => none)
    (hmove : ∀ s f l s' f', P s f → okMove s f l → S.Move M s₀ s f l s' f' → P s' f') :
    P c.shared (c.records M s₀) :=
  h.invariant (P := fun c => P c.shared (c.records M s₀)) h₀
    fun _ _ _ hr hP hl hs => hmove _ _ _ _ _ hP hl (hr.move hS hs)

/-- What a monitor has recorded of every process that has not settled. -/
def Config.live (M : Monitor Op Answer σ) (s₀ : κ → σ) (c : Config ι Op Answer ε α κ ρ) :
    ι → Option σ := fun j => (c.process j).bind fun p =>
  match p.program with
  | .done _ => none
  | .call _ _ => some (p.record M s₀)

omit [DecidableEq ι] in
theorem Config.live_call {j : ι} {job : κ} {t : List (Event Op Answer)} {op : Op}
    {resume : Answer op → Program Op Answer ε α}
    (h : c.process j = some ⟨job, t, .call op resume⟩) :
    c.live M s₀ j = some (M.after (s₀ job) t) := by
  simp [Config.live, h, Process.record]

omit [DecidableEq ι] in
theorem Config.live_eq_some {j : ι} {r : σ} (h : c.live M s₀ j = some r) :
    ∃ job t op resume, c.process j = some ⟨job, t, .call op resume⟩ ∧ M.after (s₀ job) t = r := by
  simp only [Config.live, Option.bind_eq_some_iff] at h
  obtain ⟨⟨job, t, _ | ⟨op, resume⟩⟩, hj, hr⟩ := h
  · cases hr
  · exact ⟨job, t, op, resume, hj, Option.some.inj hr⟩

omit [DecidableEq ι] in
@[simp] theorem Config.live_initial (s : ρ) :
    (Config.initial s : Config ι Op Answer ε α κ ρ).live M s₀ = fun _ => none := rfl

omit [DecidableEq ι] in
@[simp] theorem Config.live_withShared (c : Config ι Op Answer ε α κ ρ) (s : ρ) :
    (c.withShared s).live M s₀ = c.live M s₀ := rfl

variable (M s₀) in
theorem Config.live_put (c : Config ι Op Answer ε α κ ρ) (j : ι) (job : κ)
    (t : List (Event Op Answer)) (p : Program Op Answer ε α) :
    ∃ x, (x = none ∨ x = some (M.after (s₀ job) t)) ∧
      (c.put j (some ⟨job, t, p⟩)).live M s₀ = Function.update (c.live M s₀) j x := by
  have hput : ∀ x, (c.put j (some ⟨job, t, p⟩)).live M s₀ j = x →
      (c.put j (some ⟨job, t, p⟩)).live M s₀ = Function.update (c.live M s₀) j x := by
    intro x hx
    funext k
    by_cases hk : k = j
    · subst hk
      simpa using hx
    · simp [Config.live, Config.put_ne c hk, hk]
  cases p with
  | done r => exact ⟨none, .inl rfl, hput none (by simp [Config.live])⟩
  | call op resume =>
    exact ⟨_, .inr rfl, hput _ (Config.live_call (Config.put_self c j _))⟩

/-- One process beside processes that have all settled. -/
theorem Config.live_alone {c : Config ι Op Answer ε α κ ρ} (hc : ∀ j, c.live M s₀ j = none)
    {j k : ι} {job : κ} {t : List (Event Op Answer)} {p : Program Op Answer ε α} {r : σ}
    (h : ((c.withShared s).put j (some ⟨job, t, p⟩)).live M s₀ k = some r) :
    r = M.after (s₀ job) t := by
  obtain ⟨x, hx, hlive⟩ := (c.withShared s).live_put M s₀ j job t p
  rw [hlive] at h
  rcases update_eq_some.mp h with ⟨-, rfl⟩ | ⟨-, hk⟩
  · simpa using hx
  · rw [live_withShared, hc k] at hk
    cases hk

theorem Config.live_put_none (c : Config ι Op Answer ε α κ ρ) (j : ι) :
    (c.put j none).live M s₀ = Function.update (c.live M s₀) j none := by
  funext k
  by_cases hk : k = j
  · subst hk
    simp [Config.live]
  · simp [Config.live, Config.put_ne c hk, hk]

variable (S M s₀) in
/-- A step, seen through the records of the processes that have not settled. A process that
starts, or whose call is answered, may settle at once. -/
inductive System.LiveMove :
    ρ → (ι → Option σ) → Label ι Op Answer κ → ρ → (ι → Option σ) → Prop
  | start {s : ρ} {f : ι → Option σ} {i : ι} {x : Option σ} (job : κ) : f i = none →
      (x = none ∨ x = some (s₀ job)) →
      LiveMove s f (.start i job) s (Function.update f i x)
  | call {s s' : ρ} {f : ι → Option σ} {i : ι} {r : σ} {op : Op} {a : Answer op} {x : Option σ} :
      f i = some r → M.allows r op → S.perform s op a s' → (x = none ∨ x = some (M.next r op a)) →
      LiveMove s f (.call i ⟨op, a⟩) s' (Function.update f i x)
  | crash {s : ρ} {f : ι → Option σ} {i : ι} {r : σ} : f i = some r →
      LiveMove s f (.crash i) s (Function.update f i none)
  | background {s s' : ρ} {f : ι → Option σ} : S.background s s' →
      LiveMove s f .background s' f

theorem System.LiveMove.of_call {s s' : ρ} {f f' : ι → Option σ} {e : Event Op Answer}
    (h : S.LiveMove M s₀ s f (.call i e) s' f') :
    ∃ r x, f i = some r ∧ M.allows r e.op ∧ S.perform s e.op e.answer s' ∧
      (x = none ∨ x = some (M.next r e.op e.answer)) ∧ f' = Function.update f i x := by
  cases h with
  | call hi hr hp hx => exact ⟨_, _, hi, hr, hp, hx, rfl⟩

/-- Every step of a pool whose programs obey the monitor is a move of its live records. -/
theorem System.Reaches.live_move {c' : Config ι Op Answer ε α κ ρ} {l : Label ι Op Answer κ}
    (h : S.Reaches ok (.initial s) c)
    (hS : ∀ job, (S.entry job).Obeys M (s₀ job) (Q job)) (hs : S.Step c l c') :
    S.LiveMove M s₀ c.shared (c.live M s₀) l c'.shared (c'.live M s₀) := by
  cases hs with
  | @start i job hi =>
    obtain ⟨x, hx, hlive⟩ := c.live_put M s₀ i job [] (S.entry job)
    rw [hlive]
    exact .start job (by simp [Config.live, hi]) hx
  | @call i job t op resume a s' hi hp =>
    obtain ⟨x, hx, hlive⟩ :=
      (c.withShared s').live_put M s₀ i job (t ++ [⟨op, a⟩]) (resume a)
    rw [hlive]
    apply LiveMove.call (Config.live_call hi) (h.allows hS hi) hp
    simpa using hx
  | crash hi =>
    rw [Config.live_put_none]
    exact .crash (Config.live_call hi)
  | background hb => exact .background hb

/-- What every call keeps of a record stays so while the process is not lost. -/
theorem System.Reaches.record_keeps {P : σ → Prop} {c₁ : Config ι Op Answer ε α κ ρ}
    (h : S.Reaches ok c₁ c) (hcrash : ∀ c l, ok c l → l ≠ .crash i)
    (hP : ∀ r op a, P r → P (M.next r op a))
    (hi : ∃ p, c₁.process i = some p ∧ P (p.record M s₀)) :
    ∃ p, c.process i = some p ∧ P (p.record M s₀) := by
  induction h with
  | refl => exact hi
  | @tail c c' l _ hl hs ih =>
    obtain ⟨p, hp, hr⟩ := ih
    cases hs with
    | @start j job hj =>
      have hij : i ≠ j := by
        rintro rfl
        simp [hp] at hj
      exact ⟨p, by rwa [Config.put_ne _ hij], hr⟩
    | @call j job t op resume a s' hj _ =>
      by_cases hij : i = j
      · subst hij
        obtain rfl := Option.some.inj (hp.symm.trans hj)
        refine ⟨_, Config.put_self _ _ _, ?_⟩
        rw [Process.record_snoc _ _ _ _ (.call op resume)]
        exact hP _ op a hr
      · exact ⟨p, by rwa [Config.put_ne _ hij], hr⟩
    | @crash j job t op resume hj =>
      have hij : i ≠ j := by
        rintro rfl
        exact hcrash _ _ hl rfl
      exact ⟨p, by rwa [Config.put_ne _ hij], hr⟩
    | background _ => exact ⟨p, hp, hr⟩

variable (M s₀) in
/-- A process after a step: as it was, just started, or with one more call answered. -/
theorem System.Step.record_cases {c' : Config ι Op Answer ε α κ ρ} {l : Label ι Op Answer κ}
    (hs : S.Step c l c') {j : ι} {p : Process Op Answer ε α κ} (hp : c'.process j = some p) :
    c.process j = some p ∨ (∃ job, l = .start j job ∧ p.record M s₀ = s₀ job) ∨
      ∃ e r, l = .call j e ∧ c.live M s₀ j = some r ∧ p.record M s₀ = M.next r e.op e.answer := by
  cases hs with
  | @start i job hi =>
    by_cases hj : j = i
    · subst hj
      obtain rfl : _ = p := Option.some.inj ((Config.put_self _ _ _).symm.trans hp)
      exact .inr (.inl ⟨job, rfl, Process.record_start _ _⟩)
    · exact .inl (by rwa [Config.put_ne _ hj] at hp)
  | @call i job t op resume a s' hi hperform =>
    by_cases hj : j = i
    · subst hj
      obtain rfl : _ = p := Option.some.inj ((Config.put_self _ _ _).symm.trans hp)
      refine .inr (.inr ⟨⟨op, a⟩, _, rfl, Config.live_call hi, ?_⟩)
      exact Process.record_snoc _ _ _ _ (.call op resume)
    · exact .inl (by rwa [Config.put_ne _ hj] at hp)
  | @crash i job t op resume hi =>
    by_cases hj : j = i
    · subst hj
      simp at hp
    · exact .inl (by rwa [Config.put_ne _ hj] at hp)
  | background hb => exact .inl hp

/-- An invariant of the shared state and the live records, from the moves alone. -/
theorem System.Reaches.live_invariant
    (okMove : ρ → (ι → Option σ) → Label ι Op Answer κ → Prop) (P : ρ → (ι → Option σ) → Prop)
    (h : S.Reaches (fun c l => okMove c.shared (c.live M s₀) l) (.initial s) c)
    (hS : ∀ job, (S.entry job).Obeys M (s₀ job) (Q job)) (h₀ : P s fun _ => none)
    (hmove : ∀ s f l s' f', P s f → okMove s f l → S.LiveMove M s₀ s f l s' f' → P s' f') :
    P c.shared (c.live M s₀) :=
  h.invariant (P := fun c => P c.shared (c.live M s₀)) h₀
    fun _ _ _ hr hP hl hs => hmove _ _ _ _ _ hP hl (hr.live_move hS hs)

end Monitored
end Async
