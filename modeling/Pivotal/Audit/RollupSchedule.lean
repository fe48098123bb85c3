import Pivotal.Async.Along
import Pivotal.Audit.RollupTotals

/-! The roll-up is re-aggregated in windows, by ticks and by the backfill, while the transactions go
on changing. -/
namespace Audit
open Async Fspiop Store TransactionRollupRepository

structure Window where
  windowStart : Js.Date
  windowEnd : Js.Date
  start_aligned : OnTheHour windowStart
  end_aligned : OnTheHour windowEnd

namespace TransactionRollupScheduler

def windowMs : ℤ := 3 * msPerHour

def msPerDay : ℤ := 24 * msPerHour

def backfillDays : ℕ := 30

theorem onTheHour_bucketHour (date : Js.Date) : OnTheHour (bucketHour date) := dvd_mul_left _ _

/-- The current hour and the two before it. -/
def computeWindow (now : Js.Date) : Window where
  windowStart := bucketHour now + msPerHour - windowMs
  windowEnd := bucketHour now + msPerHour
  start_aligned := Int.dvd_sub (Int.dvd_add (onTheHour_bucketHour now) (Int.dvd_refl _)) (dvd_mul_left _ _)
  end_aligned := Int.dvd_add (onTheHour_bucketHour now) (Int.dvd_refl _)

def todayStart (now : Js.Date) : Js.Date := now / msPerDay * msPerDay

theorem onTheHour_day (now : Js.Date) (day : ℤ) : OnTheHour (todayStart now - day * msPerDay) := by
  have hday : ∀ n : ℤ, msPerHour ∣ n * msPerDay := fun n => dvd_mul_of_dvd_right (dvd_mul_left _ _) n
  exact Int.dvd_sub (hday _) (hday _)

/-- One of the days of the backfill, counted back from today. -/
def backfillWindow (now : Js.Date) (day : Fin backfillDays) : Window where
  windowStart := todayStart now - day * msPerDay
  windowEnd := todayStart now - (day - 1) * msPerDay
  start_aligned := onTheHour_day now day
  end_aligned := onTheHour_day now (day - 1)

end TransactionRollupScheduler

open TransactionRollupScheduler

variable {J ν : Type} {collate : String → String}

/-- A re-aggregation between its read and its write, with the transactions that it read. -/
structure Reaggregation (J ν : Type) extends Window where
  read : List (Transaction J ν)

/-- `basis` is, for every bucket, what the re-aggregation read that last wrote the bucket. The
replica has the rows of the primary. -/
structure RollupSystem (J ν : Type) (collate : String → String) where
  transactions : List (Transaction J ν)
  table : RollupTable collate ν
  running : ℕ → Option (Reaggregation J ν)
  basis : Js.Date → List (Transaction J ν)

/-- `change` is any statement on the transactions. A tick and a day of the backfill read on some
replica of the scheduler, and `replace` is the write after either; a replica can be restarted in
between. The lock is left out: what is shown holds without it. -/
inductive RollupStep (J ν : Type) where
  | change (transactions : List (Transaction J ν))
  | tick (replica : ℕ) (now : Js.Date)
  | backfill (replica : ℕ) (now : Js.Date) (day : Fin backfillDays)
  | replace (replica : ℕ)
  | restart (replica : ℕ)

namespace RollupSystem

variable [AddCommMonoid ν]

def initial : RollupSystem J ν collate := ⟨[], Table.empty, fun _ => none, fun _ => []⟩

/-- The read of a re-aggregation, unless the replica is still at one. -/
def start (s : RollupSystem J ν collate) (replica : ℕ) (window : Window) :
    RollupSystem J ν collate :=
  if (s.running replica).isSome then s
  else { s with running := Function.update s.running replica (some ⟨window, s.transactions⟩) }

def within (window : Window) (hour : Js.Date) : Bool :=
  window.windowStart ≤ hour && hour < window.windowEnd

/-- The write of a re-aggregation, which is rolled back if it fails. -/
def finish (s : RollupSystem J ν collate) (replica : ℕ) :
    RollupSystem J ν collate :=
  match s.running replica with
  | none => s
  | some r =>
    match reaggregateWindow s.table r.read r.windowStart r.windowEnd with
    | none => { s with running := Function.update s.running replica none }
    | some table =>
      { s with
        table := table
        running := Function.update s.running replica none
        basis := fun hour => if within r.toWindow hour then r.read else s.basis hour }

def step (s : RollupSystem J ν collate) :
    RollupStep J ν → RollupSystem J ν collate
  | .change transactions => { s with transactions := transactions }
  | .tick replica now => s.start replica (computeWindow now)
  | .backfill replica now day => s.start replica (backfillWindow now day)
  | .replace replica => s.finish replica
  | .restart replica => { s with running := Function.update s.running replica none }

variable (collate)

def run (steps : List (RollupStep J ν)) : RollupSystem J ν collate := steps.foldl step initial

/-- The transactions of a bucket's hour. -/
def ofHour (hour : Js.Date) (transactions : List (Transaction J ν)) : List (Transaction J ν) :=
  transactions.filter (startsWithin hour (hour + msPerHour))

/-- The rows that a bucket's hour has if the transactions are aggregated. -/
def aggregateOf (transactions : List (Transaction J ν)) (hour : Js.Date) : List (RollupRow ν) :=
  aggregateWindow collate transactions hour (hour + msPerHour)

variable {collate}

def bucketRows (table : RollupTable collate ν) (hour : Js.Date) : List (RollupRow ν) :=
  table.rows.filter fun r => r.bucketHour = hour

theorem ediv_hour_eq_iff (time hour : ℤ) : time / 3600000 * 3600000 = hour * 3600000 ↔
    hour * 3600000 ≤ time ∧ time < hour * 3600000 + 3600000 := by
  omega

theorem bucketHour_eq_iff {date : Js.Date} {hour : ℤ} : bucketHour date = startOfHour hour ↔
    startOfHour hour ≤ date ∧ date < startOfHour hour + msPerHour :=
  ediv_hour_eq_iff date hour

omit [AddCommMonoid ν] in
/-- The transactions of an hour, picked from those of a window around it. -/
theorem filter_within (transactions : List (Transaction J ν)) {window : Window} {hour : ℤ}
    (h : within window (startOfHour hour) = true) :
    (transactions.filter (startsWithin window.windowStart window.windowEnd)).filter
        (fun t => bucketHour t.transactionStartedAt = startOfHour hour) =
      ofHour (startOfHour hour) transactions := by
  simp only [within, Bool.and_eq_true, decide_eq_true_eq] at h
  rw [ofHour, List.filter_filter]
  apply List.filter_congr
  intro t _
  rw [Bool.eq_iff_iff, Bool.and_eq_true, decide_eq_true_eq, startsWithin_iff, startsWithin_iff,
    ← bucketHour_eq_iff, ← bucketHour_le_iff window.start_aligned,
    ← bucketHour_lt_iff window.end_aligned]
  constructor
  · intro hin
    exact hin.1
  · intro hhour
    rw [hhour]
    exact ⟨rfl, h⟩

/-- The rows of a window's aggregate for one of its hours are those of the hour's own aggregate. -/
theorem aggregateWindow_filter (transactions : List (Transaction J ν)) {window : Window}
    {hour : ℤ} (h : within window (startOfHour hour) = true) :
    (aggregateWindow collate transactions window.windowStart window.windowEnd).filter
        (fun r => r.bucketHour = startOfHour hour) =
      aggregateOf collate transactions (startOfHour hour) := by
  have hkey : ∀ t t' : Transaction J ν, groupKey collate t = groupKey collate t' →
      decide (bucketHour t.transactionStartedAt = startOfHour hour) =
        decide (bucketHour t'.transactionStartedAt = startOfHour hour) := by
    intro t t' hgroup
    simp only [groupKey, Prod.mk.injEq] at hgroup
    rw [hgroup.1]
  rw [aggregateWindow, List.filter_map, aggregateOf, aggregateWindow]
  change ((groups (groupKey collate) (transactions.filter
    (startsWithin window.windowStart window.windowEnd))).filter
      fun g => decide (bucketHour g.1.transactionStartedAt = startOfHour hour)).map _ = _
  rw [← groups_filter hkey, filter_within transactions h]
  rfl

/-- A bucket after its window, or another one, was replaced. -/
theorem bucketRows_reaggregateWindow {table table' : RollupTable collate ν} {window : Window}
    {transactions : List (Transaction J ν)}
    (h : reaggregateWindow table transactions window.windowStart window.windowEnd = some table')
    (hour : ℤ) : bucketRows table' (startOfHour hour) =
      if within window (startOfHour hour) then aggregateOf collate transactions (startOfHour hour)
      else bucketRows table (startOfHour hour) := by
  rw [bucketRows, rows_reaggregateWindow h, List.filter_append, List.filter_filter]
  by_cases hin : within window (startOfHour hour) = true
  · rw [if_pos hin, aggregateWindow_filter transactions hin]
    have hkept : table.rows.filter (fun r => decide (r.bucketHour = startOfHour hour) &&
        !bucketWithin window.windowStart window.windowEnd r) = [] := by
      rw [List.filter_eq_nil_iff]
      intro r _
      by_cases hr : r.bucketHour = startOfHour hour
      · have hbucket : bucketWithin window.windowStart window.windowEnd r = true := by
          rw [bucketWithin, hr]
          exact hin
        simp [hbucket]
      · simp [hr]
    rw [hkept, List.nil_append]
  · rw [if_neg hin]
    have hnew : (aggregateWindow collate transactions window.windowStart window.windowEnd).filter
        (fun r => r.bucketHour = startOfHour hour) = [] := by
      rw [List.filter_eq_nil_iff]
      intro r hr hhour
      have hbucket := bucketWithin_of_mem window.start_aligned window.end_aligned hr
      rw [bucketWithin, of_decide_eq_true hhour] at hbucket
      exact hin hbucket
    rw [hnew, List.append_nil, bucketRows]
    apply List.filter_congr
    intro r _
    by_cases hr : r.bucketHour = startOfHour hour
    · have hbucket : bucketWithin window.windowStart window.windowEnd r = false := by
        rw [bucketWithin, hr]
        exact Bool.eq_false_iff.mpr hin
      simp [hbucket]
    · simp [hr]

/-- The rows of every bucket are the aggregate of its basis. -/
def Follows (s : RollupSystem J ν collate) : Prop :=
  ∀ hour, bucketRows s.table (startOfHour hour) =
    aggregateOf collate (s.basis (startOfHour hour)) (startOfHour hour)

theorem follows_start {s : RollupSystem J ν collate} (h : Follows s) (replica : ℕ)
    (window : Window) : Follows (s.start replica window) := by
  rw [start]
  split
  · exact h
  · exact h

theorem follows_finish {s : RollupSystem J ν collate} (h : Follows s) (replica : ℕ) :
    Follows (s.finish replica) := by
  rw [finish]
  split
  · exact h
  · rename_i r hr
    split
    · exact h
    · rename_i table htable
      intro hour
      simp only [bucketRows_reaggregateWindow htable hour]
      by_cases hin : within r.toWindow (startOfHour hour) = true
      · rw [if_pos hin, if_pos hin]
      · rw [if_neg hin, if_neg hin]
        exact h hour

theorem follows_step {s : RollupSystem J ν collate} (h : Follows s) (a : RollupStep J ν) :
    Follows (s.step a) := by
  cases a with
  | change transactions => exact h
  | tick replica now => exact follows_start h replica _
  | backfill replica now day => exact follows_start h replica _
  | replace replica => exact follows_finish h replica
  | restart replica => exact h

theorem follows_run (collate : String → String) (steps : List (RollupStep J ν)) :
    Follows (run collate steps) := by
  have hinitial : Follows (initial : RollupSystem J ν collate) := fun _ => rfl
  rw [run]
  generalize initial = s at hinitial
  induction steps generalizing s with
  | nil => exact hinitial
  | cons a steps ih => exact ih (s.step a) (follows_step hinitial a)

/-- The step starts a re-aggregation of the window on the replica. -/
def Starts (replica : ℕ) (window : Window) : RollupStep J ν → Prop
  | .tick replica' now => replica' = replica ∧ window = computeWindow now
  | .backfill replica' now day => replica' = replica ∧ window = backfillWindow now day
  | _ => False

/-- The step starts a re-aggregation that is to write the hour's bucket: a tick in that hour or in
one of the two after it, or the hour's day in a backfill. -/
def Covers (replica : ℕ) (hour : Js.Date) : RollupStep J ν → Prop
  | .tick replica' now => replica' = replica ∧ bucketHour now - 2 * msPerHour ≤ hour ∧
      hour ≤ bucketHour now
  | .backfill replica' now day => replica' = replica ∧ hour / msPerDay = now / msPerDay - day
  | _ => False

theorem hours_of_window (time hour : ℤ) :
    time / 3600000 * 3600000 + 3600000 - 3 * 3600000 ≤ hour * 3600000 ∧
        hour * 3600000 < time / 3600000 * 3600000 + 3600000 ↔
      time / 3600000 * 3600000 - 2 * 3600000 ≤ hour * 3600000 ∧
        hour * 3600000 ≤ time / 3600000 * 3600000 := by
  omega

theorem within_computeWindow_iff (now : Js.Date) (hour : ℤ) :
    within (computeWindow now) (startOfHour hour) = true ↔
      bucketHour now - 2 * msPerHour ≤ startOfHour hour ∧ startOfHour hour ≤ bucketHour now := by
  rw [within, Bool.and_eq_true, decide_eq_true_eq, decide_eq_true_eq]
  exact hours_of_window now hour

theorem day_of_window (time day hour : ℤ) :
    time / 86400000 * 86400000 - day * 86400000 ≤ hour ∧
        hour < time / 86400000 * 86400000 - (day - 1) * 86400000 ↔
      hour / 86400000 = time / 86400000 - day := by
  omega

theorem within_backfillWindow_iff (now : Js.Date) (day : Fin backfillDays) (hour : Js.Date) :
    within (backfillWindow now day) hour = true ↔ hour / msPerDay = now / msPerDay - day := by
  rw [within, Bool.and_eq_true, decide_eq_true_eq, decide_eq_true_eq]
  exact day_of_window now day hour

omit [AddCommMonoid ν] in
/-- Who starts a re-aggregation of a window covers the hours within it. -/
theorem covers_of_starts {replica : ℕ} {window : Window} {a : RollupStep J ν} {hour : ℤ}
    (h : Starts replica window a) (hin : within window (startOfHour hour) = true) :
    Covers replica (startOfHour hour) a := by
  cases a with
  | tick replica' now =>
    obtain ⟨rfl, rfl⟩ := h
    exact ⟨rfl, (within_computeWindow_iff now hour).mp hin⟩
  | backfill replica' now day =>
    obtain ⟨rfl, rfl⟩ := h
    exact ⟨rfl, (within_backfillWindow_iff now day _).mp hin⟩
  | _ => cases h

/-- What a replica is at was started by a step of the run. -/
def AllStarted (steps : List (RollupStep J ν)) (s : RollupSystem J ν collate) : Prop :=
  ∀ replica r, s.running replica = some r → ∃ a ∈ steps, Starts replica r.toWindow a

section Started

variable {steps : List (RollupStep J ν)} {s : RollupSystem J ν collate}

omit [AddCommMonoid ν] in
theorem allStarted_mono (h : AllStarted steps s) (a : RollupStep J ν) :
    AllStarted (steps ++ [a]) s := by
  intro replica r hr
  obtain ⟨b, hb, hstarts⟩ := h replica r hr
  exact ⟨b, List.mem_append_left _ hb, hstarts⟩

omit [AddCommMonoid ν] in
theorem allStarted_start (h : AllStarted steps s) {a : RollupStep J ν} {replica : ℕ}
    {window : Window} (ha : Starts replica window a) :
    AllStarted (steps ++ [a]) (s.start replica window) := by
  rw [start]
  split
  · exact allStarted_mono h a
  · intro other r hr
    dsimp only at hr
    by_cases hother : other = replica
    · subst hother
      rw [Function.update_self] at hr
      cases hr
      exact ⟨a, List.mem_append_right _ (List.mem_singleton_self a), ha⟩
    · rw [Function.update_of_ne hother] at hr
      exact allStarted_mono h a other r hr

omit [AddCommMonoid ν] in
theorem allStarted_stop (h : AllStarted steps s) {s' : RollupSystem J ν collate} {replica : ℕ}
    (hs : s'.running = s.running ∨ s'.running = Function.update s.running replica none) :
    AllStarted steps s' := by
  intro other r hr
  rcases hs with hs | hs
  · exact h other r (hs ▸ hr)
  · rw [hs] at hr
    by_cases hother : other = replica
    · rw [hother, Function.update_self] at hr
      cases hr
    · rw [Function.update_of_ne hother] at hr
      exact h other r hr

theorem running_finish (s : RollupSystem J ν collate) (replica : ℕ) :
    (s.finish replica).running = s.running ∨
      (s.finish replica).running = Function.update s.running replica none := by
  rw [finish]
  split
  · exact .inl rfl
  · split
    · exact .inr rfl
    · exact .inr rfl

theorem allStarted_step (h : AllStarted steps s) (a : RollupStep J ν) :
    AllStarted (steps ++ [a]) (s.step a) := by
  cases a with
  | change transactions => exact allStarted_mono h _
  | tick replica now => exact allStarted_start h ⟨rfl, rfl⟩
  | backfill replica now day => exact allStarted_start h ⟨rfl, rfl⟩
  | replace replica => exact allStarted_stop (allStarted_mono h _) (running_finish s replica)
  | restart replica => exact allStarted_stop (allStarted_mono h (.restart replica)) (.inr rfl)

end Started

theorem run_append (collate : String → String) (steps : List (RollupStep J ν))
    (a : RollupStep J ν) : run collate (steps ++ [a]) = (run collate steps).step a := by
  rw [run, List.foldl_append]
  rfl

theorem allStarted_run (collate : String → String) (steps : List (RollupStep J ν)) :
    AllStarted steps (run collate steps) := by
  induction steps using List.reverseRecOn with
  | nil =>
    intro replica r hr
    cases hr
  | append_singleton steps a ih =>
    rw [run_append]
    exact allStarted_step ih a

/-- What last wrote a bucket changes only by the write of a re-aggregation of a window with it. -/
theorem basis_step {s : RollupSystem J ν collate} {a : RollupStep J ν} {hour : Js.Date}
    (h : (s.step a).basis hour ≠ s.basis hour) :
    ∃ replica r, a = .replace replica ∧ s.running replica = some r ∧
      within r.toWindow hour = true := by
  have hstart : ∀ (replica : ℕ) (window : Window), (s.start replica window).basis = s.basis := by
    intro replica window
    rw [start]
    split
    · rfl
    · rfl
  cases a with
  | change transactions => exact absurd rfl h
  | tick replica now => exact absurd (congrFun (hstart replica _) hour) h
  | backfill replica now day => exact absurd (congrFun (hstart replica _) hour) h
  | restart replica => exact absurd rfl h
  | replace replica =>
    simp only [step, finish] at h
    split at h
    · exact absurd rfl h
    · rename_i r hr
      split at h
      · exact absurd rfl h
      · refine ⟨replica, r, rfl, hr, ?_⟩
        by_contra hnot
        simp only [hnot] at h
        exact absurd rfl h

def StepSucceeds (s : RollupSystem J ν collate) : RollupStep J ν → Prop
  | .replace replica => ∀ r ∈ s.running replica,
      (reaggregateWindow s.table r.read r.windowStart r.windowEnd).isSome
  | _ => True

/-- A tick that is not rolled back writes the buckets of its window. -/
theorem basis_tick {s : RollupSystem J ν collate} {replica : ℕ} (now : Js.Date)
    (hidle : s.running replica = none)
    (hsucceeds : Along step StepSucceeds s [.tick replica now, .replace replica]) {hour : Js.Date}
    (hin : within (computeWindow now) hour = true) :
    ((s.step (.tick replica now)).step (.replace replica)).basis hour = s.transactions := by
  have htick : s.step (.tick replica now) =
      { s with
        running := Function.update s.running replica (some ⟨computeWindow now, s.transactions⟩) } := by
    simp [step, start, hidle]
  have hrunning : (s.step (.tick replica now)).running replica =
      some ⟨computeWindow now, s.transactions⟩ := by
    rw [htick]
    exact Function.update_self ..
  have hsome := hsucceeds.2.1 _ hrunning
  obtain ⟨table, htable⟩ := Option.isSome_iff_exists.mp hsome
  change ((s.step (.tick replica now)).finish replica).basis hour = _
  simp only [finish, hrunning, htable, hin, if_true]

/-- At any time the rows of a bucket are the aggregate of what the re-aggregation read that last
wrote the bucket, and of the transactions as they are if those of its hour have not changed since.
The write is that of a tick in one of the three hours or of a day of the backfill, and a tick that
is not rolled back writes all of its three hours. -/
theorem rollup_follows (collate : String → String) (steps : List (RollupStep J ν)) (hour : ℤ) :
    bucketRows (run collate steps).table (startOfHour hour) =
        aggregateOf collate ((run collate steps).basis (startOfHour hour)) (startOfHour hour) ∧
      (ofHour (startOfHour hour) ((run collate steps).basis (startOfHour hour)) =
          ofHour (startOfHour hour) (run collate steps).transactions →
        bucketRows (run collate steps).table (startOfHour hour) =
          aggregateOf collate (run collate steps).transactions (startOfHour hour)) ∧
      (∀ a, (run collate (steps ++ [a])).basis (startOfHour hour) ≠
          (run collate steps).basis (startOfHour hour) →
        ∃ replica, a = .replace replica ∧ ∃ b ∈ steps, Covers replica (startOfHour hour) b) ∧
      ∀ replica now, (run collate steps).running replica = none →
        Along step StepSucceeds (run collate steps) [.tick replica now, .replace replica] →
        bucketHour now - 2 * msPerHour ≤ startOfHour hour → startOfHour hour ≤ bucketHour now →
        bucketRows (run collate (steps ++ [.tick replica now, .replace replica])).table
            (startOfHour hour) =
          aggregateOf collate (run collate steps).transactions (startOfHour hour) := by
  have hbasis := follows_run collate steps hour
  refine ⟨hbasis, ?_, ?_, ?_⟩
  · intro hsame
    simp only [ofHour] at hsame
    rw [hbasis, aggregateOf, aggregateOf, aggregateWindow, aggregateWindow, hsame]
  · intro a hchanged
    rw [run_append] at hchanged
    obtain ⟨replica, r, rfl, hrunning, hin⟩ := basis_step hchanged
    obtain ⟨b, hb, hstarts⟩ := allStarted_run collate steps replica r hrunning
    exact ⟨replica, rfl, b, hb, covers_of_starts hstarts hin⟩
  · intro replica now hidle hsucceeds hstart hend
    have hin := (within_computeWindow_iff now hour).mpr ⟨hstart, hend⟩
    have hrun : run collate (steps ++ [.tick replica now, .replace replica]) =
        ((run collate steps).step (.tick replica now)).step (.replace replica) := by
      rw [run, List.foldl_append]
      rfl
    rw [follows_run collate (steps ++ [RollupStep.tick replica now, .replace replica]) hour, hrun,
      basis_tick now hidle hsucceeds hin]

/-- The transaction of the first hour, disputed ten hours later. -/
def sampleDisputed : Transaction String ℤ :=
  TransactionRepository.disputed (sampleTransaction none) 36000000

/-- A tick, the dispute, and a backfill of the day. -/
def sampleSteps : List (RollupStep String ℤ) :=
  [.change [sampleTransaction none], .tick 0 0, .replace 0, .change [sampleDisputed],
    .backfill 0 36000000 ⟨0, by decide⟩, .replace 0]

/-- The dispute is in the roll-up after the backfill. -/
theorem rollup_follows_sample :
    bucketRows (run id sampleSteps).table (startOfHour 0) =
      aggregateOf id [sampleDisputed] (startOfHour 0) := by
  have hunchanged : ofHour (startOfHour 0) ((run id sampleSteps).basis (startOfHour 0)) =
      ofHour (startOfHour 0) (run id sampleSteps).transactions := by
    decide +kernel
  exact (rollup_follows id sampleSteps 0).2.1 hunchanged

/-- A dispute ten hours after the transaction: no tick looks at its hour again. -/
theorem not_rollup_follows :
    ¬ ∀ (steps : List (RollupStep String ℤ)) (replica : ℕ) (now : Js.Date),
      Along step StepSucceeds (initial : RollupSystem String ℤ id)
        (steps ++ [.tick replica now, .replace replica]) →
      ∀ hour, startOfHour hour < (computeWindow now).windowStart →
        bucketRows (run id (steps ++ [.tick replica now, .replace replica])).table
            (startOfHour hour) =
          aggregateOf id (run id (steps ++ [.tick replica now, .replace replica])).transactions
            (startOfHour hour) := by
  intro h
  have hrows := h [.change [sampleTransaction none], .tick 0 0, .replace 0,
    .change [sampleDisputed]] 0 36000000
  have hsucceeds : Along step StepSucceeds (initial : RollupSystem String ℤ id)
      [.change [sampleTransaction none], .tick 0 0, .replace 0, .change [sampleDisputed],
        .tick 0 36000000, .replace 0] := by
    refine ⟨trivial, trivial, ?_, trivial, trivial, ?_, trivial⟩
    · intro r hr
      cases hr
      decide +kernel
    · intro r hr
      cases hr
      decide +kernel
  exact absurd (hrows hsucceeds 0 (by decide)) (by decide +kernel)

end RollupSystem
end Audit
