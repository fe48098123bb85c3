import Pivotal.Async.Along
import Pivotal.Audit.LiveCounters
import Pivotal.Audit.RollupTotals

/-! The counters of a scope are overwritten by totals that were read before, while rows go on being
committed and events go on being applied. -/
namespace Audit
open Async LiveStatsStore LiveStatsWriter

def startOfDay (day : ℤ) : Js.Date := day * (24 * 60 * 60 * 1000)

/-- `commit` is of a next version of a transaction's row; `read` is of the totals that the roll-up
then has of a scope, and `reseed` writes the totals that were read last. -/
inductive LiveStep where
  | commit (correlationId : String)
  | event (e : LiveEvent)
  | read (day : ℤ) (scope : Scope) (totals : LiveVector)
  | reseed (now : Js.Date)

/-- One scope after the other. -/
def reconcileScopes (now : Js.Date) (totals : Scope → LiveVector) (scopes : List Scope) :
    List LiveStep :=
  scopes.flatMap fun scope => [.read (dateKey now) scope (totals scope), .reseed now]

section Rollup

open TransactionRollupRepository

variable {ν : Type} {collate : String → String}

/-- The totals of a scope from the beginning of the day to the end of the hour. -/
def totalsOfDay (table : RollupTable collate ν) (now : Js.Date) (scope : Scope) : LiveVector :=
  getLiveTotals table scope (startOfDay (dateKey now)) (bucketHour now + msPerHour)

/-- The scopes of the hub, and of every participant of the day. -/
def scopesOfDay (table : RollupTable collate ν) (now : Js.Date) : List Scope :=
  .hub :: (getActiveFsps table (startOfDay (dateKey now)) (bucketHour now + msPerHour)).map .fsp

/-- All of it, over a roll-up that stays as it is. -/
def reconcileLive (table : RollupTable collate ν) (now : Js.Date) : List LiveStep :=
  reconcileScopes now (totalsOfDay table now) (scopesOfDay table now)

end Rollup

structure LiveSystem where
  commits : List String
  events : List LiveEvent
  store : LiveStatsStore
  snapshot : Option (ℤ × Scope × LiveVector)

namespace LiveSystem

def initial : LiveSystem := ⟨[], [], .empty, none⟩

variable (history : String → ℕ → LiveClassificationRecord)

/-- The row of a transaction of which that many versions are committed. -/
def rowOf (commits : List String) (correlationId : String) : Option LiveClassificationRecord :=
  match commits.count correlationId with
  | 0 => none
  | v + 1 => some (history correlationId v)

/-- The totals of a day and a scope, of the rows that are committed. -/
def totals (commits : List String) (day : ℤ) (scope : Scope) : LiveVector :=
  ∑ correlationId ∈ commits.toFinset, contribution day scope (rowOf history commits correlationId)

def step (s : LiveSystem) : LiveStep → LiveSystem
  | .commit correlationId => { s with commits := s.commits ++ [correlationId] }
  | .event e => { s with events := s.events ++ [e], store := applied history s.store e }
  | .read day scope totals => { s with snapshot := some (day, scope, totals) }
  | .reseed now =>
    match s.snapshot with
    | none => s
    | some (day, scope, totals) =>
      { s with store := s.store.reseedScope now day scope totals, snapshot := none }

def run (steps : List LiveStep) : LiveSystem := steps.foldl (step history) initial

/-- An event finds a version that is committed, and is applied in order. -/
def StepOrderly (s : LiveSystem) : LiveStep → Prop
  | .event e => e.version < s.commits.count e.correlationId ∧ Orderly history s.store s.events e
  | _ => True

/-- Every event of the run is orderly. -/
def RunOrderly (steps : List LiveStep) : Prop :=
  Along (step history) (StepOrderly history) initial steps

/-- Of every transaction the row that is committed last has been applied. -/
def AllApplied (s : LiveSystem) : Prop :=
  ∀ correlationId, latestRow history s.events correlationId = rowOf history s.commits correlationId

variable {history} {s : LiveSystem} {day : ℤ} {scope : Scope}

/-- After all events the sums are the totals of the database. -/
theorem truth_eq_totals (h : AllApplied history s) (day : ℤ) (scope : Scope) :
    truth history s.events day scope = totals history s.commits day scope := by
  let ids := (s.events.map LiveEvent.correlationId).toFinset ∪ s.commits.toFinset
  have hevents : truth history s.events day scope =
      ∑ correlationId ∈ ids, contribution day scope (latestRow history s.events correlationId) := by
    apply Finset.sum_subset Finset.subset_union_left
    intro correlationId _ hnot
    rw [latestRow_of_not_mem hnot]
    rfl
  have hcommits : totals history s.commits day scope =
      ∑ correlationId ∈ ids, contribution day scope (rowOf history s.commits correlationId) := by
    apply Finset.sum_subset Finset.subset_union_right
    intro correlationId _ hnot
    have hcount : s.commits.count correlationId = 0 :=
      List.count_eq_zero.mpr fun hmem => hnot (List.mem_toFinset.mpr hmem)
    rw [rowOf, hcount]
    rfl
  rw [hevents, hcommits]
  apply Finset.sum_congr rfl
  intro correlationId _
  rw [h correlationId]

/-- A reconciliation that nothing interrupts gives its scopes the totals that it has read. -/
theorem held_reconcileScopes (now : Js.Date) (totals : Scope → LiveVector) (scopes : List Scope)
    (s : LiveSystem) (scope : Scope) :
    held (((reconcileScopes now totals scopes).foldl (step history) s).store.counters
        (dateKey now, scope)) =
      if scope ∈ scopes then totals scope else held (s.store.counters (dateKey now, scope)) := by
  induction scopes generalizing s with
  | nil => rfl
  | cons first scopes ih =>
    have hcons : (reconcileScopes now totals (first :: scopes)).foldl (step history) s =
        (reconcileScopes now totals scopes).foldl (step history)
          { s with
            store := s.store.reseedScope now (dateKey now) first (totals first)
            snapshot := none } := rfl
    rw [hcons, ih]
    by_cases hmem : scope ∈ scopes
    · rw [if_pos hmem, if_pos (List.mem_cons_of_mem first hmem)]
    · rw [if_neg hmem]
      by_cases hfirst : scope = first
      · subst hfirst
        simp [reseedScope, held]
      · have hkey : (dateKey now, scope) ≠ (dateKey now, first) := by simp [hfirst]
        simp only [reseedScope, Function.update_of_ne hkey]
        rw [if_neg (by simp [hfirst, hmem])]

/-- The hub and the participants of the day are given what the roll-up has of them. -/
theorem reconcileLive_heals {ν : Type} {collate : String → String}
    (table : TransactionRollupRepository.RollupTable collate ν) (now : Js.Date) (s : LiveSystem)
    {scope : Scope} (h : scope ∈ scopesOfDay table now) :
    held (((reconcileLive table now).foldl (step history) s).store.counters
      (dateKey now, scope)) = totalsOfDay table now scope := by
  rw [reconcileLive, held_reconcileScopes, if_pos h]

/-- By how much a counter is off the sums. -/
def drift (history : String → ℕ → LiveClassificationRecord) (s : LiveSystem) (day : ℤ)
    (scope : Scope) : LiveVector :=
  held (s.store.counters (day, scope)) - truth history s.events day scope

theorem markersMatch_step (hmatch : MarkersMatch history s.store s.events) {a : LiveStep}
    (ha : StepOrderly history s a) :
    MarkersMatch history (step history s a).store (step history s a).events := by
  cases a with
  | commit correlationId => exact hmatch
  | event e => exact (follows_applied ha.2 hmatch).markers
  | read day scope totals' => exact hmatch
  | reseed now =>
    simp only [step]
    split
    · exact hmatch
    · exact hmatch

theorem markersMatch_run {steps : List LiveStep} (h : RunOrderly history steps) :
    MarkersMatch history (run history steps).store (run history steps).events := by
  have hinitial : MarkersMatch history initial.store initial.events := fun _ => rfl
  exact Along.keeps (I := fun s => MarkersMatch history s.store s.events)
    (fun s a hmatch ha => markersMatch_step hmatch ha) hinitial h

/-- The snapshot is not of the scope. -/
def NotRead (day : ℤ) (scope : Scope) (s : LiveSystem) : Prop :=
  ∀ vector, s.snapshot ≠ some (day, scope, vector)

/-- Without a snapshot of the scope no step changes by how much its counter is off. -/
theorem drift_step (hmatch : MarkersMatch history s.store s.events)
    (hnot : NotRead day scope s) {a : LiveStep} (ha : StepOrderly history s a) :
    drift history (step history s a) day scope = drift history s day scope := by
  cases a with
  | commit correlationId => rfl
  | event e =>
    have hcounters := (follows_applied ha.2 hmatch).counters day scope
    simp only [drift, step, hcounters, truth_append]
    abel
  | read day' scope' totals' => rfl
  | reseed now =>
    simp only [step]
    split
    · rfl
    · rename_i day' scope' vector hsnapshot
      have hkey : (day, scope) ≠ (day', scope') := by
        rintro heq
        cases heq
        exact hnot vector hsnapshot
      simp only [drift, reseedScope, Function.update_of_ne hkey]

theorem notRead_step (hnot : NotRead day scope s) {a : LiveStep}
    (ha : ∀ totals, a ≠ .read day scope totals) : NotRead day scope (step history s a) := by
  intro vector
  cases a with
  | commit correlationId => exact hnot vector
  | event e => exact hnot vector
  | read day' scope' totals' =>
    intro heq
    cases heq
    exact ha vector rfl
  | reseed now =>
    simp only [step]
    split
    · exact hnot vector
    · simp

theorem drift_run (hmatch : MarkersMatch history s.store s.events) (hnot : NotRead day scope s)
    {steps : List LiveStep} (h : Along (step history) (StepOrderly history) s steps)
    (hread : ∀ totals, LiveStep.read day scope totals ∉ steps) :
    drift history (steps.foldl (step history) s) day scope = drift history s day scope := by
  induction steps generalizing s with
  | nil => rfl
  | cons a steps ih =>
    have ha : ∀ totals, a ≠ .read day scope totals :=
      fun totals heq => hread totals (heq ▸ List.mem_cons_self)
    have hrest : ∀ totals, LiveStep.read day scope totals ∉ steps :=
      fun totals hmem => hread totals (List.mem_cons_of_mem a hmem)
    rw [List.foldl_cons, ih (markersMatch_step hmatch h.1) (notRead_step hnot ha) h.2 hrest,
      drift_step hmatch hnot h.1]

/-- A scope that is reseeded, and not again, has the totals of the database once all events are
applied, exactly if the totals that were written are the sums of what had been applied by then. -/
theorem reconciled_iff (history : String → ℕ → LiveClassificationRecord)
    (before after : List LiveStep) (now : Js.Date) (day : ℤ) (scope : Scope) (written : LiveVector)
    (hrun : RunOrderly history (before ++ .reseed now :: after))
    (hwritten : (run history before).snapshot = some (day, scope, written))
    (hlast : ∀ totals, LiveStep.read day scope totals ∉ after)
    (hall : AllApplied history (run history (before ++ .reseed now :: after))) (now' : Js.Date)
    (halive : ∀ c ∈ (run history (before ++ .reseed now :: after)).store.counters (day, scope),
      now' < c.expiresAt) :
    readScope (run history (before ++ .reseed now :: after)).store now' day scope =
        totals history (run history (before ++ .reseed now :: after)).commits day scope ↔
      written = truth history (run history before).events day scope := by
  obtain ⟨hbefore, hafter⟩ := Along.append hrun
  have hmatch := markersMatch_run hbefore
  have hreseed : step history (run history before) (.reseed now) =
      { run history before with
        store := (run history before).store.reseedScope now day scope written
        snapshot := none } := by
    simp only [step, hwritten]
  have hfinal : run history (before ++ .reseed now :: after) =
      after.foldl (step history) (step history (run history before) (.reseed now)) := by
    rw [run, List.foldl_append, List.foldl_cons]
    rfl
  have hdrift : drift history (run history (before ++ .reseed now :: after)) day scope =
      written - truth history (run history before).events day scope := by
    have hnot : NotRead day scope (step history (run history before) (.reseed now)) := by
      rw [hreseed]
      intro vector
      simp
    rw [hfinal, drift_run (markersMatch_step hmatch hafter.1) hnot hafter.2 hlast, hreseed]
    simp [drift, reseedScope, held]
  rw [readScope_eq_held halive, ← truth_eq_totals hall]
  rw [drift] at hdrift
  constructor
  · intro h
    rw [h, sub_self] at hdrift
    exact sub_eq_zero.mp hdrift.symm
  · intro h
    rw [h, sub_self] at hdrift
    exact sub_eq_zero.mp hdrift

/-- The first event of a transaction, before anything is stored. -/
theorem orderly_first (e : LiveEvent) : Orderly history .empty [] e := by
  constructor
  · intro m hm
    cases hm
  · intro day scope _ c hc
    cases hc
  · intro v hv
    cases hv
  · intro v hv
    cases hv
  · intro v hv
    cases hv

theorem allApplied_first {now : Js.Date} {correlationId : String}
    (hcommits : s.commits = [correlationId]) (hevents : s.events = [⟨now, correlationId, 0⟩]) :
    AllApplied history s := by
  intro other
  rw [hcommits, hevents]
  by_cases hid : correlationId = other
  · subst hid
    simp [latestRow, latestVersion, rowOf]
  · simp [latestRow, latestVersion, rowOf, hid]

/-- The scope is read after the event was applied. -/
theorem reconciled_sample :
    readScope (run failingHistory [.commit "T", .event ⟨0, "T", 0⟩,
        .read 0 .hub (totals failingHistory ["T"] 0 .hub), .reseed 1]).store 2 0 .hub =
      totals failingHistory ["T"] 0 .hub := by
  have hall : AllApplied failingHistory (run failingHistory [.commit "T", .event ⟨0, "T", 0⟩]) :=
    allApplied_first rfl rfl
  refine (reconciled_iff failingHistory [.commit "T", .event ⟨0, "T", 0⟩,
    .read 0 .hub (totals failingHistory ["T"] 0 .hub)] [] 1 0 .hub
    (totals failingHistory ["T"] 0 .hub) ?_ rfl ?_ (allApplied_first rfl rfl) 2 ?_).mpr ?_
  · exact ⟨trivial, ⟨by decide, orderly_first _⟩, trivial, trivial, trivial⟩
  · intro totals
    exact List.not_mem_nil
  · intro c hc
    cases hc
    decide
  · exact (truth_eq_totals hall 0 .hub).symm

/-- An event is applied between the reading and the reseeding. -/
theorem not_reconciled :
    ¬ ∀ (history : String → ℕ → LiveClassificationRecord) (before after : List LiveStep)
      (now : Js.Date) (day : ℤ) (scope : Scope) (written : LiveVector),
      RunOrderly history (before ++ .reseed now :: after) →
      (run history before).snapshot = some (day, scope, written) →
      (∀ totals, LiveStep.read day scope totals ∉ after) →
      AllApplied history (run history (before ++ .reseed now :: after)) → ∀ now',
      (∀ c ∈ (run history (before ++ .reseed now :: after)).store.counters (day, scope),
        now' < c.expiresAt) →
      readScope (run history (before ++ .reseed now :: after)).store now' day scope =
        totals history (run history (before ++ .reseed now :: after)).commits day scope := by
  intro h
  let before : List LiveStep := [.read 0 .hub 0, .commit "T", .event ⟨0, "T", 0⟩]
  have hrun : RunOrderly failingHistory (before ++ .reseed 1 :: []) :=
    ⟨trivial, trivial, ⟨by decide, orderly_first _⟩, trivial, trivial⟩
  have halive : ∀ c ∈ (run failingHistory (before ++ .reseed 1 :: [])).store.counters (0, .hub),
      2 < c.expiresAt := by
    intro c hc
    cases hc
    decide
  have hread := h failingHistory before [] 1 0 .hub _ hrun rfl (fun _ => List.not_mem_nil)
    (allApplied_first rfl rfl) 2 halive
  have htxn := congrFun hread .txn
  exact absurd htxn (by decide +kernel)

end LiveSystem
end Audit
