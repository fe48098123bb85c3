import Pivotal.Async.Alone
import Pivotal.Audit.ReportLifeCycle

/-! One replica of the report worker over the table that it shares with others: its dispatches, which
may overlap, the workers that these start, and the counter of those that are active. -/
namespace Audit
open Async
open Async.Program (Ensures Executes ensures_bind ensures_call lift perform)

namespace ReportDownloadProcessor

variable (settings : ReportDownloadSettings)

/-- `dispatch` up to the count of the running requests. -/
def countRunning : ReportProgram ℕ := do
  recoverStaleRunning settings
  let now ← perform .now
  lift (← perform (.countFreshRunning (now - settings.staleRunningTtlMs)))

def availableSlots (runningCount activeWorkers : ℕ) : ℕ :=
  settings.maxConcurrent - runningCount - activeWorkers

theorem dispatch_eq (activeWorkers : ℕ) : dispatch settings activeWorkers = do
    let runningCount ← countRunning settings
    return availableSlots settings runningCount activeWorkers := by
  simp only [dispatch, countRunning, Async.Program.bind_bind, availableSlots]

end ReportDownloadProcessor

/-- A dispatch that found slots, or none: the requests that were pending, the fresh running ones that
it has seen, and the workers that it starts. -/
structure Dispatched where
  pending : ℕ
  running : ℕ
  started : ℕ
  deriving DecidableEq

/-- The rows are those of the table, which others write too. -/
structure Replica where
  stopped : Bool
  activeWorkers : ℕ
  rows : ReportTable
  dispatches : List (ReportProgram ℕ)
  workers : List (ReportProgram Unit)

def ReportTable.pending (rows : ReportTable) : ℕ := rows.countP (·.status = .pending)

namespace Replica
open ReportDownloadProcessor

def initial (rows : ReportTable) : Replica := ⟨false, 0, rows, [], []⟩

/-- What a program awaits is answered. -/
inductive Answered {α : Type} (rows : ReportTable) :
    ReportProgram α → ReportTable → ReportProgram α → Prop
  | mk {op : ReportOp} {k : ReportAnswer op → ReportProgram α} {rows' : ReportTable}
      (a : ReportAnswer op) : reportPerforms rows op a rows' → Answered rows (.call op k) rows' (k a)

variable (settings : ReportDownloadSettings)

/-- What `dispatch` does when the running requests are counted: it looks at the counter of active
workers then, and starts the new ones at once. -/
def dispatched (r : Replica) (running : ℕ) (dispatches : List (ReportProgram ℕ)) : Replica :=
  { r with
    activeWorkers := r.activeWorkers + availableSlots settings running r.activeWorkers
    dispatches := dispatches
    workers := r.workers ++
      List.replicate (availableSlots settings running r.activeWorkers) (processNext settings) }

/-- The timer, which does not wait for the dispatch before; calls that are answered, in any order;
workers that end, however they do; and what other replicas and the users do to the table. -/
inductive Step : Replica → Option Dispatched → Replica → Prop
  | poll {r : Replica} : r.stopped = false →
      Step r none { r with dispatches := r.dispatches ++ [countRunning settings] }
  | stop {r : Replica} : Step r none { r with stopped := true }
  | dispatchAnswered {r : Replica} (before after : List (ReportProgram ℕ)) {p p' : ReportProgram ℕ}
      {rows : ReportTable} : r.dispatches = before ++ p :: after → Answered r.rows p rows p' →
      Step r none { r with rows := rows, dispatches := before ++ p' :: after }
  | dispatched {r : Replica} (before after : List (ReportProgram ℕ)) (running : ℕ) :
      r.dispatches = before ++ .done (.ok running) :: after →
      Step r (some ⟨r.rows.pending, running, availableSlots settings running r.activeWorkers⟩)
        (r.dispatched settings running (before ++ after))
  | dispatchFailed {r : Replica} (before after : List (ReportProgram ℕ)) {e : String} :
      r.dispatches = before ++ .done (.error e) :: after →
      Step r none { r with dispatches := before ++ after }
  | workerAnswered {r : Replica} (before after : List (ReportProgram Unit))
      {p p' : ReportProgram Unit} {rows : ReportTable} : r.workers = before ++ p :: after →
      Answered r.rows p rows p' →
      Step r none { r with rows := rows, workers := before ++ p' :: after }
  | workerEnded {r : Replica} (before after : List (ReportProgram Unit))
      {result : Except String Unit} : r.workers = before ++ .done result :: after →
      Step r none { r with workers := before ++ after, activeWorkers := r.activeWorkers - 1 }
  | others {r : Replica} (rows : ReportTable) : (rows.map (·.id)).Nodup →
      Step r none { r with rows := rows }

/-- What a replica comes to from the day that it starts, over a table whose ids are distinct. -/
inductive Reached : Replica → Prop
  | initial (rows : ReportTable) : (rows.map (·.id)).Nodup → Reached (.initial rows)
  | step {r r' : Replica} {d : Option Dispatched} : Reached r → Step settings r d r' → Reached r'

/-- The counter is right, the replica is within its bound, and no two requests have one id. -/
structure Sound (r : Replica) : Prop where
  counted : r.activeWorkers = r.workers.length
  bounded : r.activeWorkers ≤ settings.maxConcurrent
  distinct : (r.rows.map (·.id)).Nodup

variable {settings}

theorem ids_of_performs {rows rows' : ReportTable} {op : ReportOp} {a : ReportAnswer op}
    (h : reportPerforms rows op a rows') : rows'.map (·.id) = rows.map (·.id) := by
  cases op with
  | update criteria changes =>
    obtain ⟨rfl, -⟩ := h
    rcases a.applies_cases rows (rows.update criteria changes) with heq | ⟨-, heq⟩
    · rw [heq, ReportTable.ids_update]
    · rw [heq]
  | findFirstPending => rw [h.1]
  | now | countFreshRunning | findParamsByRequestId | generate | upload =>
    obtain rfl : rows' = rows := h
    rfl

theorem Sound.step {r r' : Replica} {d : Option Dispatched} (h : r.Sound settings)
    (hstep : Step settings r d r') : r'.Sound settings := by
  obtain ⟨hcounted, hbounded, hdistinct⟩ := h
  cases hstep with
  | poll | stop => exact ⟨hcounted, hbounded, hdistinct⟩
  | dispatchAnswered before after hp ha =>
    obtain ⟨a, hperforms⟩ := ha
    refine ⟨hcounted, hbounded, ?_⟩
    show (List.map _ _).Nodup
    rw [ids_of_performs hperforms]
    exact hdistinct
  | dispatched before after running hp =>
    refine ⟨?_, ?_, hdistinct⟩
    · simp [Replica.dispatched, hcounted]
    · simp only [Replica.dispatched, availableSlots]
      omega
  | dispatchFailed before after hp => exact ⟨hcounted, hbounded, hdistinct⟩
  | workerAnswered before after hp ha =>
    obtain ⟨a, hperforms⟩ := ha
    refine ⟨?_, hbounded, ?_⟩
    · simpa [hp] using hcounted
    · show (List.map _ _).Nodup
      rw [ids_of_performs hperforms]
      exact hdistinct
  | workerEnded before after hp =>
    rw [hp, List.length_append, List.length_cons] at hcounted
    refine ⟨?_, (Nat.sub_le _ _).trans hbounded, hdistinct⟩
    show r.activeWorkers - 1 = (before ++ after).length
    rw [List.length_append]
    omega
  | others rows hrows => exact ⟨hcounted, hbounded, hrows⟩

theorem Reached.sound {r : Replica} (h : Reached settings r) : r.Sound settings := by
  induction h with
  | initial rows hrows => exact ⟨rfl, Nat.zero_le _, hrows⟩
  | step _ hstep ih => exact ih.step hstep

end Replica

/-! What workers take of the table when they claim one after another. -/

/-- Calls that do not fail. -/
def ReportSucceeds (rows : ReportTable) : (op : ReportOp) → ReportAnswer op → ReportTable → Prop
  | .findFirstPending, a, rows' => reportPerforms rows .findFirstPending a rows' ∧ a.isOk = true
  | .update criteria changes, a, rows' =>
    reportPerforms rows (.update criteria changes) a rows' ∧ ∃ affected, a = .done affected
  | op, a, rows' => reportPerforms rows op a rows'

/-- `n` workers claim, one after another and nobody else in between, and `taken` of them find a
request. -/
inductive Claims : ℕ → ReportTable → ℕ → Prop
  | nil (rows : ReportTable) : Claims 0 rows 0
  | found {n taken : ℕ} {rows rows' : ReportTable} {request : ReportDownloadRequest} :
      ReportDownloadRepository.claimNextPending.Executes ReportSucceeds rows (.ok (some request))
        rows' → Claims n rows' taken → Claims (n + 1) rows (taken + 1)
  | none {n taken : ℕ} {rows rows' : ReportTable} :
      ReportDownloadRepository.claimNextPending.Executes ReportSucceeds rows (.ok none) rows' →
        Claims n rows' taken → Claims (n + 1) rows taken

section Claims

variable {rows : ReportTable}

theorem ReportTable.pending_cons (row : ReportDownloadRequest) (rows : ReportTable) :
    ReportTable.pending (row :: rows) =
      rows.pending + if row.status = .pending then 1 else 0 := by
  simp [ReportTable.pending, List.countP_cons]

theorem ReportTable.pending_update (rows : ReportTable) (id : String) (changes : ReportChanges)
    (hset : changes.status = some .running) :
    (rows.update ⟨some id, .pending, none⟩ changes).pending +
      rows.countP (ReportCriteria.matches ⟨some id, .pending, none⟩) = rows.pending := by
  induction rows with
  | nil => rfl
  | cons row rows ih =>
    have hcons : ReportTable.update (row :: rows) ⟨some id, .pending, none⟩ changes =
        (if ReportCriteria.matches ⟨some id, .pending, none⟩ row = true then changes.apply row
          else row) :: ReportTable.update rows ⟨some id, .pending, none⟩ changes := rfl
    rw [hcons, ReportTable.pending_cons, ReportTable.pending_cons, List.countP_cons]
    by_cases hmatches : ReportCriteria.matches ⟨some id, .pending, none⟩ row = true
    · have happly : (changes.apply row).status = .running := by
        simp [ReportChanges.apply, hset]
      rw [if_pos hmatches, if_pos hmatches, happly, ReportCriteria.status_of_matches hmatches]
      simp only [reduceCtorEq, if_false, if_true]
      omega
    · rw [if_neg hmatches, if_neg hmatches]
      omega

theorem ReportTable.countP_id (hids : (rows.map (·.id)).Nodup) {request : ReportDownloadRequest}
    (hrequest : request ∈ rows) (hpending : request.status = .pending) :
    rows.countP (ReportCriteria.matches ⟨some request.id, .pending, none⟩) = 1 := by
  have hpos : 0 < rows.countP (ReportCriteria.matches ⟨some request.id, .pending, none⟩) :=
    List.countP_pos_iff.mpr ⟨request, hrequest, by simp [ReportCriteria.matches, hpending]⟩
  have hcount : (rows.map (·.id)).count request.id = 1 :=
    List.count_eq_one_of_mem hids (List.mem_map_of_mem hrequest)
  have hle : rows.countP (ReportCriteria.matches ⟨some request.id, .pending, none⟩) ≤
      (rows.map (·.id)).count request.id := by
    rw [List.count, List.countP_map]
    refine List.countP_mono_left fun row _ hmatches => ?_
    simpa using ReportCriteria.id_of_matches hmatches
  omega

theorem claimNextPending_ensures (hids : (rows.map (·.id)).Nodup) :
    ReportDownloadRepository.claimNextPending.Ensures ReportSucceeds rows fun rows' result =>
      rows'.map (·.id) = rows.map (·.id) ∧
        (result = .ok none ∧ rows.pending = 0 ∧ rows'.pending = 0 ∨
          ∃ request, result = .ok (some request) ∧ rows'.pending + 1 = rows.pending) := by
  rintro a rows' ⟨⟨rfl, hfirst⟩, hok⟩
  cases a with
  | error e => cases hok
  | ok found =>
    cases found with
    | none =>
      have hzero : rows'.pending = 0 :=
        List.countP_eq_zero.mpr fun row hrow => by simpa using hfirst _ rfl row hrow
      exact ⟨rfl, .inl ⟨rfl, hzero, hzero⟩⟩
    | some request =>
      obtain ⟨hrequest, hpending, -⟩ := hfirst _ rfl
      have hone := ReportTable.countP_id hids hrequest hpending
      rintro now rows'' rfl b rows₃ ⟨⟨rfl, haffected⟩, affected, rfl⟩
      obtain rfl := haffected _ rfl
      have hupdate := ReportTable.pending_update rows'' request.id
        { status := some .running, updatedAt := now } rfl
      show (if _ then _ else _ : ReportProgram _).Ensures _ _ _
      rw [if_pos hone]
      refine ⟨ReportTable.ids_update _ _ _, .inr ⟨_, rfl, ?_⟩⟩
      rw [hone] at hupdate
      exact hupdate

theorem Claims.taken_eq {n taken : ℕ} (h : Claims n rows taken) (hids : (rows.map (·.id)).Nodup) :
    taken = min rows.pending n := by
  induction h with
  | nil rows => simp
  | found hclaim _ ih =>
    obtain ⟨hsame, ⟨hnone, -⟩ | ⟨request, -, hpending⟩⟩ :=
      (claimNextPending_ensures hids).of_executes hclaim
    · cases hnone
    · rw [ih (hsame ▸ hids)]
      omega
  | none hclaim _ ih =>
    obtain ⟨hsame, ⟨-, hbefore, hafter⟩ | ⟨request, hsome, -⟩⟩ :=
      (claimNextPending_ensures hids).of_executes hclaim
    · rw [ih (hsame ▸ hids), hbefore, hafter]
      simp
    · cases hsome

end Claims

namespace Dispatched

variable (settings : ReportDownloadSettings)

/-- Of the requests that are pending, as many as there are slots have a worker. A worker that finds
no request ends at once. -/
def FillsSlots (d : Dispatched) : Prop :=
  d.running < settings.maxConcurrent → 0 < d.pending →
    min d.pending d.started = min d.pending (settings.maxConcurrent - d.running)

end Dispatched

namespace Replica

variable {settings : ReportDownloadSettings}

theorem Step.started {r r' : Replica} {d : Dispatched} (h : Step settings r (some d) r') :
    d.pending = r.rows.pending ∧
      d.started = settings.maxConcurrent - d.running - r.activeWorkers ∧
      r'.workers.length = r.workers.length + d.started := by
  cases h with
  | dispatched before after running hp => exact ⟨rfl, rfl, by simp [Replica.dispatched]⟩

/-- In every run at most as many workers are active as are allowed. A dispatch takes the active
workers off beside their running requests, so it fills the slots exactly if no worker is active, or
every pending request gets a worker; the last part counts the workers that find no request too. -/
theorem dispatch_fills_slots_iff {r : Replica} (h : Reached settings r) :
    r.activeWorkers = r.workers.length ∧ r.workers.length ≤ settings.maxConcurrent ∧
      ∀ d r', Step settings r (some d) r' →
        r'.workers.length = r.workers.length + d.started ∧
        (∀ taken, Claims d.started r.rows taken → taken = min d.pending d.started) ∧
        (d.FillsSlots settings ↔ settings.maxConcurrent ≤ d.running ∨ d.pending = 0 ∨
          r.workers = [] ∨
          d.pending ≤ settings.maxConcurrent - d.running - r.workers.length) ∧
        (d.running < settings.maxConcurrent → 0 < d.pending →
          (d.started = min d.pending (settings.maxConcurrent - d.running) ↔
            d.pending = settings.maxConcurrent - d.running - r.workers.length ∨
              r.workers = [] ∧ settings.maxConcurrent - d.running ≤ d.pending)) := by
  obtain ⟨hcounted, hbounded, hdistinct⟩ := h.sound
  refine ⟨hcounted, hcounted ▸ hbounded, fun d r' hstep => ?_⟩
  obtain ⟨hpending, hstarted, hworkers⟩ := hstep.started
  refine ⟨hworkers, fun taken htaken => ?_, ?_, fun hrunning hsome => ?_⟩
  · rw [htaken.taken_eq hdistinct, hpending]
  · rw [Dispatched.FillsSlots, hstarted, hcounted, ← List.length_eq_zero_iff]
    omega
  · rw [hstarted, hcounted, ← List.length_eq_zero_iff]
    omega

section Sample

/-- Two workers at once. -/
def slotSettings : ReportDownloadSettings := { sampleReportSettings with maxConcurrent := 2 }

def requested (id : String) : ReportDownloadRequest :=
  ReportDownloadRepository.pendingRow (fun _ _ _ => "signature") id
    ⟨.transactionDetail, "csv", [], none, none⟩ 0

theorem Reached.answerDispatch {r : Replica} (h : Reached settings r)
    {op : ReportOp} {k : ReportAnswer op → ReportProgram ℕ} (hdispatches : r.dispatches = [.call op k])
    (a : ReportAnswer op) (ha : reportPerforms r.rows op a r.rows) :
    Reached settings { r with dispatches := [k a] } :=
  h.step (.dispatchAnswered [] [] hdispatches (.mk a ha))

/-- A poll while no dispatch is under way and no request is stale, up to what it counts. -/
theorem Reached.counted {r : Replica} (h : Reached settings r) (hstopped : r.stopped = false)
    (hnone : r.dispatches = []) (now : ℤ)
    (hfresh : ∀ row ∈ r.rows,
      ReportCriteria.matches ⟨none, .running, some (now - settings.staleRunningTtlMs)⟩ row = false)
    (running : ℕ) : Reached settings { r with dispatches := [.done (.ok running)] } := by
  have hpolled := h.step (.poll hstopped)
  rw [hnone, List.nil_append] at hpolled
  have hupdate : ∀ changes, r.rows.update
      ⟨none, .running, some (now - settings.staleRunningTtlMs)⟩ changes = r.rows := by
    intro changes
    refine (List.map_congr_left fun row hrow => ?_).trans (List.map_id _)
    rw [hfresh row hrow]
    rfl
  have hzero : r.rows.countP
      (ReportCriteria.matches ⟨none, .running, some (now - settings.staleRunningTtlMs)⟩) = 0 :=
    List.countP_eq_zero.mpr fun row hrow => by simp [hfresh row hrow]
  have hrecovered := ((hpolled.answerDispatch rfl now rfl).answerDispatch rfl now rfl).answerDispatch
    rfl (Written.done 0)
    ⟨(hupdate _).symm, fun affected haffected => by cases haffected; exact hzero.symm⟩
  exact (hrecovered.answerDispatch rfl now rfl).answerDispatch rfl (Except.ok running) rfl

theorem Reached.answerWorker {r : Replica} (h : Reached settings r)
    (before after : List (ReportProgram Unit)) {op : ReportOp}
    {k : ReportAnswer op → ReportProgram Unit} (hworkers : r.workers = before ++ .call op k :: after)
    (a : ReportAnswer op) (rows : ReportTable) (ha : reportPerforms r.rows op a rows) :
    Reached settings { r with rows := rows, workers := before ++ k a :: after } :=
  h.step (.workerAnswered before after hworkers (.mk a ha))

/-- A dispatch has counted no running request, and one is pending. -/
theorem reached_counted :
    Reached slotSettings ⟨false, 0, [requested "1"], [.done (.ok 0)], []⟩ := by
  have hinitial : Reached slotSettings (initial [requested "1"]) := .initial _ (by simp)
  exact hinitial.counted rfl rfl 0 (by decide) 0

def claimed (id : String) : ReportDownloadRequest := { requested id with status := .running }

/-- Of two workers one has claimed the only request, and the other has found none and ended. -/
theorem reached_claimed : ∃ worker, Reached slotSettings ⟨false, 1, [claimed "1"], [], [worker]⟩ := by
  have hstarted : Reached slotSettings
      ⟨false, 2, [requested "1"], [], [ReportDownloadProcessor.processNext slotSettings,
        ReportDownloadProcessor.processNext slotSettings]⟩ :=
    reached_counted.step (.dispatched [] [] 0 rfl)
  have hoffered : FirstPending [requested "1"] (some (requested "1")) :=
    ⟨List.mem_singleton_self _, rfl, by simp⟩
  have hgone : FirstPending [claimed "1"] none := by simp [FirstPending, claimed]
  have hfound := hstarted.answerWorker [] _ rfl (Except.ok (some (requested "1"))) [requested "1"]
    ⟨rfl, fun found hfound => by cases hfound; exact hoffered⟩
  have hclaimed := (hfound.answerWorker [] _ rfl (0 : ℤ) [requested "1"] rfl).answerWorker [] _ rfl
    (Written.done 1) [claimed "1"] ⟨rfl, fun affected haffected => by cases haffected; rfl⟩
  have hlooked := hclaimed.answerWorker [_] [] rfl (Except.ok none) [claimed "1"]
    ⟨rfl, fun found hfound => by cases hfound; exact hgone⟩
  exact ⟨_, hlooked.step (.workerEnded [_] [] rfl)⟩

/-- A second request comes, and is counted beside the one that the worker makes. -/
theorem reached_recounted : ∃ worker, Reached slotSettings
    ⟨false, 1, [claimed "1", requested "2"], [.done (.ok 1)], [worker]⟩ := by
  obtain ⟨worker, hclaimed⟩ := reached_claimed
  have hrequested := hclaimed.step (.others [claimed "1", requested "2"] (by decide))
  have hfresh : ∀ row ∈ [claimed "1", requested "2"], ReportCriteria.matches
      ⟨none, .running, some (0 - slotSettings.staleRunningTtlMs)⟩ row = false := by decide
  exact ⟨worker, hrequested.counted rfl rfl 0 hfresh 1⟩

theorem dispatch_fills_slots_sample :
    Dispatched.FillsSlots slotSettings ⟨1, 0, 2⟩ := by
  exact (((dispatch_fills_slots_iff reached_counted).2.2 ⟨1, 0, 2⟩ _
    (.dispatched [] [] _ rfl)).2.2.1).mpr (.inr (.inr (.inl rfl)))

/-- One of two workers makes the only running request, another request is pending, and a dispatch
starts none. -/
theorem dispatch_leaves_slot : ∃ r r' : Replica, Reached slotSettings r ∧
    r.rows.countP (·.status = .running) = 1 ∧ r.workers.length = 1 ∧
      Step slotSettings r (some ⟨1, 1, 0⟩) r' ∧ slotSettings.maxConcurrent = 2 ∧
      ¬ Dispatched.FillsSlots slotSettings ⟨1, 1, 0⟩ := by
  obtain ⟨worker, h⟩ := reached_recounted
  refine ⟨_, _, h, rfl, rfl, .dispatched [] [] _ rfl, rfl, fun hfills => ?_⟩
  exact absurd (hfills (by decide) (by decide)) (by decide)

end Sample

end Replica
end Audit
