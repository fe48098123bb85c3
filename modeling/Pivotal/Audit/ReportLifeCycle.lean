import Mathlib.Data.List.Nodup
import Pivotal.Audit.ReportDownloads

/-! The life of a requested report. Every update is conditional on the status that it moves a row
from, so that a request is claimed once, and what is final stays. -/
namespace Audit
open Async
open Async.Program (Keeps Obeys)

/-- The updates that are issued, by a worker that has claimed the request or none. -/
inductive Issues : Option String → ReportCriteria → ReportChanges → Prop
  | claim (id : String) (now : Js.Date) :
      Issues none ⟨some id, .pending, none⟩ { status := some .running, updatedAt := now }
  | touch (claimed : Option String) (id : String) (now : Js.Date) :
      Issues claimed ⟨some id, .running, none⟩ { updatedAt := now }
  | ready (id fileKey : String) (now : Js.Date) :
      Issues (some id) ⟨some id, .running, none⟩
        { status := some .ready, fileKey := some fileKey, errorMessage := some none
          finishedAt := some now, updatedAt := now }
  | failed (id : String) (errorMessage : Option (Option String)) (now : Js.Date) :
      Issues (some id) ⟨some id, .running, none⟩
        { status := some .failed, errorMessage := errorMessage, finishedAt := some now
          updatedAt := now }
  | stale (claimed : Option String) (staleBefore : Js.Date) (errorMessage : Option (Option String))
      (now : Js.Date) :
      Issues claimed ⟨none, .running, some staleBefore⟩
        { status := some .failed, errorMessage := errorMessage, finishedAt := some now
          updatedAt := now }

/-- The request that a worker has claimed: an update from pending that met one row. -/
def nextClaimed (claimed : Option String) : (op : ReportOp) → ReportAnswer op → Option String
  | .update ⟨some id, .pending, _⟩ _, .done 1 => some id
  | _, _ => claimed

def allowsUpdate (claimed : Option String) : ReportOp → Prop
  | .update criteria changes => Issues claimed criteria changes
  | _ => True

theorem nextClaimed_of_running {claimed : Option String} {criteria : ReportCriteria}
    (h : criteria.status = .running) (changes : ReportChanges) (answer : Written String ℕ) :
    nextClaimed claimed (.update criteria changes) answer = claimed := by
  obtain ⟨id, status, updatedBefore⟩ := criteria
  cases h
  cases id <;> cases answer <;> rfl

theorem nextClaimed_of_done {claimed : Option String} {id : String} {changes : ReportChanges}
    {affected : ℕ} (h : affected ≠ 1) :
    nextClaimed claimed (.update ⟨some id, .pending, none⟩ changes) (.done affected) = claimed := by
  unfold nextClaimed
  split
  · rename_i heq
    exact absurd heq (by simpa using h)
  · rfl

def worker : Monitor ReportOp ReportAnswer (Option String) := ⟨nextClaimed, allowsUpdate⟩

section Programs

variable {claimed : Option String} {R : Option String → Prop}

theorem worker_keeps_quiet {op : ReportOp} (hop : ∀ criteria changes, op ≠ .update criteria changes) :
    (Program.perform op : ReportProgram _).Keeps worker R := by
  apply Program.keeps_perform
  intro s hs
  cases op with
  | update criteria changes => exact absurd rfl (hop criteria changes)
  | _ => exact ⟨trivial, fun _ => hs⟩

theorem worker_keeps_now {α : Type} {f : Js.Date → ReportProgram α}
    (hf : ∀ now, (f now).Keeps worker R) : (Program.perform .now >>= f).Keeps worker R :=
  (worker_keeps_quiet (by simp)).bind hf

theorem worker_keeps_update {criteria : ReportCriteria} {changes : ReportChanges}
    (hstatus : criteria.status = .running) (h : ∀ s, R s → Issues s criteria changes) :
    (ReportDownloadRepository.update criteria changes).Keeps worker R := by
  apply Keeps.bind
  · apply Program.keeps_perform
    intro s hs
    constructor
    · exact h s hs
    · intro answer
      change R (nextClaimed s (.update criteria changes) answer)
      rwa [nextClaimed_of_running hstatus]
  · intro answer
    exact Program.keeps_lift _

theorem touchRunning_keeps (requestId : String) :
    (ReportDownloadRepository.touchRunning requestId).Keeps worker R := by
  apply worker_keeps_now
  intro now
  apply Keeps.bind
  · exact worker_keeps_update rfl fun s _ => .touch s requestId now
  · intro affected
    exact Program.keeps_pure _

theorem failStaleRunning_keeps (staleBefore : Js.Date) :
    (ReportDownloadRepository.failStaleRunning staleBefore).Keeps worker R := by
  apply worker_keeps_now
  intro now
  exact worker_keeps_update rfl fun s _ => .stale s staleBefore _ now

theorem dispatch_keeps (settings : ReportDownloadSettings) (activeWorkers : ℕ) :
    (ReportDownloadProcessor.dispatch settings activeWorkers).Keeps worker R := by
  apply Keeps.bind
  · apply worker_keeps_now
    intro now
    exact (failStaleRunning_keeps _).bind fun _ => Program.keeps_pure _
  · intro _
    apply worker_keeps_now
    intro now
    apply Keeps.bind (worker_keeps_quiet (by simp))
    intro answer
    exact (Program.keeps_lift _).bind fun _ => Program.keeps_pure _

theorem markReady_keeps (id fileKey : String) :
    (ReportDownloadRepository.markReady id fileKey).Keeps worker (· = some id) := by
  apply worker_keeps_now
  intro now
  apply Keeps.bind
  · apply worker_keeps_update rfl
    rintro _ rfl
    exact .ready id fileKey now
  · intro affected
    exact Program.keeps_pure _

theorem markFailed_keeps (id errorMessage : String) :
    (ReportDownloadRepository.markFailed id errorMessage).Keeps worker (· = some id) := by
  apply worker_keeps_now
  intro now
  apply Keeps.bind
  · apply worker_keeps_update rfl
    rintro _ rfl
    exact .failed id _ now
  · intro affected
    exact Program.keeps_pure _

theorem processRequest_keeps (settings : ReportDownloadSettings) (request : ReportDownloadRequest) :
    (ReportDownloadProcessor.processRequest settings request).Keeps worker (· = some request.id) := by
  apply Keeps.tryCatch
  · apply Keeps.bind (worker_keeps_quiet (by simp))
    intro answer
    apply (Program.keeps_lift _).bind
    intro params
    apply Keeps.bind (worker_keeps_quiet (by simp))
    intro answer
    apply (Program.keeps_lift _).bind
    intro generatedFile
    apply worker_keeps_now
    intro now
    apply Keeps.bind (worker_keeps_quiet (by simp))
    intro answer
    apply (Program.keeps_lift _).bind
    intro _
    exact (markReady_keeps _ _).bind fun _ => Program.keeps_pure _
  · intro error
    exact (markFailed_keeps _ _).bind fun _ => Program.keeps_pure _

theorem claimAttempts_obeys {α : Type} {f : Option ReportDownloadRequest → ReportProgram α}
    (hnone : (f none).Obeys worker none fun _ _ => True)
    (hsome : ∀ request, (f (some request)).Obeys worker (some request.id) fun _ _ => True)
    (attempts : ℕ) :
    (ReportDownloadRepository.claimAttempts attempts >>= f).Obeys worker none fun _ _ => True := by
  induction attempts with
  | zero => exact hnone
  | succ attempts ih =>
    refine ⟨trivial, ?_⟩
    rintro (message | found)
    · trivial
    · cases found with
      | none => exact hnone
      | some request =>
        refine ⟨trivial, ?_⟩
        intro now
        refine ⟨.claim request.id now, ?_⟩
        rintro (affected | message | message)
        · by_cases haffected : affected = 1
          · subst haffected
            exact hsome _
          · change ((if affected = 1 then _ else _) >>= f).Obeys worker (nextClaimed none
              (.update ⟨some request.id, .pending, none⟩ _) (.done affected)) _
            rw [nextClaimed_of_done haffected, if_neg haffected]
            exact ih
        · trivial
        · trivial

theorem entry_obeys (settings : ReportDownloadSettings) (job : ReportJob) :
    (job.entry settings).Obeys worker none fun _ _ => True := by
  cases job with
  | dispatch activeWorkers =>
    have hkeeps := (dispatch_keeps (R := (· = none)) settings activeWorkers).bind
      fun _ => Program.keeps_pure ()
    exact (hkeeps none rfl).mono fun _ _ _ => trivial
  | touchRunning requestId =>
    have hkeeps := (touchRunning_keeps (R := (· = none)) requestId).bind
      fun _ => Program.keeps_pure ()
    exact (hkeeps none rfl).mono fun _ _ _ => trivial
  | processNext =>
    apply claimAttempts_obeys
    · trivial
    · intro request
      exact (processRequest_keeps settings request _ rfl).mono fun _ _ _ => trivial

end Programs

/-- What the columns of a row say of each other. -/
structure ReportDownloadRequest.Sound (row : ReportDownloadRequest) : Prop where
  ready_iff : row.status = .ready ↔ row.fileKey.isSome = true
  finished_iff : row.finishedAt.isSome = true ↔ row.status = .ready ∨ row.status = .failed

section Rows

variable {rows : ReportTable} {row : ReportDownloadRequest} {criteria : ReportCriteria}
  {changes : ReportChanges} {claimed : Option String}

theorem ReportCriteria.status_of_matches (h : criteria.matches row = true) :
    row.status = criteria.status := by
  simp only [ReportCriteria.matches, Bool.and_eq_true, decide_eq_true_eq] at h
  exact h.1.2.symm

theorem ReportCriteria.id_of_matches {id : String} {status : ReportDownloadStatus}
    {updatedBefore : Option Js.Date} (h : ReportCriteria.matches ⟨some id, status, updatedBefore⟩ row = true) :
    row.id = id := by
  simp only [ReportCriteria.matches, Bool.and_eq_true, Option.all_some, decide_eq_true_eq] at h
  exact h.1.1.symm

/-- An update moves rows that are not final, to a status that is not pending. -/
theorem Issues.statuses (h : Issues claimed criteria changes) :
    criteria.status.isFinal = false ∧ changes.status ≠ some .pending ∧
      (changes.status = none → criteria.status = .running) := by
  cases h <;> simp [ReportDownloadStatus.isFinal]

theorem Issues.sound (h : Issues claimed criteria changes) (hmatches : criteria.matches row = true)
    (hrow : row.Sound) : (changes.apply row).Sound := by
  have hstatus := ReportCriteria.status_of_matches hmatches
  obtain ⟨hready, hfinished⟩ := hrow
  have hkey : row.fileKey = none := by
    rw [← Option.not_isSome_iff_eq_none, ← hready, hstatus]
    cases h <;> simp
  have hopen : row.finishedAt = none := by
    rw [← Option.not_isSome_iff_eq_none, hfinished, hstatus]
    cases h <;> simp
  cases h <;> constructor <;> simp [ReportChanges.apply, hstatus, hkey, hopen]

theorem ReportTable.ids_update (rows : ReportTable) (criteria : ReportCriteria)
    (changes : ReportChanges) : (rows.update criteria changes).map (·.id) = rows.map (·.id) := by
  simp only [ReportTable.update, List.map_map]
  apply List.map_congr_left
  intro row _
  simp only [Function.comp_apply]
  split_ifs <;> rfl

theorem ReportTable.mem_update_iff : row ∈ rows.update criteria changes ↔
    ∃ old ∈ rows, row = if criteria.matches old then changes.apply old else old := by
  rw [ReportTable.update, List.mem_map]
  constructor
  · rintro ⟨old, hold, rfl⟩
    exact ⟨old, hold, rfl⟩
  · rintro ⟨old, hold, rfl⟩
    exact ⟨old, hold, rfl⟩

theorem Issues.sound_update (h : Issues claimed criteria changes) (hrows : ∀ row ∈ rows, row.Sound) :
    ∀ row ∈ rows.update criteria changes, row.Sound := by
  intro row hrow
  obtain ⟨old, hold, rfl⟩ := ReportTable.mem_update_iff.mp hrow
  split_ifs with hmatches
  · exact h.sound hmatches (hrows old hold)
  · exact hrows old hold

/-- A row that has left the pending state stays out of it. -/
theorem Issues.claimed_update (h : Issues claimed criteria changes) {id : String}
    (hrows : ∃ row ∈ rows, row.id = id ∧ row.status ≠ .pending) :
    ∃ row ∈ rows.update criteria changes, row.id = id ∧ row.status ≠ .pending := by
  obtain ⟨row, hrow, hid, hstatus⟩ := hrows
  refine ⟨_, ReportTable.mem_update_iff.mpr ⟨row, hrow, rfl⟩, ?_⟩
  split_ifs with hmatches
  · refine ⟨hid, ?_⟩
    have hchanges := h.statuses.2.1
    cases hset : changes.status with
    | none => simpa [ReportChanges.apply, hset] using hstatus
    | some status =>
      rw [hset] at hchanges
      simpa [ReportChanges.apply, hset] using hchanges
  · exact ⟨hid, hstatus⟩

/-- A final row is met by no update. -/
theorem Issues.final_update (h : Issues claimed criteria changes) (hrow : row ∈ rows)
    (hfinal : row.status.isFinal = true) : row ∈ rows.update criteria changes := by
  apply ReportTable.mem_update_iff.mpr
  refine ⟨row, hrow, ?_⟩
  rw [if_neg]
  intro hmatches
  have hopen := h.statuses.1
  rw [← ReportCriteria.status_of_matches hmatches, hfinal] at hopen
  cases hopen

theorem ReportTable.eq_of_id (h : (rows.map (·.id)).Nodup) {row' : ReportDownloadRequest}
    (hrow : row ∈ rows) (hrow' : row' ∈ rows) (hid : row'.id = row.id) : row' = row :=
  List.inj_on_of_nodup_map h hrow' hrow hid

end Rows

section Pool

variable {ι : Type}

/-- The table, and what the workers have claimed of it. -/
structure Tracked (rows : ReportTable) (f : ι → Option (Option String)) : Prop where
  distinct : (rows.map (·.id)).Nodup
  sound : ∀ row ∈ rows, row.Sound
  claimed : ∀ i id, f i = some (some id) → ∃ row ∈ rows, row.id = id ∧ row.status ≠ .pending
  alone : ∀ i j id, f i = some (some id) → f j = some (some id) → i = j

variable {rows rows' : ReportTable} {f : ι → Option (Option String)}

theorem tracked_nil : Tracked [] (fun _ : ι => none) := by
  constructor
  · exact List.nodup_nil
  · intro row hrow
    cases hrow
  · intro i id hi
    cases hi
  · intro i j id hi
    cases hi

theorem Tracked.append (h : Tracked rows f) {row : ReportDownloadRequest}
    (hid : ∀ old ∈ rows, old.id ≠ row.id) (hrow : row.Sound) : Tracked (rows ++ [row]) f := by
  constructor
  · rw [List.map_append, List.nodup_append]
    refine ⟨h.distinct, by simp, ?_⟩
    intro a ha b hb
    obtain ⟨old, hold, rfl⟩ := List.mem_map.mp ha
    obtain rfl : b = row.id := by simpa using hb
    exact hid old hold
  · intro old hold
    rcases List.mem_append.mp hold with hold | hold
    · exact h.sound old hold
    · rw [List.mem_singleton.mp hold]
      exact hrow
  · intro i id hi
    obtain ⟨old, hold, hstatus⟩ := h.claimed i id hi
    exact ⟨old, List.mem_append_left _ hold, hstatus⟩
  · exact h.alone

theorem Tracked.update (h : Tracked rows f) {claimed : Option String} {criteria : ReportCriteria}
    {changes : ReportChanges} (hissues : Issues claimed criteria changes) :
    Tracked (rows.update criteria changes) f := by
  constructor
  · rw [ReportTable.ids_update]
    exact h.distinct
  · exact hissues.sound_update h.sound
  · intro i id hi
    exact hissues.claimed_update (h.claimed i id hi)
  · exact h.alone

variable [DecidableEq ι]

theorem Tracked.record (h : Tracked rows f) {i : ι} {x : Option (Option String)}
    (hx : ∀ id, x = some (some id) → (∃ row ∈ rows, row.id = id ∧ row.status ≠ .pending) ∧
      ∀ j, j ≠ i → f j ≠ some (some id)) : Tracked rows (Function.update f i x) := by
  constructor
  · exact h.distinct
  · exact h.sound
  · intro j id hj
    by_cases hji : j = i
    · subst hji
      rw [Function.update_self] at hj
      exact (hx id hj).1
    · rw [Function.update_of_ne hji] at hj
      exact h.claimed j id hj
  · intro j k id hj hk
    by_cases hji : j = i
    · by_cases hki : k = i
      · rw [hji, hki]
      · subst hji
        rw [Function.update_self] at hj
        rw [Function.update_of_ne hki] at hk
        exact absurd hk ((hx id hj).2 k hki)
    · rw [Function.update_of_ne hji] at hj
      by_cases hki : k = i
      · subst hki
        rw [Function.update_self] at hk
        exact absurd hj ((hx id hk).2 j hji)
      · rw [Function.update_of_ne hki] at hk
        exact h.alone j k id hj hk

theorem Tracked.same (h : Tracked rows f) {i : ι} {claimed : Option String} (hi : f i = some claimed) :
    Tracked rows (Function.update f i (some claimed)) := by
  rwa [← hi, Function.update_eq_self]

/-- A claim that met a row: nobody else has claimed it, for the row was pending. -/
theorem Tracked.claim (h : Tracked rows f) {i : ι} {id : String} {changes : ReportChanges}
    (hissues : Issues none ⟨some id, .pending, none⟩ changes) (hset : changes.status = some .running)
    (hmet : rows.countP (ReportCriteria.matches ⟨some id, .pending, none⟩) = 1) :
    Tracked (rows.update ⟨some id, .pending, none⟩ changes)
      (Function.update f i (some (some id))) := by
  have hpos : 0 < rows.countP (ReportCriteria.matches ⟨some id, .pending, none⟩) := by
    omega
  obtain ⟨row, hrow, hmatches⟩ := List.countP_pos_iff.mp hpos
  have hid := ReportCriteria.id_of_matches hmatches
  have hpending := ReportCriteria.status_of_matches hmatches
  apply (h.update hissues).record
  intro other hother
  obtain rfl : id = other := by simpa using hother
  constructor
  · refine ⟨_, ReportTable.mem_update_iff.mpr ⟨row, hrow, rfl⟩, ?_⟩
    rw [if_pos hmatches]
    exact ⟨hid, by simp [ReportChanges.apply, hset]⟩
  · intro j _ hj
    obtain ⟨old, hold, hidOld, hstatus⟩ := h.claimed j id hj
    have hsame := ReportTable.eq_of_id h.distinct hrow hold (hidOld.trans hid.symm)
    rw [hsame] at hstatus
    exact hstatus hpending

theorem sound_pendingRow (signature : ReportType → String → List (String × String) → String)
    (id : String) (input : CreatePendingInput) (now : Js.Date) :
    (ReportDownloadRepository.pendingRow signature id input now).Sound := by
  constructor <;> simp [ReportDownloadRepository.pendingRow]

variable {settings : ReportDownloadSettings}
  {signature : ReportType → String → List (String × String) → String}

/-- What one call does to the table and to what its worker has claimed. -/
theorem Tracked.call (h : Tracked rows f) {i : ι} {claimed : Option String} {op : ReportOp}
    {answer : ReportAnswer op} (hi : f i = some claimed) (hallows : worker.allows claimed op)
    (hperforms : reportPerforms rows op answer rows') :
    Tracked rows' (Function.update f i (some (worker.next claimed op answer))) := by
  cases op with
  | update criteria changes =>
    obtain ⟨rfl, hcount⟩ := hperforms
    have hissues : Issues claimed criteria changes := hallows
    by_cases hclaim : ∃ id, criteria = ⟨some id, .pending, none⟩ ∧ answer = .done 1
    · obtain ⟨id, rfl, rfl⟩ := hclaim
      cases hissues with
      | claim id now =>
        exact h.claim (.claim id now) rfl (hcount 1 rfl).symm
    · have hnext : nextClaimed claimed (.update criteria changes) answer = claimed := by
        cases hissues with
        | claim id now =>
          cases answer with
          | done affected =>
            apply nextClaimed_of_done
            rintro rfl
            exact hclaim ⟨id, rfl, rfl⟩
          | lost message => rfl
          | rejected message => rfl
        | touch | ready | failed => exact nextClaimed_of_running rfl _ _
        | stale => exact nextClaimed_of_running rfl _ _
      change Tracked _ (Function.update f i (some (nextClaimed claimed (.update criteria changes) answer)))
      rw [hnext]
      rcases answer.applies_cases rows (rows.update criteria changes) with heq | ⟨-, heq⟩
      · rw [heq]
        exact (h.update hissues).same hi
      · rw [heq]
        exact h.same hi
  | findFirstPending =>
    obtain ⟨rfl, -⟩ := hperforms
    exact h.same hi
  | now | countFreshRunning | findParamsByRequestId | generate | upload =>
    obtain rfl : rows' = rows := hperforms
    exact h.same hi

theorem Tracked.move {l : Label ι ReportOp ReportAnswer ReportJob}
    {f' : ι → Option (Option String)} (h : Tracked rows f)
    (hmove : (reportSystem settings signature).Move worker (fun _ => none) rows f l rows' f') :
    Tracked rows' f' := by
  cases hmove with
  | start job hi =>
    apply h.record
    intro id hid
    cases hid
  | call hi hallows hperforms => exact h.call hi hallows hperforms
  | crash hi hallows =>
    apply h.record
    intro id hid
    cases hid
  | background hb =>
    obtain ⟨id, input, now, hid, rfl⟩ := hb
    exact h.append hid (sound_pendingRow signature id input now)

/-- The worker has claimed the request, by an update that met it pending. -/
def Owns (c : Config ι ReportOp ReportAnswer String Unit ReportJob ReportTable) (i : ι) (id : String) :
    Prop := ∃ p, c.process i = some p ∧ worker.after none p.trace = some id

/-- At most one worker owns a request, and marks it; what is ready has a file, and what is
finished has a time. -/
structure LifeCycle (c : Config ι ReportOp ReportAnswer String Unit ReportJob ReportTable) :
    Prop where
  one_owner : ∀ i j id, Owns c i id → Owns c j id → i = j
  owner_marks : ∀ i job t id updatedBefore changes resume,
    c.process i = some ⟨job, t, .call (.update ⟨some id, .running, updatedBefore⟩ changes) resume⟩ →
    changes.status.isSome = true → Owns c i id
  ready_iff : ∀ row ∈ c.shared, row.status = .ready ↔ row.fileKey.isSome = true
  finished_iff : ∀ row ∈ c.shared, row.finishedAt.isSome = true ↔
    row.status = .ready ∨ row.status = .failed

variable {c c' : Config ι ReportOp ReportAnswer String Unit ReportJob ReportTable}

theorem tracked_of_reaches (h : (reportSystem settings signature).Reaches System.Any (.initial []) c) :
    Tracked c.shared (c.records worker fun _ => none) := by
  apply h.records_invariant (fun _ _ _ => True) Tracked (entry_obeys settings) tracked_nil
  intro rows f l rows' f' htracked _ hmove
  exact htracked.move hmove

theorem final_of_move {l : Label ι ReportOp ReportAnswer ReportJob}
    {f' : ι → Option (Option String)} {row : ReportDownloadRequest}
    (hmove : (reportSystem settings signature).Move worker (fun _ => none) rows f l rows' f')
    (hrow : row ∈ rows) (hfinal : row.status.isFinal = true) : row ∈ rows' := by
  cases hmove with
  | start job hi => exact hrow
  | @call _ _ _ _ op answer hi hallows hperforms =>
    cases op with
    | update criteria changes =>
      obtain ⟨rfl, -⟩ := hperforms
      rcases answer.applies_cases rows (rows.update criteria changes) with heq | ⟨-, heq⟩
      · rw [heq]
        exact Issues.final_update hallows hrow hfinal
      · rwa [heq]
    | findFirstPending =>
      obtain ⟨rfl, -⟩ := hperforms
      exact hrow
    | now | countFreshRunning | findParamsByRequestId | generate | upload =>
      obtain rfl : rows' = rows := hperforms
      exact hrow
  | crash hi hallows => exact hrow
  | background hb =>
    obtain ⟨id, input, now, -, rfl⟩ := hb
    exact List.mem_append_left _ hrow

theorem final_of_reaches (h : (reportSystem settings signature).Reaches System.Any (.initial []) c)
    (h' : (reportSystem settings signature).Reaches System.Any c c') {row : ReportDownloadRequest}
    (hrow : row ∈ c.shared) (hfinal : row.status.isFinal = true) : row ∈ c'.shared := by
  apply h'.invariant (P := fun c' => row ∈ c'.shared) hrow
  intro before after l hreaches hmem _ hstep
  exact final_of_move ((h.trans hreaches).move (entry_obeys settings) hstep) hmem hfinal

theorem Issues.owner {claimed : Option String} {id : String} {updatedBefore : Option Js.Date}
    {changes : ReportChanges} (h : Issues claimed ⟨some id, .running, updatedBefore⟩ changes)
    (hstatus : changes.status.isSome = true) : claimed = some id := by
  cases h with
  | touch => cases hstatus
  | ready => rfl
  | failed => rfl

/-- The life cycle of a requested report, for any number of workers and any schedule: it holds
whatever has been done, and what is ready or failed then stays so, whatever is done after. -/
theorem report_life_cycle (settings : ReportDownloadSettings)
    (signature : ReportType → String → List (String × String) → String)
    (h : (reportSystem settings signature).Reaches System.Any (.initial []) c)
    (h' : (reportSystem settings signature).Reaches System.Any c c') :
    LifeCycle c ∧ ∀ row ∈ c.shared, row.status.isFinal = true →
      row ∈ c'.shared ∧ ∀ row' ∈ c'.shared, row'.id = row.id → row' = row := by
  have htracked := tracked_of_reaches h
  have hrecord : ∀ {i p}, c.process i = some p →
      c.records worker (fun _ => none) i = some (worker.after none p.trace) :=
    fun hi => Config.records_eq hi
  constructor
  · constructor
    · rintro i j id ⟨p, hp, hclaimed⟩ ⟨q, hq, hclaimed'⟩
      apply htracked.alone i j id
      · rw [hrecord hp, hclaimed]
      · rw [hrecord hq, hclaimed']
    · intro i job t id updatedBefore changes resume hi hstatus
      refine ⟨_, hi, ?_⟩
      have hallows : Issues (worker.after none t) ⟨some id, .running, updatedBefore⟩ changes :=
        h.allows (entry_obeys settings) hi
      exact hallows.owner hstatus
    · exact fun row hrow => (htracked.sound row hrow).ready_iff
    · exact fun row hrow => (htracked.sound row hrow).finished_iff
  · intro row hrow hfinal
    have hstays := final_of_reaches h h' hrow hfinal
    refine ⟨hstays, ?_⟩
    intro row' hrow' hid
    exact ReportTable.eq_of_id (tracked_of_reaches (h.trans h')).distinct hstays hrow' hid

section Sample

/-- A table that answers as it should. -/
def sampleAnswer (rows : ReportTable) : (op : ReportOp) → ReportAnswer op × ReportTable
  | .now => (0, rows)
  | .findFirstPending =>
    match rows with
    | [row] => if row.status = .pending then (.ok (some row), rows) else (.ok none, rows)
    | _ => (.error "busy", rows)
  | .update criteria changes =>
    (.done (rows.countP criteria.matches), rows.update criteria changes)
  | .countFreshRunning _ => (.ok 0, rows)
  | .findParamsByRequestId _ => (.ok [], rows)
  | .generate _ _ => (.ok ⟨[], "text/csv", "csv"⟩, rows)
  | .upload _ _ => (.ok (), rows)

theorem performs_sampleAnswer (rows : ReportTable) (op : ReportOp) :
    reportPerforms rows op (sampleAnswer rows op).1 (sampleAnswer rows op).2 := by
  cases op with
  | findFirstPending =>
    simp only [sampleAnswer]
    split
    · rename_i row
      split_ifs with hstatus <;> simp [reportPerforms, FirstPending, hstatus]
    · simp [reportPerforms]
  | _ => simp [sampleAnswer, reportPerforms]

def sampleReportSettings : ReportDownloadSettings where
  maxConcurrent := 3
  staleRunningTtlMs := 1200000
  buildObjectKey _ requestId _ extension := "reports/" ++ requestId ++ "." ++ extension

/-- A request is made, claimed and finished. -/
theorem report_life_cycle_sample :
    ∃ c : Config ℕ ReportOp ReportAnswer String Unit ReportJob ReportTable,
      LifeCycle c ∧ c.shared.map (·.status) = [.ready] := by
  let S := reportSystem sampleReportSettings fun _ _ _ => "signature"
  let row := ReportDownloadRepository.pendingRow (fun _ _ _ => "signature") "1"
    ⟨.transactionDetail, "csv", [], none, none⟩ 0
  have hrequest : S.Reaches System.Any (.initial [])
      ((Config.initial [] : Config ℕ ReportOp ReportAnswer String Unit ReportJob
        ReportTable).withShared [row]) :=
    .tail .refl trivial (.background ⟨"1", _, 0, List.forall_mem_nil _, rfl⟩)
  have hstart := hrequest.tail (l := .start 0 .processNext) trivial (.start ReportJob.processNext rfl)
  have hdone := System.Reaches.advance hstart performs_sampleAnswer 0 20
  refine ⟨_, (report_life_cycle _ _ hdone .refl).1, ?_⟩
  decide +kernel

end Sample

end Pool
end Audit
