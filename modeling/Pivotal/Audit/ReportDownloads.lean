import Pivotal.Async.Pool
import Pivotal.Async.Write
import Pivotal.Js.Date

/-! The table of requested reports, and the workers that claim a request, make its file and mark it.
Of an error only its message is looked at. -/
namespace Audit
open Async
open Async.Program (perform lift)

inductive ReportDownloadStatus where
  | pending | running | ready | failed
  deriving DecidableEq

namespace ReportDownloadStatus

def isFinal : ReportDownloadStatus → Bool
  | .pending => false
  | .running => false
  | .ready => true
  | .failed => true

end ReportDownloadStatus

inductive ReportType where
  | transactionDetail
  deriving DecidableEq

structure ReportDownloadRequest where
  id : String
  reportType : ReportType
  paramsSignature : String
  status : ReportDownloadStatus
  fileType : String
  fileKey : Option String
  errorMessage : Option String
  requestedByUserId : Option String
  requestedByFspId : Option String
  finishedAt : Option Js.Date
  createdAt : Js.Date
  updatedAt : Js.Date
  deriving DecidableEq

structure CreatePendingInput where
  reportType : ReportType
  fileType : String
  params : List (String × String)
  requestedByUserId : Option String
  requestedByFspId : Option String

/-- The `where` of an update: the columns that are compared. -/
structure ReportCriteria where
  id : Option String
  status : ReportDownloadStatus
  updatedBefore : Option Js.Date
  deriving DecidableEq

def ReportCriteria.matches (criteria : ReportCriteria) (row : ReportDownloadRequest) : Bool :=
  criteria.id.all (· = row.id) && criteria.status = row.status &&
    criteria.updatedBefore.all (row.updatedAt < ·)

/-- The columns that an update sets; a column of which nothing is said stays. -/
structure ReportChanges where
  status : Option ReportDownloadStatus := none
  fileKey : Option String := none
  errorMessage : Option (Option String) := none
  finishedAt : Option Js.Date := none
  updatedAt : Js.Date
  deriving DecidableEq

def ReportChanges.apply (changes : ReportChanges) (row : ReportDownloadRequest) :
    ReportDownloadRequest :=
  { row with
    status := changes.status.getD row.status
    fileKey := changes.fileKey.or row.fileKey
    errorMessage := changes.errorMessage.getD row.errorMessage
    finishedAt := changes.finishedAt.or row.finishedAt
    updatedAt := changes.updatedAt }

abbrev ReportTable := List ReportDownloadRequest

def ReportTable.update (rows : ReportTable) (criteria : ReportCriteria) (changes : ReportChanges) :
    ReportTable :=
  rows.map fun row => if criteria.matches row then changes.apply row else row

structure GeneratedFile where
  bytes : List ℕ
  contentType : String
  extension : String

inductive ReportOp where
  | now
  | findFirstPending
  | update (criteria : ReportCriteria) (changes : ReportChanges)
  | countFreshRunning (staleBefore : Js.Date)
  | findParamsByRequestId (requestId : String)
  | generate (request : ReportDownloadRequest) (params : List (String × String))
  | upload (objectKey : String) (file : GeneratedFile)

@[reducible] def ReportAnswer : ReportOp → Type
  | .now => Js.Date
  | .findFirstPending => Except String (Option ReportDownloadRequest)
  | .update _ _ => Written String ℕ
  | .countFreshRunning _ => Except String ℕ
  | .findParamsByRequestId _ => Except String (List (String × String))
  | .generate _ _ => Except String GeneratedFile
  | .upload _ _ => Except String Unit

abbrev ReportProgram := Async.Program ReportOp ReportAnswer String

structure ReportDownloadSettings where
  maxConcurrent : ℕ
  staleRunningTtlMs : ℤ
  buildObjectKey : ReportType → String → Js.Date → String → String

namespace ReportDownloadRepository

def maxClaimAttempts : ℕ := 10

def maxErrorLength : ℕ := 1000

def trimError (message : String) : String := String.ofList (message.toList.take maxErrorLength)

/-- The row that `createPending` inserts. -/
def pendingRow (signature : ReportType → String → List (String × String) → String) (id : String)
    (input : CreatePendingInput) (now : Js.Date) : ReportDownloadRequest where
  id := id
  reportType := input.reportType
  paramsSignature := signature input.reportType input.fileType input.params
  status := .pending
  fileType := input.fileType
  fileKey := none
  errorMessage := none
  requestedByUserId := input.requestedByUserId
  requestedByFspId := input.requestedByFspId
  finishedAt := none
  createdAt := now
  updatedAt := now

/-- An update, and how many rows it has met. -/
def update (criteria : ReportCriteria) (changes : ReportChanges) : ReportProgram ℕ := do
  let answer ← perform (.update criteria changes)
  lift (Written.toExcept answer)

/-- The attempts that are left to claim the oldest pending request. -/
def claimAttempts : ℕ → ReportProgram (Option ReportDownloadRequest)
  | 0 => return none
  | attempts + 1 => do
    match ← lift (← perform .findFirstPending) with
    | none => return none
    | some request =>
      let now ← perform .now
      let affected ← update ⟨some request.id, .pending, none⟩
        { status := some .running, updatedAt := now }
      if affected = 1 then return some { request with status := .running, updatedAt := now }
      else claimAttempts attempts

def claimNextPending : ReportProgram (Option ReportDownloadRequest) := claimAttempts maxClaimAttempts

def touchRunning (requestId : String) : ReportProgram Bool := do
  let now ← perform .now
  let affected ← update ⟨some requestId, .running, none⟩ { updatedAt := now }
  return affected = 1

def markReady (requestId fileKey : String) : ReportProgram Bool := do
  let now ← perform .now
  let affected ← update ⟨some requestId, .running, none⟩
    { status := some .ready, fileKey := some fileKey, errorMessage := some none
      finishedAt := some now, updatedAt := now }
  return affected = 1

def markFailed (requestId errorMessage : String) : ReportProgram Bool := do
  let now ← perform .now
  let affected ← update ⟨some requestId, .running, none⟩
    { status := some .failed, errorMessage := some (some (trimError errorMessage))
      finishedAt := some now, updatedAt := now }
  return affected = 1

def failStaleRunning (staleBefore : Js.Date) : ReportProgram ℕ := do
  let now ← perform .now
  update ⟨none, .running, some staleBefore⟩
    { status := some .failed
      errorMessage := some (some "Auto-recovered stale RUNNING request after restart/error")
      finishedAt := some now, updatedAt := now }

end ReportDownloadRepository

namespace ReportDownloadProcessor
open ReportDownloadRepository

variable (settings : ReportDownloadSettings)

def recoverStaleRunning : ReportProgram Unit := do
  let now ← perform .now
  let _ ← failStaleRunning (now - settings.staleRunningTtlMs)

/-- How many workers `dispatch` starts beside those that are active. -/
def dispatch (activeWorkers : ℕ) : ReportProgram ℕ := do
  recoverStaleRunning settings
  let now ← perform .now
  let runningCount ← lift (← perform (.countFreshRunning (now - settings.staleRunningTtlMs)))
  return settings.maxConcurrent - runningCount - activeWorkers

def processRequest (request : ReportDownloadRequest) : ReportProgram Unit :=
  tryCatch (do
      let params ← lift (← perform (.findParamsByRequestId request.id))
      let generatedFile ← lift (← perform (.generate request params))
      let now ← perform .now
      let objectKey := settings.buildObjectKey request.reportType request.id now
        generatedFile.extension
      lift (← perform (.upload objectKey generatedFile))
      let _ ← markReady request.id objectKey)
    fun error => do
      let _ ← markFailed request.id error

def processNext : ReportProgram Unit := do
  match ← claimNextPending with
  | none => return ()
  | some request => processRequest settings request

end ReportDownloadProcessor

/-- The timers of a worker: a poll, the worker that it starts, and the heartbeat of a request. -/
inductive ReportJob where
  | dispatch (activeWorkers : ℕ)
  | processNext
  | touchRunning (requestId : String)

namespace ReportJob

def entry (settings : ReportDownloadSettings) : ReportJob → ReportProgram Unit
  | .dispatch activeWorkers => do
    let _ ← ReportDownloadProcessor.dispatch settings activeWorkers
  | .processNext => ReportDownloadProcessor.processNext settings
  | .touchRunning requestId => do
    let _ ← ReportDownloadRepository.touchRunning requestId

end ReportJob

/-- The oldest pending request, if there is one. -/
def FirstPending (rows : ReportTable) : Option ReportDownloadRequest → Prop
  | none => ∀ row ∈ rows, row.status ≠ .pending
  | some request => request ∈ rows ∧ request.status = .pending ∧
    ∀ row ∈ rows, row.status = .pending → request.createdAt ≤ row.createdAt

/-- What a call answers and leaves. A call that fails may have taken effect; the files and the
parameters are elsewhere. -/
def reportPerforms (rows : ReportTable) : (op : ReportOp) → ReportAnswer op → ReportTable → Prop
  | .findFirstPending, answer, rows' =>
    rows' = rows ∧ ∀ found, answer = .ok found → FirstPending rows found
  | .update criteria changes, answer, rows' =>
    rows' = answer.applies rows (rows.update criteria changes) ∧
      ∀ affected, answer = .done affected → affected = rows.countP criteria.matches
  | _, _, rows' => rows' = rows

/-- Any number of jobs over one table, into which requests come with new ids. -/
def reportSystem (settings : ReportDownloadSettings)
    (signature : ReportType → String → List (String × String) → String) :
    System ReportOp ReportAnswer String Unit ReportJob ReportTable where
  entry := ReportJob.entry settings
  perform := reportPerforms
  background rows rows' := ∃ id input now, (∀ row ∈ rows, row.id ≠ id) ∧
    rows' = rows ++ [ReportDownloadRepository.pendingRow signature id input now]

end Audit
