import Pivotal.Audit.LiveClassifier
import Mathlib.Algebra.BigOperators.Group.Finset.Basic

/-! The live counters: hashes of measures by day and scope, and for each transaction a marker of
what it was last counted for. Both expire. -/
namespace Audit

/-- The hash of a day and a scope. -/
structure Counter where
  vector : LiveVector
  expiresAt : Js.Date

/-- What was last counted for a transaction, and when its row was changed then. -/
structure Marker where
  vector : LiveVector
  rank : Js.Date
  expiresAt : Js.Date

/-- The keys of the two kinds differ in what follows the prefix. -/
structure LiveStatsStore where
  counters : ℤ × Scope → Option Counter
  markers : String → Option Marker

namespace LiveStatsStore

def counterTtl : ℤ := 48 * 60 * 60 * 1000

def markerTtl : ℤ := 60 * 60 * 1000

/-- The UTC day of a time. -/
def dateKey (date : Js.Date) : ℤ := date / (24 * 60 * 60 * 1000)

def empty : LiveStatsStore := ⟨fun _ => none, fun _ => none⟩

def liveFields : List LiveField :=
  [.txn, .success, .error, .dispute, .partiesError, .quotesError, .transfersError, .patchError,
    .latencyCount, .sumLatencyMs]

def isZero (vector : LiveVector) : Bool := liveFields.all fun field => vector field = 0

/-- `HINCRBY` of every field that changes, and `EXPIRE`, which is of no effect without the key. -/
def increment (now : Js.Date) (counter : Option Counter) (d : LiveVector) : Option Counter :=
  let alive := counter.filter fun c => now < c.expiresAt
  if isZero d then alive.map fun c => { c with expiresAt := now + counterTtl }
  else some ⟨(alive.map Counter.vector).getD 0 + d, now + counterTtl⟩

/-- One key after the other. -/
def incrementAll (counters : ℤ × Scope → Option Counter) (now : Js.Date) (dateKey : ℤ)
    (scopes : List Scope) (d : LiveVector) : ℤ × Scope → Option Counter :=
  scopes.foldl (fun counters scope => Function.update counters (dateKey, scope)
    (increment now (counters (dateKey, scope)) d)) counters

/-- `APPLY_EVENT_LUA` -/
def applyEvent (store : LiveStatsStore) (now : Js.Date) (correlationId : String) (dateKey : ℤ)
    (scopes : List Scope) (next : LiveVector) (rank : Js.Date) : LiveStatsStore :=
  let prev := (store.markers correlationId).filter fun m => now < m.expiresAt
  if scopes = [] ∨ prev.any (fun m => rank < m.rank) then store
  else
    let d := next - (prev.map Marker.vector).getD 0
    { counters := incrementAll store.counters now dateKey scopes d
      markers := Function.update store.markers correlationId
        (some ⟨next, rank, now + markerTtl⟩) }

def reseedScope (store : LiveStatsStore) (now : Js.Date) (dateKey : ℤ) (scope : Scope)
    (totals : LiveVector) : LiveStatsStore :=
  let counter : Counter := ⟨totals, now + counterTtl⟩
  { store with counters := Function.update store.counters (dateKey, scope) (some counter) }

/-- The counters of an absent hash are zero. -/
def readScope (store : LiveStatsStore) (now : Js.Date) (dateKey : ℤ) (scope : Scope) : LiveVector :=
  (((store.counters (dateKey, scope)).filter fun c => now < c.expiresAt).map Counter.vector).getD 0

end LiveStatsStore

namespace LiveStatsWriter

/-- A row that is not found is left to the reconciliation. -/
def onTransactionEvent (store : LiveStatsStore) (now : Js.Date) (correlationId : String)
    (record : Option LiveClassificationRecord) : LiveStatsStore :=
  match record with
  | none => store
  | some record => store.applyEvent now correlationId (LiveStatsStore.dateKey record.startedAt)
      (scopesFor record.payerFsp record.payeeFsp) (classify record.toLiveClassificationRow)
      record.updatedAt

end LiveStatsWriter
end Audit
