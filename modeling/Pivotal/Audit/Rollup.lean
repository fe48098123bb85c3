import Pivotal.Audit.LiveClassifier
import Pivotal.Store.Group
import Pivotal.Store.Table

/-! `transaction_hourly_rollup`: the aggregate of the transactions of an hour, and the totals that
are read of it. -/
namespace Audit
open Fspiop Store

namespace TransactionRollupRepository

def msPerHour : ℤ := 3600000

/-- `DATE_FORMAT(…, '%Y-%m-%d %H:00:00')` -/
def bucketHour (date : Js.Date) : Js.Date := date / msPerHour * msPerHour

/-- The columns of the primary key. -/
structure BucketKey where
  bucketHour : Js.Date
  payerFsp : String
  payeeFsp : String
  currency : Currency
  subScenario : String
  deriving DecidableEq

structure RollupRow (ν : Type) extends BucketKey where
  txnCount : ℤ
  errorCount : ℤ
  disputeCount : ℤ
  partiesErrorCount : ℤ
  quotesErrorCount : ℤ
  transfersErrorCount : ℤ
  patchErrorCount : ℤ
  committedAmount : ν
  committedCount : ℤ
  latencyCount : ℤ
  sumLatencyMs : Option ℤ
  deriving DecidableEq

variable {J ν : Type} (collate : String → String)

/-- Two keys are one to the index if their texts collate alike. -/
def BucketKey.collated (k : BucketKey) : BucketKey :=
  ⟨k.bucketHour, collate k.payerFsp, collate k.payeeFsp, collate k.currency, collate k.subScenario⟩

abbrev RollupTable (ν : Type) : Type :=
  Table fun r : RollupRow ν => r.toBucketKey.collated collate

/-- `COALESCE(transfer_currency, quoting_currency, 'XXX')` -/
def currency (t : Transaction J ν) : Currency :=
  (coalesce t.transferCurrency t.quotingCurrency).getD "XXX"

/-- `COALESCE(NULLIF(sub_scenario, ''), 'UNSPECIFIED')` -/
def subScenario (t : Transaction J ν) : String :=
  (t.subScenario.filter fun s => collate s ≠ collate "").getD "UNSPECIFIED"

def bucketKey (t : Transaction J ν) : BucketKey where
  bucketHour := bucketHour t.transactionStartedAt
  payerFsp := t.payer.fsp
  payeeFsp := t.payee.fsp
  currency := currency t
  subScenario := subScenario collate t

/-- What the rows are grouped by. A name in `GROUP BY` is a column's before it is an alias: the
sub-scenario is that of the row, and not that of its bucket. -/
def groupKey (t : Transaction J ν) : Js.Date × String × String × String × Option String :=
  (bucketHour t.transactionStartedAt, collate t.payer.fsp, collate t.payee.fsp,
    collate (currency t), t.subScenario.map collate)

/-- `COUNT` of the rows of which it is true, or `SUM` of it. -/
def countOf (p : Transaction J ν → Bool) (rows : List (Transaction J ν)) : ℤ :=
  (rows.map fun t => if p t then 1 else 0).sum

/-- `SUM`, which is `NULL` of no value. -/
def sumOf (xs : List (Option ℤ)) : Option ℤ :=
  if xs.any Option.isSome then some (xs.map fun x => x.getD 0).sum else none

/-- The value has moved. -/
def isCommitted (t : Transaction J ν) : Bool :=
  t.transferState = some .committed || t.possibleDispute

def startsWithin (windowStart windowEnd : Js.Date) (t : Transaction J ν) : Bool :=
  windowStart ≤ t.transactionStartedAt && t.transactionStartedAt < windowEnd

theorem startsWithin_iff {windowStart windowEnd : Js.Date} {t : Transaction J ν} :
    startsWithin windowStart windowEnd t = true ↔
      windowStart ≤ t.transactionStartedAt ∧ t.transactionStartedAt < windowEnd := by
  simp [startsWithin]

variable [AddCommMonoid ν]

/-- The row of a group; what it says of the group's key is taken from one of its transactions. -/
def rollupRow (t : Transaction J ν) (group : List (Transaction J ν)) : RollupRow ν where
  toBucketKey := bucketKey collate t
  txnCount := group.length
  errorCount := countOf (fun t => t.error) group
  disputeCount := countOf (fun t => t.possibleDispute) group
  partiesErrorCount := countOf (fun t => t.parties.error.isSome) group
  quotesErrorCount := countOf (fun t => t.quotes.error.isSome) group
  transfersErrorCount := countOf (fun t => t.transfers.error.isSome) group
  patchErrorCount := countOf (fun t => t.patch.error.isSome) group
  committedAmount := (group.map fun t => if isCommitted t then t.transferAmount.getD 0 else 0).sum
  committedCount := countOf isCommitted group
  latencyCount := countOf (fun t => t.transactionCompletedAt.isSome) group
  sumLatencyMs := sumOf (group.map Transaction.latencyMs)

def aggregateWindow (rows : List (Transaction J ν)) (windowStart windowEnd : Js.Date) :
    List (RollupRow ν) :=
  (groups (groupKey collate) (rows.filter (startsWithin windowStart windowEnd))).map
    fun g => rollupRow collate g.1 g.2

variable {collate}

def bucketWithin (windowStart windowEnd : Js.Date) (r : RollupRow ν) : Bool :=
  windowStart ≤ r.bucketHour && r.bucketHour < windowEnd

/-- The two statements are one transaction: it fails if an inserted key is a duplicate. -/
def replaceWindow (table : RollupTable collate ν) (windowStart windowEnd : Js.Date)
    (rows : List (RollupRow ν)) : Option (RollupTable collate ν) :=
  (table.deleteWhere (bucketWithin windowStart windowEnd)).insertAll rows

def reaggregateWindow (table : RollupTable collate ν) (rows : List (Transaction J ν))
    (windowStart windowEnd : Js.Date) : Option (RollupTable collate ν) :=
  replaceWindow table windowStart windowEnd (aggregateWindow collate rows windowStart windowEnd)

variable (collate)

/-- `scopeClause(scopeFspId)` -/
def scopeClause (scope : Scope) (payerFsp payeeFsp : String) : Bool :=
  match scope with
  | .hub => true
  | .fsp fspId => collate payerFsp = collate fspId || collate payeeFsp = collate fspId

/-- The summands of `getLiveTotals`. -/
def RollupRow.measure (r : RollupRow ν) : LiveVector
  | .txn => r.txnCount
  | .success => r.txnCount - r.errorCount
  | .error => r.errorCount
  | .dispute => r.disputeCount
  | .partiesError => r.partiesErrorCount
  | .quotesError => r.quotesErrorCount
  | .transfersError => r.transfersErrorCount
  | .patchError => r.patchErrorCount
  | .latencyCount => r.latencyCount
  | .sumLatencyMs => r.sumLatencyMs.getD 0

variable {collate}

def getLiveTotals (table : RollupTable collate ν) (scope : Scope) (fromDate toDate : Js.Date) :
    LiveVector :=
  ((table.rows.filter fun r => bucketWithin fromDate toDate r &&
    scopeClause collate scope r.payerFsp r.payeeFsp).map RollupRow.measure).sum

/-- `UNION` keeps one of the texts that collate alike. -/
def getActiveFsps (table : RollupTable collate ν) (fromDate toDate : Js.Date) : List String :=
  let rows := table.rows.filter (bucketWithin fromDate toDate)
  firsts collate (rows.map (fun r => r.payerFsp) ++ rows.map fun r => r.payeeFsp)

end TransactionRollupRepository
end Audit
