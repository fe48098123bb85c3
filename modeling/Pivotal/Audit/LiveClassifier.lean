import Mathlib.Algebra.BigOperators.Group.List.Basic
import Pivotal.Audit.Transaction

/-! What a transaction counts for on the live dashboard, and in which scopes. -/
namespace Audit
open Fspiop Store

variable {J ν : Type}

/-- The measures of `LIVE_FIELDS`. -/
inductive LiveField where
  | txn | success | error | dispute | partiesError | quotesError | transfersError | patchError
  | latencyCount | sumLatencyMs
  deriving DecidableEq

/-- A number for each measure; latencies are whole, since the times of a row are. -/
abbrev LiveVector : Type := LiveField → ℤ

/-- The flags and measures of a row that are classified. -/
structure LiveClassificationRow where
  error : Bool
  possibleDispute : Bool
  partiesError : Bool
  quotesError : Bool
  transfersError : Bool
  patchError : Bool
  latencyMs : Option ℤ
  deriving DecidableEq

def classify (row : LiveClassificationRow) : LiveVector
  | .txn => 1
  | .success => if row.error then 0 else 1
  | .error => if row.error then 1 else 0
  | .dispute => if row.possibleDispute then 1 else 0
  | .partiesError => if row.partiesError then 1 else 0
  | .quotesError => if row.quotesError then 1 else 0
  | .transfersError => if row.transfersError then 1 else 0
  | .patchError => if row.patchError then 1 else 0
  | .latencyCount => if row.latencyMs.isSome then 1 else 0
  | .sumLatencyMs => row.latencyMs.getD 0

/-- `TransactionRollupRepository.LiveClassificationRecord` -/
structure LiveClassificationRecord extends LiveClassificationRow where
  payerFsp : String
  payeeFsp : String
  startedAt : Js.Date
  updatedAt : Js.Date
  deriving DecidableEq

/-- `TIMESTAMPDIFF(…) / 1000`, which is `NULL` of a transaction that is not completed. -/
def Transaction.latencyMs (t : Transaction J ν) : Option ℤ :=
  t.transactionCompletedAt.map fun completedAt => completedAt - t.transactionStartedAt

namespace TransactionRollupRepository

/-- What `findLiveClassification` selects of a row. -/
def liveClassification (t : Transaction J ν) : LiveClassificationRecord where
  payerFsp := t.payer.fsp
  payeeFsp := t.payee.fsp
  startedAt := t.transactionStartedAt
  updatedAt := t.updatedAt
  error := t.error
  possibleDispute := t.possibleDispute
  partiesError := t.parties.error.isSome
  quotesError := t.quotes.error.isSome
  transfersError := t.transfers.error.isSome
  patchError := t.patch.error.isSome
  latencyMs := t.latencyMs

end TransactionRollupRepository

/-- `hubScope()` and `fspScope(fspId)`. -/
inductive Scope where
  | hub
  | fsp (fspId : String)
  deriving DecidableEq

namespace LiveStatsWriter

/-- The hub, and each leg, once. -/
def scopesFor (payerFsp payeeFsp : String) : List Scope :=
  [.hub, .fsp payerFsp] ++ if payeeFsp ≠ payerFsp then [.fsp payeeFsp] else []

theorem nodup_scopesFor (payerFsp payeeFsp : String) : (scopesFor payerFsp payeeFsp).Nodup := by
  by_cases h : payeeFsp = payerFsp
  · simp [scopesFor, h]
  · simp [scopesFor, h, Ne.symm h]

theorem hub_mem_scopesFor (payerFsp payeeFsp : String) : .hub ∈ scopesFor payerFsp payeeFsp := by
  simp [scopesFor]

theorem fsp_mem_scopesFor {fspId payerFsp payeeFsp : String} :
    .fsp fspId ∈ scopesFor payerFsp payeeFsp ↔ fspId = payerFsp ∨ fspId = payeeFsp := by
  by_cases h : payeeFsp = payerFsp
  · simp [scopesFor, h]
  · simp [scopesFor, h]

end LiveStatsWriter
end Audit
