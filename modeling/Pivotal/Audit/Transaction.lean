import Pivotal.Audit.TransactionMessage
import Pivotal.Store.Merge

/-! The rows of `transactions`, and how an audit event is merged into the row of its correlation. -/
namespace Audit
open Fspiop Store

structure PartyColumns where
  fsp : String
  idType : Option PartyIdType := none
  id : Option String := none
  subId : Option String := none
  deriving DecidableEq

/-- The columns of `parties_…`, `quotes_…` or `transfers_…`. -/
structure PhaseColumns (Request Response Error : Type) where
  requestedAt : Option Js.Date := none
  respondedAt : Option Js.Date := none
  request : Option Request := none
  response : Option Response := none
  error : Option Error := none
  outboundRequestedAt : Option Js.Date := none
  outboundRespondedAt : Option Js.Date := none
  inboundRequestedAt : Option Js.Date := none
  inboundRespondedAt : Option Js.Date := none
  connectorRequestedAt : Option Js.Date := none
  connectorRespondedAt : Option Js.Date := none
  deriving DecidableEq

structure PatchColumns (J : Type) where
  requestedAt : Option Js.Date := none
  respondedAt : Option Js.Date := none
  request : Option J := none
  error : Option String := none
  deriving DecidableEq

/-- The body that a transfers event carries for its request; only that of a `POST` is read. -/
inductive TransfersBody (J : Type) where
  | post (request : TransfersPostRequest)
  | other (body : J)
  deriving DecidableEq

/-- The columns that both a row and the input of an upsert have. `J` stands for the JSON that is
stored and never read, `ν` for the numbers. -/
structure TransactionColumns (J ν : Type) where
  correlationId : String
  payer : PartyColumns
  payee : PartyColumns
  transactionInitiatorType : Option TransactionInitiatorType := none
  quotingCurrency : Option Currency := none
  quotingAmount : Option ν := none
  transferCurrency : Option Currency := none
  transferAmount : Option ν := none
  payeeReceiveAmount : Option ν := none
  payeeFee : Option ν := none
  payerFee : Option ν := none
  schemeFee : Option ν := none
  transactionStartedAt : Js.Date
  transactionCompletedAt : Option Js.Date := none
  transactionType : Option TransactionScenario := none
  subScenario : Option String := none
  transferState : Option TransferState := none
  amountType : Option AmountType := none
  error : Bool
  flow : Option ℕ := none
  parties : PhaseColumns J PartiesTypeIDPutResponse J := {}
  quotes : PhaseColumns QuotesPostRequest QuotesIDPutResponse J := {}
  transfers : PhaseColumns (TransfersBody J) TransfersIDPutResponse J := {}
  patch : PatchColumns J := {}
  payerHomeTransactionId : Option String := none
  payeeHomeTransactionId : Option String := none
  deriving DecidableEq

/-- `TransactionRepository.UpsertInput` -/
structure UpsertInput (J ν : Type) extends TransactionColumns J ν where
  possibleDispute : Option Bool := none
  createdAt : Option Js.Date := none
  deriving DecidableEq

structure Transaction (J ν : Type) extends TransactionColumns J ν where
  id : ℕ
  possibleDispute : Bool
  disputeResolvedAt : Option Js.Date
  createdAt : Js.Date
  updatedAt : Js.Date
  deriving DecidableEq

namespace PartyColumns

/-- The `CASE` of `payer_fsp` and of `payee_fsp`. -/
def mergeFsp (old values : PartyColumns) : String :=
  if old.id.isSome && values.id.isNone then old.fsp else values.fsp

def merge (old values : PartyColumns) : PartyColumns where
  fsp := mergeFsp old values
  idType := coalesce values.idType old.idType
  id := coalesce values.id old.id
  subId := coalesce values.subId old.subId

end PartyColumns

namespace PhaseColumns

variable {Request Response Error : Type}

def merge (old values : PhaseColumns Request Response Error) :
    PhaseColumns Request Response Error where
  requestedAt := least old.requestedAt values.requestedAt
  respondedAt := greatest old.respondedAt values.respondedAt
  request := coalesce values.request old.request
  response := coalesce values.response old.response
  error := coalesce values.error old.error
  outboundRequestedAt := least old.outboundRequestedAt values.outboundRequestedAt
  outboundRespondedAt := greatest old.outboundRespondedAt values.outboundRespondedAt
  inboundRequestedAt := least old.inboundRequestedAt values.inboundRequestedAt
  inboundRespondedAt := greatest old.inboundRespondedAt values.inboundRespondedAt
  connectorRequestedAt := least old.connectorRequestedAt values.connectorRequestedAt
  connectorRespondedAt := greatest old.connectorRespondedAt values.connectorRespondedAt

/-- `requested_at` of the phase itself, or of one gateway. -/
def requestedBy (c : PhaseColumns Request Response Error) :
    Option InvocationGateway → Option Js.Date
  | none => c.requestedAt
  | some .outbound => c.outboundRequestedAt
  | some .inbound => c.inboundRequestedAt
  | some .connector => c.connectorRequestedAt

def respondedBy (c : PhaseColumns Request Response Error) :
    Option InvocationGateway → Option Js.Date
  | none => c.respondedAt
  | some .outbound => c.outboundRespondedAt
  | some .inbound => c.inboundRespondedAt
  | some .connector => c.connectorRespondedAt

theorem requestedBy_merge (old values : PhaseColumns Request Response Error)
    (gateway : Option InvocationGateway) : (old.merge values).requestedBy gateway =
      least (old.requestedBy gateway) (values.requestedBy gateway) := by
  rcases gateway with _ | _ | _ | _ <;> rfl

theorem respondedBy_merge (old values : PhaseColumns Request Response Error)
    (gateway : Option InvocationGateway) : (old.merge values).respondedBy gateway =
      greatest (old.respondedBy gateway) (values.respondedBy gateway) := by
  rcases gateway with _ | _ | _ | _ <;> rfl

end PhaseColumns

namespace PatchColumns

variable {J : Type}

def merge (old values : PatchColumns J) : PatchColumns J where
  requestedAt := least old.requestedAt values.requestedAt
  respondedAt := greatest old.respondedAt values.respondedAt
  request := coalesce values.request old.request
  error := coalesce values.error old.error

end PatchColumns

variable {J ν : Type}

namespace TransactionColumns

/-- Every column but `correlation_id`, which is the key. -/
def merge (old values : TransactionColumns J ν) : TransactionColumns J ν where
  correlationId := old.correlationId
  payer := old.payer.merge values.payer
  payee := old.payee.merge values.payee
  transactionInitiatorType :=
    coalesce values.transactionInitiatorType old.transactionInitiatorType
  quotingCurrency := coalesce values.quotingCurrency old.quotingCurrency
  quotingAmount := coalesce values.quotingAmount old.quotingAmount
  transferCurrency := coalesce values.transferCurrency old.transferCurrency
  transferAmount := coalesce values.transferAmount old.transferAmount
  payeeReceiveAmount := coalesce values.payeeReceiveAmount old.payeeReceiveAmount
  payeeFee := coalesce values.payeeFee old.payeeFee
  payerFee := coalesce values.payerFee old.payerFee
  schemeFee := coalesce values.schemeFee old.schemeFee
  transactionStartedAt := min old.transactionStartedAt values.transactionStartedAt
  transactionCompletedAt := coalesce values.transactionCompletedAt old.transactionCompletedAt
  transactionType := coalesce values.transactionType old.transactionType
  subScenario := coalesce values.subScenario old.subScenario
  transferState := coalesce values.transferState old.transferState
  amountType := coalesce values.amountType old.amountType
  error := old.error || values.error
  flow := greatest old.flow values.flow
  parties := old.parties.merge values.parties
  quotes := old.quotes.merge values.quotes
  transfers := old.transfers.merge values.transfers
  patch := old.patch.merge values.patch
  payerHomeTransactionId := coalesce values.payerHomeTransactionId old.payerHomeTransactionId
  payeeHomeTransactionId := coalesce values.payeeHomeTransactionId old.payeeHomeTransactionId

end TransactionColumns

namespace UpsertInput

/-- The row of `VALUES (…)`; the database allocates its `id`. -/
def values (input : UpsertInput J ν) (id : ℕ) (now : Js.Date) : Transaction J ν where
  toTransactionColumns := input.toTransactionColumns
  id := id
  possibleDispute := input.possibleDispute.getD false
  disputeResolvedAt := none
  createdAt := input.createdAt.getD input.transactionStartedAt
  updatedAt := now

end UpsertInput

namespace Transaction

/-- `ON DUPLICATE KEY UPDATE` -/
def merge (old values : Transaction J ν) : Transaction J ν where
  toTransactionColumns := old.toTransactionColumns.merge values.toTransactionColumns
  id := old.id
  possibleDispute := old.possibleDispute || values.possibleDispute
  disputeResolvedAt := old.disputeResolvedAt
  createdAt := min old.createdAt values.createdAt
  updatedAt := values.updatedAt

/-- A column `…_requested_at`. A `PATCH` has none for a gateway. -/
def requestedAt (t : Transaction J ν) :
    InvocationPhase → Option InvocationGateway → Option Js.Date
  | .parties, gateway => t.parties.requestedBy gateway
  | .quotes, gateway => t.quotes.requestedBy gateway
  | .transfers, gateway => t.transfers.requestedBy gateway
  | .patch, none => t.patch.requestedAt
  | .patch, some _ => none

/-- A column `…_responded_at`. -/
def respondedAt (t : Transaction J ν) :
    InvocationPhase → Option InvocationGateway → Option Js.Date
  | .parties, gateway => t.parties.respondedBy gateway
  | .quotes, gateway => t.quotes.respondedBy gateway
  | .transfers, gateway => t.transfers.respondedBy gateway
  | .patch, none => t.patch.respondedAt
  | .patch, some _ => none

theorem requestedAt_merge (old values : Transaction J ν) (phase : InvocationPhase)
    (gateway : Option InvocationGateway) : (old.merge values).requestedAt phase gateway =
      least (old.requestedAt phase gateway) (values.requestedAt phase gateway) := by
  cases phase with
  | parties => exact PhaseColumns.requestedBy_merge old.parties values.parties gateway
  | quotes => exact PhaseColumns.requestedBy_merge old.quotes values.quotes gateway
  | transfers => exact PhaseColumns.requestedBy_merge old.transfers values.transfers gateway
  | patch => cases gateway <;> rfl

theorem respondedAt_merge (old values : Transaction J ν) (phase : InvocationPhase)
    (gateway : Option InvocationGateway) : (old.merge values).respondedAt phase gateway =
      greatest (old.respondedAt phase gateway) (values.respondedAt phase gateway) := by
  cases phase with
  | parties => exact PhaseColumns.respondedBy_merge old.parties values.parties gateway
  | quotes => exact PhaseColumns.respondedBy_merge old.quotes values.quotes gateway
  | transfers => exact PhaseColumns.respondedBy_merge old.transfers values.transfers gateway
  | patch => cases gateway <;> rfl

end Transaction

namespace TransactionRepository

/-- The row of the input's correlation, before and after: the statement is one atomic write. -/
def upsert (row : Option (Transaction J ν)) (input : UpsertInput J ν) (id : ℕ) (now : Js.Date) :
    Transaction J ν :=
  match row with
  | none => input.values id now
  | some old => old.merge (input.values id now)

/-- What `dispute` has the ORM save, of the entity that it read. -/
def disputed (existing : Transaction J ν) (now : Js.Date) : Transaction J ν :=
  { existing with possibleDispute := true, updatedAt := now }

/-- The `UPDATE` of `resolveDispute`. -/
def resolveDispute (row : Option (Transaction J ν)) (occurredAt now : Js.Date) :
    Option (Transaction J ν) :=
  row.map fun t =>
    { t with possibleDispute := false, disputeResolvedAt := some occurredAt, updatedAt := now }

end TransactionRepository
end Audit
