import Pivotal.Audit.Transaction
import Pivotal.Fspiop.Errors

/-! The commands that the consumer makes of audit messages, and the inputs that
`AuditTransactionMapper` makes of the commands. -/
namespace Audit
open Fspiop

structure CommandInput where
  correlationId : String
  payerFsp : String
  payeeFsp : String
  gateway : InvocationGateway
  occurredAt : Option Js.Date := none
  deriving DecidableEq

structure PartiesInput extends CommandInput where
  payerIdType : Option PartyIdType
  payerId : Option String
  payerSubId : Option String
  payeeIdType : Option PartyIdType
  payeeId : Option String
  payeeSubId : Option String
  deriving DecidableEq

structure AuditPartiesRequestCommand (J : Type) extends PartiesInput where
  transactionInitiatorType : Option TransactionInitiatorType := none
  transactionType : Option TransactionScenario := none
  subScenario : Option String := none
  request : Option J := none
  payerHomeTransactionId : Option String := none
  quotingCurrency : Option Currency := none
  quotingAmount : Option String := none
  amountType : Option AmountType := none
  deriving DecidableEq

structure AuditPartiesResponseCommand extends PartiesInput where
  response : Option PartiesTypeIDPutResponse := none
  deriving DecidableEq

structure AuditPartiesErrorCommand (J : Type) extends PartiesInput where
  error : Option J := none
  deriving DecidableEq

structure AuditQuotesRequestCommand extends CommandInput where
  request : Option QuotesPostRequest := none
  deriving DecidableEq

structure AuditQuotesResponseCommand extends CommandInput where
  request : Option QuotesPostRequest := none
  response : Option QuotesIDPutResponse := none
  deriving DecidableEq

structure AuditQuotesErrorCommand (J : Type) extends CommandInput where
  request : Option QuotesPostRequest := none
  error : Option J := none
  deriving DecidableEq

structure AuditTransfersRequestCommand (J : Type) extends CommandInput where
  request : Option (TransfersBody J) := none
  deriving DecidableEq

structure AuditTransfersResponseCommand (J : Type) extends CommandInput where
  request : Option (TransfersBody J) := none
  response : Option TransfersIDPutResponse := none
  deriving DecidableEq

structure AuditTransfersErrorCommand (J : Type) extends CommandInput where
  request : Option (TransfersBody J) := none
  error : Option J := none
  deriving DecidableEq

structure AuditPatchRequestCommand (J : Type) extends CommandInput where
  request : Option J := none
  deriving DecidableEq

structure AuditPatchResponseCommand (J : Type) extends CommandInput where
  request : Option J := none
  payeeHomeTransactionId : Option String := none
  deriving DecidableEq

structure AuditPatchErrorCommand extends CommandInput where
  error : Option String := none
  deriving DecidableEq

/-- The commands whose handlers upsert. -/
inductive AuditCommand (J : Type) where
  | partiesRequest (input : AuditPartiesRequestCommand J)
  | partiesResponse (input : AuditPartiesResponseCommand)
  | partiesError (input : AuditPartiesErrorCommand J)
  | quotesRequest (input : AuditQuotesRequestCommand)
  | quotesResponse (input : AuditQuotesResponseCommand)
  | quotesError (input : AuditQuotesErrorCommand J)
  | transfersRequest (input : AuditTransfersRequestCommand J)
  | transfersResponse (input : AuditTransfersResponseCommand J)
  | transfersError (input : AuditTransfersErrorCommand J)
  | patchRequest (input : AuditPatchRequestCommand J)
  | patchResponse (input : AuditPatchResponseCommand J)
  | patchError (input : AuditPatchErrorCommand)
  deriving DecidableEq

/-- The numbers of the language: `Number(text)` and `Number.isFinite`. -/
structure Numeric (ν : Type) where
  number : String → ν
  isFinite : ν → Bool

namespace AuditTransactionMapper

variable {J ν : Type}

def partiesFlow : ℕ := 1
def quotesFlow : ℕ := 2
def transfersFlow : ℕ := 3

def toNumber (numeric : Numeric ν) (value : Option String) : Option ν := value.map numeric.number

def toOptionalNumber (numeric : Numeric ν) (value : Option String) : Option ν :=
  if Js.blank value then none
  else (toNumber numeric (value.map Js.trim)).filter numeric.isFinite

def findExtensionValue (extensionList : Option ExtensionList) (targetKey : String) :
    Option String :=
  let normalizedTargetKey := Js.toLowerCase (Js.trim targetKey)
  let extensions := (extensionList.bind (·.extension)).getD []
  (extensions.find? fun extension =>
    extension.key.map (Js.toLowerCase ∘ Js.trim) = some normalizedTargetKey).bind (·.value)

def toFeeAmount (numeric : Numeric ν) (extensionList : Option ExtensionList) (key : String) :
    Option ν :=
  toOptionalNumber numeric (findExtensionValue extensionList key)

def resolveOccurredAt (value : Option Js.Date) (now : Js.Date) : Js.Date := value.getD now

def firstNonBlank (values : List (Option String)) : String :=
  ((values.find? fun value => !Js.blank value).bind fun value => value.map Js.trim).getD ""

def toQuotesCorrelationId (fallbackCorrelationId : String) (request : Option QuotesPostRequest) :
    String :=
  firstNonBlank [request.bind (·.transactionId), request.bind (·.transactionRequestId),
    request.map (·.quoteId), some fallbackCorrelationId]

def toTransfersCorrelationId (fallbackCorrelationId : String)
    (request : Option TransfersPostRequest) : String :=
  firstNonBlank [request.bind (·.transferId), some fallbackCorrelationId]

/-- A body without an amount is not that of a `POST`. -/
def toTransfersRequest : Option (TransfersBody J) → Option TransfersPostRequest
  | some (.post request) => if request.amount.isSome then some request else none
  | some (.other _) => none
  | none => none

def toPartyIdInfo (response : Option PartiesTypeIDPutResponse) : Option PartyIdInfo :=
  response.bind (·.party.partyIdInfo)

section GatewayFields

variable {Request Response Error : Type}

/-- `to…RequestedGatewayFields`, the same for every phase, spread over the phase's columns. -/
def toRequestedGatewayFields (gateway : InvocationGateway) (occurredAt : Js.Date)
    (columns : PhaseColumns Request Response Error) : PhaseColumns Request Response Error :=
  match gateway with
  | .outbound => { columns with outboundRequestedAt := some occurredAt }
  | .inbound => { columns with inboundRequestedAt := some occurredAt }
  | .connector => { columns with connectorRequestedAt := some occurredAt }

/-- `to…RespondedGatewayFields`, the same for every phase. -/
def toRespondedGatewayFields (gateway : InvocationGateway) (occurredAt : Js.Date)
    (columns : PhaseColumns Request Response Error) : PhaseColumns Request Response Error :=
  match gateway with
  | .outbound => { columns with outboundRespondedAt := some occurredAt }
  | .inbound => { columns with inboundRespondedAt := some occurredAt }
  | .connector => { columns with connectorRespondedAt := some occurredAt }

end GatewayFields

def toPartiesRequestInput (numeric : Numeric ν) (input : AuditPartiesRequestCommand J)
    (now : Js.Date) : UpsertInput J ν :=
  let occurredAt := resolveOccurredAt input.occurredAt now
  { correlationId := input.correlationId
    payer := ⟨input.payerFsp, input.payerIdType, input.payerId, input.payerSubId⟩
    payee := ⟨input.payeeFsp, input.payeeIdType, input.payeeId, input.payeeSubId⟩
    transactionStartedAt := occurredAt
    transactionInitiatorType := input.transactionInitiatorType
    transactionType := input.transactionType
    subScenario := input.subScenario
    amountType := input.amountType
    quotingCurrency := input.quotingCurrency
    quotingAmount := toNumber numeric input.quotingAmount
    payerHomeTransactionId := input.payerHomeTransactionId
    error := false
    parties := toRequestedGatewayFields input.gateway occurredAt
      { requestedAt := some occurredAt, request := input.request }
    createdAt := some occurredAt }

def toPartiesResponseInput (input : AuditPartiesResponseCommand) (now : Js.Date) :
    UpsertInput J ν :=
  let occurredAt := resolveOccurredAt input.occurredAt now
  let responsePartyIdInfo := toPartyIdInfo input.response
  { correlationId := input.correlationId
    payer := ⟨input.payerFsp, input.payerIdType, input.payerId, input.payerSubId⟩
    payee :=
      { fsp := (responsePartyIdInfo.bind (·.fspId)).getD input.payeeFsp
        idType := (responsePartyIdInfo.bind (·.partyIdType)).or input.payeeIdType
        id := (responsePartyIdInfo.map (·.partyIdentifier)).or input.payeeId
        subId := (responsePartyIdInfo.bind (·.partySubIdOrType)).or input.payeeSubId }
    transactionStartedAt := occurredAt
    error := false
    flow := some partiesFlow
    parties := toRespondedGatewayFields input.gateway occurredAt
      { respondedAt := some occurredAt, response := input.response }
    createdAt := some occurredAt }

def toPartiesErrorInput (input : AuditPartiesErrorCommand J) (now : Js.Date) : UpsertInput J ν :=
  let occurredAt := resolveOccurredAt input.occurredAt now
  { correlationId := input.correlationId
    payer := ⟨input.payerFsp, input.payerIdType, input.payerId, input.payerSubId⟩
    payee := ⟨input.payeeFsp, input.payeeIdType, input.payeeId, input.payeeSubId⟩
    transactionStartedAt := occurredAt
    transactionCompletedAt := some occurredAt
    error := true
    flow := some partiesFlow
    parties := toRespondedGatewayFields input.gateway occurredAt
      { respondedAt := some occurredAt, error := input.error }
    createdAt := some occurredAt }

/-- The columns of a party that a quote names. -/
def toPartyColumns (partyIdInfo : Option PartyIdInfo) (fallbackFsp : String) : PartyColumns where
  fsp := (partyIdInfo.bind (·.fspId)).getD fallbackFsp
  idType := partyIdInfo.bind (·.partyIdType)
  id := partyIdInfo.map (·.partyIdentifier)
  subId := partyIdInfo.bind (·.partySubIdOrType)

/-- `request?.amount`, of which the source reads fields without a test. -/
def toAmount : Option QuotesPostRequest → Except JsError (Option Money)
  | none => .ok none
  | some request =>
    match request.amount with
    | none => .error JsError.typeError
    | some amount => .ok (some amount)

/-- What the three inputs of the quotes have in common. -/
def toQuotesInput (numeric : Numeric ν) (input : CommandInput)
    (request : Option QuotesPostRequest) (now : Js.Date) : Except JsError (UpsertInput J ν) := do
  let occurredAt := resolveOccurredAt input.occurredAt now
  let amount ← toAmount request
  let transactionType := request.bind (·.transactionType)
  return {
    correlationId := toQuotesCorrelationId input.correlationId request
    payer := toPartyColumns ((request.bind (·.payer)).bind (·.partyIdInfo)) input.payerFsp
    payee := toPartyColumns ((request.bind (·.payee)).bind (·.partyIdInfo)) input.payeeFsp
    transactionInitiatorType := transactionType.map (·.initiatorType)
    quotingCurrency := amount.map (·.currency)
    quotingAmount := toNumber numeric (amount.map (·.amount))
    transactionStartedAt := occurredAt
    transactionType := transactionType.bind (·.scenario)
    subScenario := transactionType.bind (·.subScenario)
    amountType := request.map (·.amountType)
    error := false
    quotes := { request := request }
    createdAt := some occurredAt }

def toQuotesRequestInput (numeric : Numeric ν) (input : AuditQuotesRequestCommand)
    (now : Js.Date) : Except JsError (UpsertInput J ν) := do
  let occurredAt := resolveOccurredAt input.occurredAt now
  let common ← toQuotesInput numeric input.toCommandInput input.request now
  return { common with
    quotes := toRequestedGatewayFields input.gateway occurredAt
      { requestedAt := some occurredAt, request := input.request } }

def toQuotesResponseInput (numeric : Numeric ν) (input : AuditQuotesResponseCommand)
    (now : Js.Date) : Except JsError (UpsertInput J ν) := do
  let occurredAt := resolveOccurredAt input.occurredAt now
  let common ← toQuotesInput numeric input.toCommandInput input.request now
  let transferAmount := input.response.bind (·.transferAmount)
  let extensionList := input.response.bind (·.extensionList)
  return { common with
    transferCurrency := transferAmount.map (·.currency)
    transferAmount := toNumber numeric (transferAmount.map (·.amount))
    payeeReceiveAmount := toOptionalNumber numeric
      ((input.response.bind (·.payeeReceiveAmount)).map (·.amount))
    payeeFee := toFeeAmount numeric extensionList "payeeFee"
    payerFee := toFeeAmount numeric extensionList "payerFee"
    schemeFee := toFeeAmount numeric extensionList "schemeFee"
    flow := some quotesFlow
    quotes := toRespondedGatewayFields input.gateway occurredAt
      { respondedAt := some occurredAt, request := input.request, response := input.response } }

def toQuotesErrorInput (numeric : Numeric ν) (input : AuditQuotesErrorCommand J)
    (now : Js.Date) : Except JsError (UpsertInput J ν) := do
  let occurredAt := resolveOccurredAt input.occurredAt now
  let common ← toQuotesInput numeric input.toCommandInput input.request now
  return { common with
    transactionCompletedAt := some occurredAt
    error := true
    flow := some quotesFlow
    quotes := toRespondedGatewayFields input.gateway occurredAt
      { respondedAt := some occurredAt, request := input.request, error := input.error } }

/-- What the three inputs of the transfers have in common. -/
def toTransfersInput (numeric : Numeric ν) (input : CommandInput)
    (body : Option (TransfersBody J)) (now : Js.Date) : UpsertInput J ν :=
  let occurredAt := resolveOccurredAt input.occurredAt now
  let request := toTransfersRequest body
  let amount := request.bind (·.amount)
  { correlationId := toTransfersCorrelationId input.correlationId request
    payer := { fsp := (request.bind (·.payerFsp)).getD input.payerFsp }
    payee := { fsp := (request.bind (·.payeeFsp)).getD input.payeeFsp }
    transferCurrency := amount.map (·.currency)
    transferAmount := toNumber numeric (amount.map (·.amount))
    payerHomeTransactionId :=
      findExtensionValue (request.bind (·.extensionList)) "homeTransactionId"
    transactionStartedAt := occurredAt
    error := false
    createdAt := some occurredAt }

def toTransfersRequestInput (numeric : Numeric ν) (input : AuditTransfersRequestCommand J)
    (now : Js.Date) : UpsertInput J ν :=
  let occurredAt := resolveOccurredAt input.occurredAt now
  { toTransfersInput numeric input.toCommandInput input.request now with
    transfers := toRequestedGatewayFields input.gateway occurredAt
      { requestedAt := some occurredAt, request := input.request } }

def toTransfersResponseInput (numeric : Numeric ν) (input : AuditTransfersResponseCommand J)
    (now : Js.Date) : UpsertInput J ν :=
  let occurredAt := resolveOccurredAt input.occurredAt now
  { toTransfersInput numeric input.toCommandInput input.request now with
    transactionCompletedAt := some occurredAt
    transferState := input.response.map (·.transferState)
    flow := some transfersFlow
    transfers := toRespondedGatewayFields input.gateway occurredAt
      { respondedAt := some occurredAt, request := input.request, response := input.response } }

def toTransfersErrorInput (numeric : Numeric ν) (input : AuditTransfersErrorCommand J)
    (now : Js.Date) : UpsertInput J ν :=
  let occurredAt := resolveOccurredAt input.occurredAt now
  { toTransfersInput numeric input.toCommandInput input.request now with
    transactionCompletedAt := some occurredAt
    error := true
    flow := some transfersFlow
    transfers := toRespondedGatewayFields input.gateway occurredAt
      { respondedAt := some occurredAt, request := input.request, error := input.error } }

/-- What the three inputs of a `PATCH` have in common. -/
def toPatchInput (input : CommandInput) (now : Js.Date) : UpsertInput J ν :=
  let occurredAt := resolveOccurredAt input.occurredAt now
  { correlationId := input.correlationId
    payer := { fsp := input.payerFsp }
    payee := { fsp := input.payeeFsp }
    transactionStartedAt := occurredAt
    error := false
    createdAt := some occurredAt }

def toPatchRequestInput (input : AuditPatchRequestCommand J) (now : Js.Date) : UpsertInput J ν :=
  { toPatchInput input.toCommandInput now with
    patch := { requestedAt := some (resolveOccurredAt input.occurredAt now)
               request := input.request } }

def toPatchResponseInput (input : AuditPatchResponseCommand J) (now : Js.Date) :
    UpsertInput J ν :=
  { toPatchInput input.toCommandInput now with
    patch := { respondedAt := some (resolveOccurredAt input.occurredAt now)
               request := input.request }
    payeeHomeTransactionId := input.payeeHomeTransactionId }

def toPatchErrorInput (input : AuditPatchErrorCommand) (now : Js.Date) : UpsertInput J ν :=
  { toPatchInput input.toCommandInput now with
    error := input.error.isSome
    possibleDispute := some input.error.isSome
    patch := { respondedAt := some (resolveOccurredAt input.occurredAt now)
               error := input.error } }

end AuditTransactionMapper

namespace AuditCommand

open AuditTransactionMapper

variable {J ν : Type}

/-- The time at which the publisher says that it happened. -/
def occurredAt : AuditCommand J → Option Js.Date
  | partiesRequest input => input.occurredAt
  | partiesResponse input => input.occurredAt
  | partiesError input => input.occurredAt
  | quotesRequest input => input.occurredAt
  | quotesResponse input => input.occurredAt
  | quotesError input => input.occurredAt
  | transfersRequest input => input.occurredAt
  | transfersResponse input => input.occurredAt
  | transfersError input => input.occurredAt
  | patchRequest input => input.occurredAt
  | patchResponse input => input.occurredAt
  | patchError input => input.occurredAt

/-- The argument of `upsert` in the command's handler. -/
def toInput (numeric : Numeric ν) (now : Js.Date) :
    AuditCommand J → Except JsError (UpsertInput J ν)
  | partiesRequest input => .ok (toPartiesRequestInput numeric input now)
  | partiesResponse input => .ok (toPartiesResponseInput input now)
  | partiesError input => .ok (toPartiesErrorInput input now)
  | quotesRequest input => toQuotesRequestInput numeric input now
  | quotesResponse input => toQuotesResponseInput numeric input now
  | quotesError input => toQuotesErrorInput numeric input now
  | transfersRequest input => .ok (toTransfersRequestInput numeric input now)
  | transfersResponse input => .ok (toTransfersResponseInput numeric input now)
  | transfersError input => .ok (toTransfersErrorInput numeric input now)
  | patchRequest input => .ok (toPatchRequestInput input now)
  | patchResponse input => .ok (toPatchResponseInput input now)
  | patchError input => .ok (toPatchErrorInput input now)

/-- The clock is read only for an event that carries no time of its own. -/
theorem toInput_congr (numeric : Numeric ν) {command : AuditCommand J}
    (h : command.occurredAt.isSome = true) (now now' : Js.Date) :
    command.toInput numeric now = command.toInput numeric now' := by
  have hresolve : ∀ {value : Option Js.Date}, value.isSome = true →
      resolveOccurredAt value now = resolveOccurredAt value now' := by
    intro value hvalue
    obtain ⟨t, rfl⟩ := Option.isSome_iff_exists.mp hvalue
    rfl
  cases command <;> simp only [occurredAt] at h
  case partiesRequest input => simp only [toInput, toPartiesRequestInput, hresolve h]
  case partiesResponse input => simp only [toInput, toPartiesResponseInput, hresolve h]
  case partiesError input => simp only [toInput, toPartiesErrorInput, hresolve h]
  case quotesRequest input =>
    simp only [toInput, toQuotesRequestInput, toQuotesInput, hresolve h]
  case quotesResponse input =>
    simp only [toInput, toQuotesResponseInput, toQuotesInput, hresolve h]
  case quotesError input => simp only [toInput, toQuotesErrorInput, toQuotesInput, hresolve h]
  case transfersRequest input =>
    simp only [toInput, toTransfersRequestInput, toTransfersInput, hresolve h]
  case transfersResponse input =>
    simp only [toInput, toTransfersResponseInput, toTransfersInput, hresolve h]
  case transfersError input =>
    simp only [toInput, toTransfersErrorInput, toTransfersInput, hresolve h]
  case patchRequest input => simp only [toInput, toPatchRequestInput, toPatchInput, hresolve h]
  case patchResponse input => simp only [toInput, toPatchResponseInput, toPatchInput, hresolve h]
  case patchError input => simp only [toInput, toPatchErrorInput, toPatchInput, hresolve h]

end AuditCommand
end Audit
