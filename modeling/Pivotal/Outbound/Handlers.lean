import Pivotal.Async.Program
import Pivotal.Audit.TransactionMessage
import Pivotal.Fspiop.Headers
import Pivotal.Fspiop.Subjects
import Pivotal.Outbound.Components

/-! `PUT /sendmoney/{id}` with `acceptParty` and with `acceptQuote`, as programs over the
calls they await. -/
namespace Outbound
open Fspiop Audit
open Async.Program (perform lift)

/-- The bodies of outbound audit messages. -/
inductive AuditRequest where
  | quotes (body : QuotesPostRequest)
  | transfers (body : TransfersPostRequest)
  deriving DecidableEq

inductive AuditResponse where
  | quotes (body : QuotesIDPutResponse)
  | transfers (body : TransfersIDPutResponse)
  deriving DecidableEq

abbrev AuditContent := BaseContent AuditRequest AuditResponse ErrorInformationObject

abbrev AuditMessage := TransactionMessage AuditContent

/-- What a waiter holds when its caller cancels it. -/
inductive WaiterFate where
  | pending | success | failure
  deriving DecidableEq

/-- The calls of the two handlers. `quotesCallback` and `transfersCallback` await the
promise that `waitFor` returned. -/
inductive OutboundOp where
  | now
  | randomUUID
  | redisGet (key : String)
  | redisSet (key : String) (value : TransferRequest) (px : Option ℤ)
  | redisDel (key : String)
  | redisSetNx (lockKey token : String) (px : ℤ)
  | redisReleaseScript (lockKey token : String)
  | redisIncrementScript (key : String) (px : ℤ)
  | publish (message : AuditMessage)
  | waitFor (successSubject errorSubject : String)
  | cancel (successSubject : String)
  | quotesCallback (successSubject : String)
  | transfersCallback (successSubject : String)
  | postQuotes (url : String) (headers : FspiopHeadersMap) (body : QuotesPostRequest)
  | postTransfers (url : String) (headers : FspiopHeadersMap) (body : TransfersPostRequest)
  deriving DecidableEq

/-- `cancel` hands nothing to the code: its answer records what the waiter had received. -/
@[reducible] def OutboundAnswer : OutboundOp → Type
  | .now => Js.Date
  | .randomUUID => String
  | .redisGet _ => Except JsError (Option TransferRequest)
  | .redisSet _ _ _ => Except JsError Unit
  | .redisDel _ => Except JsError Unit
  | .redisSetNx _ _ _ => Except JsError Bool
  | .redisReleaseScript _ _ => Except JsError Unit
  | .redisIncrementScript _ _ => Except JsError ℤ
  | .publish _ => Except JsError Unit
  | .waitFor _ _ => Except JsError Unit
  | .cancel _ => WaiterFate
  | .quotesCallback _ => Except JsError QuotesIDPutResponse
  | .transfersCallback _ => Except JsError TransfersIDPutResponse
  | .postQuotes _ _ _ => Except JsError Unit
  | .postTransfers _ _ _ => Except JsError Unit

abbrev OutboundProgram := Async.Program OutboundOp OutboundAnswer JsError

namespace RedisClient

def lockKeyPrefix : String := "lock:"

def lockKey (key : String) : String := lockKeyPrefix ++ key

def get (key : String) : OutboundProgram (Option TransferRequest) := do
  lift (← perform (.redisGet key))

/-- No expiry is set when the default time to live is not positive. -/
def set (settings : OutboundSettings) (key : String) (value : TransferRequest) :
    OutboundProgram Unit := do
  let resolvedTtlMs := settings.redisCacheItemTimeoutMs
  lift (← perform (.redisSet key value (if resolvedTtlMs ≤ 0 then none else some resolvedTtlMs)))

def delete (key : String) : OutboundProgram Unit := do
  lift (← perform (.redisDel key))

def incrementWithTtl (key : String) (ttlMs : ℤ) : OutboundProgram ℤ := do
  if ttlMs ≤ 0 then
    throw (.ofMessage ("incrementWithTtl requires a positive ttlMs; got " ++ toString ttlMs))
  lift (← perform (.redisIncrementScript key ttlMs))

def acquireLock (key : String) (ttlMs : ℤ) : OutboundProgram (Option String) := do
  let token ← perform .randomUUID
  let result ← lift (← perform (.redisSetNx (lockKey key) token ttlMs))
  return if result then some token else none

/-- A failure of the script is logged and swallowed. -/
def releaseLock (key token : String) : OutboundProgram Unit := do
  let _ ← perform (.redisReleaseScript (lockKey key) token)

end RedisClient

namespace AuditTransactionPublisher

def publish (message : AuditMessage) : OutboundProgram Unit := do
  lift (← perform (.publish message))

end AuditTransactionPublisher

namespace FspiopAxios

def postQuotes (settings : OutboundSettings) (headers : FspiopHeadersMap)
    (body : QuotesPostRequest) : OutboundProgram Unit := do
  lift (← perform (.postQuotes settings.quotesUrl headers body))

def postTransfers (settings : OutboundSettings) (headers : FspiopHeadersMap)
    (body : TransfersPostRequest) : OutboundProgram Unit := do
  lift (← perform (.postTransfers settings.transfersUrl headers body))

end FspiopAxios

namespace SuspiciousTransactionMonitor

def assertNotSuspicious (settings : OutboundSettings) (pattern : Pattern) :
    OutboundProgram Unit := do
  let windowMs := settings.suspiciousTxnWindowMs
  let threshold := settings.suspiciousTxnThreshold
  if !settings.suspiciousTxnMonitoringEnabled || windowMs ≤ 0 || threshold ≤ 0 then
    return
  let key := buildKey pattern settings.suspiciousTxnMatchingFields
  let count ← RedisClient.incrementWithTtl key windowMs
  if count ≤ threshold then
    return
  throw (reject FspiopErrors.suspiciousTransactionPattern
    "Suspicious repetitive transaction pattern detected within the monitoring window.")

end SuspiciousTransactionMonitor

/-- `FspiopResponseSubscriber.DEFAULT_TIMEOUT_MS + 10_000` -/
def inFlightLockTtlMs : ℤ := 30000 + 10000

/-! The parts that both handlers repeat. -/

def getTransferRequest (transferId : String) : OutboundProgram TransferRequest := do
  match ← RedisClient.get transferId with
  | some transferRequest => return transferRequest
  | none =>
    throw (reject FspiopErrors.transferIdNotFound ("Transfer " ++ transferId ++ " was not found."))

def getFspId (routing : String) (party : Option Party) (label : String) :
    Except JsError String :=
  let fspId := ((party.bind (·.partyIdInfo)).bind (·.fspId)).map Js.trim
  match fspId with
  | some fspId =>
    if fspId = "" then
      .error (reject FspiopErrors.missingMandatoryElement
        (label ++ ".partyIdInfo.fspId is required to resolve " ++ routing ++ " routing."))
    else .ok fspId
  | none =>
    .error (reject FspiopErrors.missingMandatoryElement
      (label ++ ".partyIdInfo.fspId is required to resolve " ++ routing ++ " routing."))

def assertSourceCanActForPayer (requestSource : Option String) (payerFsp : String) :
    Except JsError Unit :=
  match requestSource.map Js.trim with
  | none => .ok ()
  | some normalizedSource =>
    if normalizedSource = "" ∨ normalizedSource = payerFsp then .ok ()
    else .error (reject FspiopErrors.payerPermissionError
      ("fspiop-source '" ++ normalizedSource ++
        "' is not authorized to act for payer FSP '" ++ payerFsp ++ "'."))

def toFspiopException : JsError → FspiopException
  | .axios error =>
    let info := error.errorInformationResponse.errorInformation
    let code := (info.bind (·.errorCode)).getD .empty
    let desc := if Js.blank (info.bind (·.errorDescription)) then "Communication error"
      else (info.bind (·.errorDescription)).getD ""
    let errorDef := (FspiopErrors.find code).getD FspiopErrors.communicationError
    FspiopException.ofMessage errorDef desc (info.bind (·.extensionList))
  | error => FspiopErrorTranslator.toFspiopException error

/-- `execute` of either handler: run `executeLocked` under the lock of the transfer. -/
def executeUnderLock {α : Type} (transferId : String) (executeLocked : OutboundProgram α) :
    OutboundProgram α := do
  match ← RedisClient.acquireLock transferId inFlightLockTtlMs with
  | none =>
    throw (reject FspiopErrors.genericClientError
      ("Transfer " ++ transferId ++ " is already being processed; ignoring duplicate request."))
  | some lockToken => executeLocked.tryFinally (RedisClient.releaseLock transferId lockToken)

/-- Send a request whose waiter is registered; a failure cancels the waiter. -/
def sendOrCancel (successSubject : String) (send : OutboundProgram Unit) :
    OutboundProgram Unit :=
  tryCatch send fun error => do
    let _ ← perform (.cancel successSubject)
    throw (.fspiop (toFspiopException error))

/-- The catch clause: audit the error, delete the cached transfer, throw whatever happens. -/
def auditAndThrow {α : Type} (transferId : String) (phase : InvocationPhase)
    (content : Js.Date → FspiopException → AuditContent) (error : JsError) :
    OutboundProgram α := do
  let fspiopException := toFspiopException error
  let occurredAt ← perform .now
  let audit := AuditTransactionPublisher.publish
    (.ofError phase .outbound (content occurredAt fspiopException))
  let _ ← audit.tryFinally ((RedisClient.delete transferId).tryFinally
    (throw (.fspiop fspiopException)))
  throw (.fspiop fspiopException)

namespace PutAcceptPartyCommand

structure Input where
  transferId : String
  acceptParty : Bool
  amount : String
  extensionList : Option ExtensionList
  requestSource : Option String
  deriving DecidableEq

structure Output where
  response : SendMoneyResponse
  callback : QuotesIDPutResponse
  deriving DecidableEq

end PutAcceptPartyCommand

namespace PutAcceptPartyHandler

def schemeFeeAmountKey : String := "scheme_fee_amount"

def feeCurrencyKey : String := "scheme_fee_currency"

def toOptionalValue (value : Option String) : Option String :=
  if Js.blank value then none else value.map Js.trim

def toTransactionType (transferRequest : TransferRequest) : TransactionType where
  scenario := some transferRequest.transactionType
  subScenario := toOptionalValue transferRequest.subScenario
  initiator := .payer
  initiatorType := transferRequest.fromParty.type.getD .consumer

def toQuotesPostRequest (transferId : String) (transferRequest : TransferRequest)
    (extensionList : Option ExtensionList) : QuotesPostRequest where
  quoteId := transferId
  transactionId := some transferId
  transactionRequestId := some transferId
  payee := transferRequest.payee
  payer := transferRequest.payer
  amountType := transferRequest.amountType
  amount := some ⟨transferRequest.currency, transferRequest.amount⟩
  fees := none
  transactionType := some (toTransactionType transferRequest)
  note := transferRequest.note
  expiration := none
  extensionList := extensionList

/-- The trimmed value of the first extension that has the key. -/
def findExtensionValue (extensions : List Extension) (targetKey : String) : Option String :=
  match extensions.find? fun ext =>
      (SendMoneyResponseMapper.keyOf ext).getD "" = Js.toLowerCase (Js.trim targetKey) with
  | some ext => ext.value.map Js.trim
  | none => none

def toSchemeFee (callback : QuotesIDPutResponse) (fallbackCurrency : Currency) :
    Except JsError Money := do
  let transferAmountCurrency := (callback.transferAmount.map (·.currency)).getD fallbackCurrency
  match FspiopCurrencies.get transferAmountCurrency with
  | none =>
    throw (reject FspiopErrors.payeeUnsupportedCurrency
      ("Unsupported currency " ++ transferAmountCurrency))
  | some transferAmountProfile =>
    let extensions := (callback.extensionList.bind (·.extension)).getD []
    let schemeFeeAmount := (findExtensionValue extensions schemeFeeAmountKey).getD "0"
    let profile := ((findExtensionValue extensions feeCurrencyKey).bind
      FspiopCurrencies.get).getD transferAmountProfile
    let serializedSchemeFeeAmount ← FspiopMoney.serialize schemeFeeAmount profile.scale
    let amount ← FspiopMoney.deserialize serializedSchemeFeeAmount profile.scale
    return ⟨profile.currency, amount⟩

def toPayeeFspFeeAmount (callback : QuotesIDPutResponse) (fallbackCurrency : Currency) :
    Except JsError String := do
  let payeeFspFeeAmount := (callback.payeeFspFee.map (·.amount)).map Js.trim
  match payeeFspFeeAmount with
  | some amount => if amount ≠ "" then return amount
  | none => pure ()
  return (← toSchemeFee callback fallbackCurrency).amount

/-- The fee amount is computed, and may throw, but the mapper does not read it. -/
def toResponse (transferRequest : TransferRequest) (callback : QuotesIDPutResponse) :
    Except JsError SendMoneyResponse := do
  let _ ← toPayeeFspFeeAmount callback transferRequest.currency
  return SendMoneyResponseMapper.toWaitingForQuoteAcceptance transferRequest callback.extensionList

def auditContent (transferId source destination : String) (quoteRequest : QuotesPostRequest)
    (occurredAt : Js.Date) : AuditContent :=
  { correlationId := transferId, payerFsp := source, payeeFsp := destination
    request := some (.quotes quoteRequest), occurredAt := occurredAt }

/-- The `try` block of `executeLocked`. -/
def requestQuote (settings : OutboundSettings) (transferId : String) (acceptParty : Bool)
    (transferRequest : TransferRequest) (source destination : String)
    (quoteRequest : QuotesPostRequest) : OutboundProgram PutAcceptPartyCommand.Output := do
  if !acceptParty then
    throw (reject FspiopErrors.payerRejectedTransactionRequest
      "Payer rejected party confirmation.")
  SuspiciousTransactionMonitor.assertNotSuspicious settings
    { payerFsp := source
      payerId := ((transferRequest.payer.bind (·.partyIdInfo)).map (·.partyIdentifier)).getD ""
      payeeFsp := destination
      payeeId := ((transferRequest.payee.bind (·.partyIdInfo)).map (·.partyIdentifier)).getD ""
      currency := transferRequest.currency
      amount := transferRequest.amount }
  let headers := FspiopHeaders.Quotes.forRequest (some quoteRequest.quoteId) source destination
    (← perform .now)
  let successSubject := FspiopPubSubSubjects.Quotes.forSuccess source quoteRequest.quoteId
  let errorSubject := FspiopPubSubSubjects.Quotes.forError source quoteRequest.quoteId
  lift (← perform (.waitFor successSubject errorSubject))
  sendOrCancel successSubject (FspiopAxios.postQuotes settings headers quoteRequest)
  let callback ← lift (← perform (.quotesCallback successSubject))
  let transferRequest := { transferRequest with quotes := some callback, transfer := none }
  let response ← lift (toResponse transferRequest callback)
  RedisClient.set settings transferId transferRequest
  let occurredAt ← perform .now
  AuditTransactionPublisher.publish (.ofResponse .quotes .outbound
    { auditContent transferId source destination quoteRequest occurredAt with
      response := some (.quotes callback) })
  return ⟨response, callback⟩

def executeLocked (settings : OutboundSettings) (input : PutAcceptPartyCommand.Input) :
    OutboundProgram PutAcceptPartyCommand.Output := do
  let transferId := input.transferId
  let transferRequest ← getTransferRequest transferId
  if transferRequest.quotes.isSome then
    throw (reject FspiopErrors.genericClientError
      ("Quote already completed for transfer " ++ transferId ++
        "; duplicate acceptParty ignored."))
  let source ← lift (getFspId "quote" transferRequest.payer "payer")
  lift (assertSourceCanActForPayer input.requestSource source)
  let extensionList ← lift (PayerProvidedFeesValidator.validate
    settings.checkPayerFeeAsMandatory settings.amountDecimalPlaces input.acceptParty
    input.extensionList)
  let transferRequest :=
    { transferRequest with amount := FspiopMoney.normalizeAmount input.amount }
  lift (AmountDecimalValidator.validate settings.amountDecimalPlaces
    (some transferRequest.amount))
  let destination ← lift (getFspId "quote" transferRequest.payee "payee")
  let quoteRequest := toQuotesPostRequest transferId transferRequest extensionList
  let createdAt ← perform .now
  AuditTransactionPublisher.publish (.ofRequest .quotes .outbound
    (auditContent transferId source destination quoteRequest createdAt))
  tryCatch
    (requestQuote settings transferId input.acceptParty transferRequest source destination
      quoteRequest)
    (auditAndThrow transferId .quotes fun occurredAt fspiopException =>
      { auditContent transferId source destination quoteRequest occurredAt with
        error := some fspiopException.toErrorObject })

def execute (settings : OutboundSettings) (input : PutAcceptPartyCommand.Input) :
    OutboundProgram PutAcceptPartyCommand.Output :=
  executeUnderLock input.transferId (executeLocked settings input)

end PutAcceptPartyHandler

namespace PutAcceptQuoteCommand

structure Input where
  transferId : String
  acceptQuote : Bool
  requestSource : Option String
  homeTransactionId : Option String
  deriving DecidableEq

structure Output where
  response : SendMoneyResponse
  callback : TransfersIDPutResponse
  deriving DecidableEq

end PutAcceptQuoteCommand

namespace PutAcceptQuoteHandler

def homeTransactionIdExtensionKey : String := "homeTransactionId"

def toExtensionList (quotes : QuotesIDPutResponse) (homeTransactionId : Option String) :
    Option ExtensionList :=
  let kept := ((quotes.extensionList.bind (·.extension)).getD []).filter fun item =>
    SendMoneyResponseMapper.keyOf item ≠ some (Js.toLowerCase homeTransactionIdExtensionKey)
  let extension : List Extension := match homeTransactionId with
    | some value =>
      if value = "" then kept
      else kept ++ [⟨some homeTransactionIdExtensionKey, some value⟩]
    | none => kept
  if extension = [] then none else some ⟨some extension⟩

def toTransfersPostRequest (transferId : String) (transferRequest : TransferRequest) :
    Except JsError TransfersPostRequest := do
  match transferRequest.quotes with
  | none =>
    throw (reject FspiopErrors.quoteIdNotFound
      ("Quote was not found for transfer " ++ transferId ++ "."))
  | some quotes =>
    let payerFsp ← getFspId "transfer" transferRequest.payer "payer"
    let payeeFsp ← getFspId "transfer" transferRequest.payee "payee"
    return { transferId := some transferId, payerFsp := some payerFsp, payeeFsp := some payeeFsp
             amount := quotes.transferAmount, ilpPacket := some quotes.ilpPacket
             condition := some quotes.condition, expiration := some quotes.expiration
             extensionList := toExtensionList quotes transferRequest.homeTransactionId }

def toResponse (transferRequest : TransferRequest) (callback : TransfersIDPutResponse) :
    SendMoneyResponse :=
  SendMoneyResponseMapper.toFinalState transferRequest callback.transferState
    callback.extensionList

def auditContent (transferId source destination : String)
    (transfersPostRequest : TransfersPostRequest) (occurredAt : Js.Date) : AuditContent :=
  { correlationId := transferId, payerFsp := source, payeeFsp := destination
    request := some (.transfers transfersPostRequest), occurredAt := occurredAt }

/-- The `try` block of `executeLocked`. -/
def requestTransfer (settings : OutboundSettings) (transferId : String) (acceptQuote : Bool)
    (transferRequest : TransferRequest) (source destination : String)
    (transfersPostRequest : TransfersPostRequest) :
    OutboundProgram PutAcceptQuoteCommand.Output := do
  if !acceptQuote then
    throw (reject FspiopErrors.genericPayerRejection "Payer rejected quote confirmation.")
  let headers := FspiopHeaders.Transfers.forRequest (some transferId) source destination
    (← perform .now)
  let successSubject := FspiopPubSubSubjects.Transfers.forSuccess source transferId
  let errorSubject := FspiopPubSubSubjects.Transfers.forError source transferId
  lift (← perform (.waitFor successSubject errorSubject))
  sendOrCancel successSubject (FspiopAxios.postTransfers settings headers transfersPostRequest)
  let callback ← lift (← perform (.transfersCallback successSubject))
  let transferRequest := { transferRequest with transfer := some callback }
  let response := toResponse transferRequest callback
  let occurredAt ← perform .now
  AuditTransactionPublisher.publish (.ofResponse .transfers .outbound
    { auditContent transferId source destination transfersPostRequest occurredAt with
      response := some (.transfers callback) })
  RedisClient.delete transferId
  return ⟨response, callback⟩

/-- Store the payer's own identifier with the cached transfer, when it sent one. -/
def storeHomeTransactionId (settings : OutboundSettings) (transferId : String)
    (homeTransactionId : Option String) (transferRequest : TransferRequest) :
    OutboundProgram TransferRequest := do
  match homeTransactionId with
  | none => return transferRequest
  | some value =>
    let transferRequest := { transferRequest with homeTransactionId := some value }
    RedisClient.set settings transferId transferRequest
    return transferRequest

def executeLocked (settings : OutboundSettings) (input : PutAcceptQuoteCommand.Input) :
    OutboundProgram PutAcceptQuoteCommand.Output := do
  let transferId := input.transferId
  let transferRequest ← getTransferRequest transferId
  if transferRequest.transfer.isSome then
    throw (reject FspiopErrors.genericClientError
      ("Transfer " ++ transferId ++ " already completed; duplicate acceptQuote ignored."))
  let source ← lift (getFspId "transfer" transferRequest.payer "payer")
  lift (assertSourceCanActForPayer input.requestSource source)
  let transferRequest ←
    storeHomeTransactionId settings transferId input.homeTransactionId transferRequest
  let destination ← lift (getFspId "transfer" transferRequest.payee "payee")
  let transfersPostRequest ← lift (toTransfersPostRequest transferId transferRequest)
  let createdAt ← perform .now
  lift (AmountDecimalValidator.validate settings.amountDecimalPlaces
    (transfersPostRequest.amount.map (·.amount)))
  AuditTransactionPublisher.publish (.ofRequest .transfers .outbound
    (auditContent transferId source destination transfersPostRequest createdAt))
  tryCatch
    (requestTransfer settings transferId input.acceptQuote transferRequest source destination
      transfersPostRequest)
    (auditAndThrow transferId .transfers fun occurredAt fspiopException =>
      { auditContent transferId source destination transfersPostRequest occurredAt with
        error := some fspiopException.toErrorObject })

def execute (settings : OutboundSettings) (input : PutAcceptQuoteCommand.Input) :
    OutboundProgram PutAcceptQuoteCommand.Output :=
  executeUnderLock input.transferId (executeLocked settings input)

end PutAcceptQuoteHandler
end Outbound
