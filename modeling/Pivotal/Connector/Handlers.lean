import Pivotal.Connector.FspConnector

/-! The commands of the connector. Each one asks the wallet, sends the callback of the hub and
audits what it did; a failure on the way sends the error callback instead. -/
namespace Connector
open Fspiop Interledger Audit
open Async.Program (perform lift)

structure FspiopSettings where
  partiesUrl : String
  quotesUrl : String
  transfersUrl : String
  deriving DecidableEq

structure Environment where
  platform : Platform
  connector : ConnectorSettings
  fspiop : FspiopSettings

namespace AuditTransactionPublisher

def publish (message : AuditMessage) : ConnectorProgram Unit := do
  lift (← perform (.publish message))

end AuditTransactionPublisher

namespace FspiopAxios

/-- An optional part of a template literal. -/
def interpolate (value : Option String) : String := value.getD "undefined"

def partiesUrl (baseUrl : String) (type : PartyIdType) (id : String) (subId : Option String) :
    String :=
  let url := baseUrl ++ "/parties/" ++ type.text ++ "/" ++ id
  match subId with
  | some subId => if subId = "" then url else url ++ "/" ++ subId
  | none => url

def putParties (baseUrl : String) (headers : FspiopHeadersMap) (type : PartyIdType) (id : String)
    (body : PartiesTypeIDPutResponse) (subId : Option String) : ConnectorProgram Unit := do
  let answer ← perform (.putParties (partiesUrl baseUrl type id subId) headers body)
  lift (Delivery.result answer)

def putPartiesError (baseUrl : String) (headers : FspiopHeadersMap) (type : PartyIdType)
    (id : String) (response : ErrorInformationObject) (subId : Option String) :
    ConnectorProgram Unit := do
  let url := partiesUrl baseUrl type id subId ++ "/error"
  let answer ← perform (.putPartiesError url headers response)
  lift (Delivery.result answer)

def putQuotes (baseUrl : String) (headers : FspiopHeadersMap) (id : String)
    (body : QuotesIDPutResponse) : ConnectorProgram Unit := do
  let answer ← perform (.putQuotes (baseUrl ++ "/quotes/" ++ id) headers body)
  lift (Delivery.result answer)

def putQuotesError (baseUrl : String) (headers : FspiopHeadersMap) (id : String)
    (response : ErrorInformationObject) : ConnectorProgram Unit := do
  let answer ← perform (.putQuotesError (baseUrl ++ "/quotes/" ++ id ++ "/error") headers response)
  lift (Delivery.result answer)

def putTransfers (baseUrl : String) (headers : FspiopHeadersMap) (id : Option String)
    (body : TransfersIDPutResponse) : ConnectorProgram Unit := do
  let answer ← perform (.putTransfers (baseUrl ++ "/transfers/" ++ interpolate id) headers body)
  lift (Delivery.result answer)

def putTransfersError (baseUrl : String) (headers : FspiopHeadersMap) (id : Option String)
    (response : ErrorInformationObject) : ConnectorProgram Unit := do
  let url := baseUrl ++ "/transfers/" ++ interpolate id ++ "/error"
  let answer ← perform (.putTransfersError url headers response)
  lift (Delivery.result answer)

end FspiopAxios

/-! The parts that the handlers repeat. -/

def firstNonBlank (values : List (Option String)) : Option String :=
  (values.find? fun value => !Js.blank value).bind fun value => value.map Js.trim

/-- The identifier of a transaction, else the correlation of its trace. -/
def resolveCorrelationId (correlationId : Option String)
    (transactionIdentifiers : List (Option String)) : Except JsError String :=
  match firstNonBlank transactionIdentifiers, firstNonBlank [correlationId] with
  | some transactionIdentifier, _ => .ok transactionIdentifier
  | none, some traceCorrelationId => .ok traceCorrelationId
  | none, none =>
    .error (reject FspiopErrors.missingMandatoryElement
      "traceparent correlationId or transaction identifier is required")

/-- `correlationId?.trim() || auditCorrelationId` -/
def traceparent (correlationId : Option String) (auditCorrelationId : String) : String :=
  (firstNonBlank [correlationId]).getD auditCorrelationId

/-- The error audit of a failed command. -/
def toErrorMessage (phase : InvocationPhase) (content : Js.Date → AuditContent)
    (callbackError : JsError) (callbackFspError : Option String) (occurredAt : Js.Date) :
    AuditMessage :=
  .ofError phase .connector { content occurredAt with
    error := some ⟨AuditErrorConverter.toAuditError callbackError, callbackFspError⟩ }

/-- The catch clause: when the error callback fails too, its failure is the one reported, but
the error of the wallet stays. A failure of the audit is logged and swallowed. -/
def reportFailure (phase : InvocationPhase) (content : Js.Date → AuditContent)
    (putError : ErrorInformationObject → ConnectorProgram Unit) (error : JsError) :
    ConnectorProgram Unit := do
  let fspError := AuditErrorConverter.toFspError error
  let (callbackError, callbackFspError) ← tryCatch
    (do
      putError (AuditErrorConverter.toAuditError error)
      return (error, fspError))
    (fun putError => return (putError, fspError <|> AuditErrorConverter.toFspError putError))
  let occurredAt ← perform .now
  tryCatch
    (AuditTransactionPublisher.publish
      (toErrorMessage phase content callbackError callbackFspError occurredAt))
    (fun _ => return)
  throw (.fspiop (FspiopException.normalize callbackError))

/-- The `try` block: the wallet, the callback and its audit. -/
def callback {Response : Type} (phase : InvocationPhase) (content : Js.Date → AuditContent)
    (toAudit : Response → AuditResponse) (connector : ConnectorProgram Response)
    (put : Response → ConnectorProgram Unit) : ConnectorProgram Unit := do
  let response ← connector
  put response
  let occurredAt ← perform .now
  AuditTransactionPublisher.publish
    (.ofResponse phase .connector { content occurredAt with response := some (toAudit response) })

namespace PerformGetPartiesCommand

structure Input where
  correlationId : Option String
  payerFsp : String
  payeeFsp : String
  partyIdType : PartyIdType
  partyId : String
  subId : Option String
  deriving DecidableEq

end PerformGetPartiesCommand

namespace PerformGetPartiesHandler

/-- The identifier is handed back untrimmed. -/
def resolveCorrelationId (correlationId : Option String) : Except JsError String :=
  match correlationId with
  | some id =>
    if Js.trim id = "" then
      .error (reject FspiopErrors.missingMandatoryElement "traceparent correlationId is required")
    else .ok id
  | none =>
    .error (reject FspiopErrors.missingMandatoryElement "traceparent correlationId is required")

def auditContent (input : PerformGetPartiesCommand.Input) (auditCorrelationId : String)
    (occurredAt : Js.Date) : AuditContent :=
  { correlationId := auditCorrelationId, payerFsp := input.payerFsp, payeeFsp := input.payeeFsp
    request := some (.parties input.partyIdType input.partyId input.subId)
    occurredAt := occurredAt }

def execute (env : Environment) (input : PerformGetPartiesCommand.Input) :
    ConnectorProgram Unit := do
  let createdAt ← perform .now
  let auditCorrelationId ← lift (resolveCorrelationId input.correlationId)
  let headers := FspiopHeaders.Parties.forResult (some auditCorrelationId) input.payerFsp
    env.connector.connectorId (← perform .now)
  let content := auditContent input auditCorrelationId
  AuditTransactionPublisher.publish (.ofRequest .parties .connector (content createdAt))
  tryCatch
    (callback .parties content .parties
      (FspConnector.getParties input.partyIdType input.partyId input.subId)
      fun response => FspiopAxios.putParties env.fspiop.partiesUrl headers input.partyIdType
        input.partyId response input.subId)
    (reportFailure .parties content fun response => FspiopAxios.putPartiesError
      env.fspiop.partiesUrl headers input.partyIdType input.partyId response input.subId)

end PerformGetPartiesHandler

namespace PerformPostQuotesCommand

structure Input where
  correlationId : Option String
  payerFsp : String
  payeeFsp : String
  request : QuotesPostRequest
  deriving DecidableEq

end PerformPostQuotesCommand

namespace PerformPostQuotesHandler

def auditContent (input : PerformPostQuotesCommand.Input) (auditCorrelationId : String)
    (request : QuotesPostRequest) (occurredAt : Js.Date) : AuditContent :=
  { correlationId := auditCorrelationId, payerFsp := input.payerFsp, payeeFsp := input.payeeFsp
    request := some (.quotes request), occurredAt := occurredAt }

def execute (env : Environment) (input : PerformPostQuotesCommand.Input) :
    ConnectorProgram Unit := do
  let request := input.request
  let createdAt ← perform .now
  let auditCorrelationId ← lift (resolveCorrelationId input.correlationId
    [request.transactionId, request.transactionRequestId, some request.quoteId])
  let headers := FspiopHeaders.Quotes.forResult
    (some (traceparent input.correlationId auditCorrelationId)) input.payerFsp
    env.connector.connectorId (← perform .now)
  AuditTransactionPublisher.publish
    (.ofRequest .quotes .connector (auditContent input auditCorrelationId request createdAt))
  -- From here on the request has the amounts that its validation wrote.
  let content := auditContent input auditCorrelationId
    (FspConnectorValidation.quotesRequestAfter request env.connector)
  tryCatch
    (callback .quotes content .quotes
      (FspConnector.postQuotes env.platform env.connector request)
      fun response => FspiopAxios.putQuotes env.fspiop.quotesUrl headers request.quoteId response)
    (reportFailure .quotes content fun response => FspiopAxios.putQuotesError
      env.fspiop.quotesUrl headers request.quoteId response)

end PerformPostQuotesHandler

namespace PerformPostTransfersCommand

structure Input where
  correlationId : Option String
  payerFsp : String
  payeeFsp : String
  request : TransfersPostRequest
  deriving DecidableEq

end PerformPostTransfersCommand

namespace PerformPostTransfersHandler

def auditContent (input : PerformPostTransfersCommand.Input) (auditCorrelationId : String)
    (request : TransfersPostRequest) (occurredAt : Js.Date) : AuditContent :=
  { correlationId := auditCorrelationId, payerFsp := input.payerFsp, payeeFsp := input.payeeFsp
    request := some (.transfers request), occurredAt := occurredAt }

def execute (env : Environment) (input : PerformPostTransfersCommand.Input) :
    ConnectorProgram Unit := do
  let request := input.request
  let createdAt ← perform .now
  let auditCorrelationId ← lift (resolveCorrelationId input.correlationId [request.transferId])
  let headers := FspiopHeaders.Transfers.forResult
    (some (traceparent input.correlationId auditCorrelationId)) input.payerFsp
    env.connector.connectorId (← perform .now)
  AuditTransactionPublisher.publish
    (.ofRequest .transfers .connector (auditContent input auditCorrelationId request createdAt))
  let content := auditContent input auditCorrelationId
    (FspConnectorValidation.transfersRequestAfter request env.connector)
  tryCatch
    (callback .transfers content .transfers
      (FspConnector.postTransfers env.platform env.connector request)
      fun response => FspiopAxios.putTransfers env.fspiop.transfersUrl headers request.transferId
        response)
    (reportFailure .transfers content fun response => FspiopAxios.putTransfersError
      env.fspiop.transfersUrl headers request.transferId response)

end PerformPostTransfersHandler
end Connector
