import Pivotal.Audit.Ingestion
import Pivotal.Connector.Handlers
import Pivotal.Outbound.SendMoney

/-! The commands that the consumer makes of what the outbound handlers and the connector
publish. -/
namespace Audit
open Fspiop

/-- The JSON that is stored and never read. -/
inductive PublishedJson where
  | partiesRequest (body : Outbound.PartiesRequest)
  | errorInformation (body : ErrorInformationObject)
  | connectorError (body : Connector.AuditError)
  deriving DecidableEq

section Common

variable {Request Response Error : Type}

def toCommandInput (gateway : InvocationGateway) (content : BaseContent Request Response Error) :
    CommandInput where
  correlationId := content.correlationId
  payerFsp := content.payerFsp
  payeeFsp := content.payeeFsp
  gateway := gateway
  occurredAt := some content.occurredAt

end Common

/-- `dispatchParties`, of a message of `POST /sendmoney`. -/
def ofPartiesMessage (message : Outbound.PartiesMessage) : Option (AuditCommand PublishedJson) :=
  let content := message.content
  let input : PartiesInput :=
    { toCommandInput message.gateway content.toBaseContent with
      payerIdType := content.payerIdType, payerId := some content.payerId
      payerSubId := content.payerSubId, payeeIdType := some content.payeeIdType
      payeeId := some content.payeeId, payeeSubId := content.payeeSubId }
  match message.action with
  | .request => some (.partiesRequest { input with
      transactionInitiatorType := content.transactionInitiatorType
      transactionType := content.transactionType
      subScenario := content.subScenario
      request := content.request.map PublishedJson.partiesRequest
      payerHomeTransactionId := content.payerHomeTransactionId
      quotingCurrency := content.quotingCurrency
      quotingAmount := content.quotingAmount
      amountType := content.amountType })
  | .response => some (.partiesResponse { input with response := content.response })
  | .error => some (.partiesError { input with
      error := content.error.map PublishedJson.errorInformation })
  | .resolved => none

/-- `dispatchQuotes` and `dispatchTransfers`, of a message of `PUT /sendmoney`. -/
def ofOutboundMessage (message : Outbound.AuditMessage) : Option (AuditCommand PublishedJson) :=
  let content := message.content
  let input := toCommandInput message.gateway content
  let error := content.error.map PublishedJson.errorInformation
  match message.phase, message.action, content.request, content.response with
  | .quotes, .request, some (.quotes request), _ =>
    some (.quotesRequest { input with request := some request })
  | .quotes, .response, some (.quotes request), some (.quotes response) =>
    some (.quotesResponse { input with request := some request, response := some response })
  | .quotes, .error, some (.quotes request), _ =>
    some (.quotesError { input with request := some request, error := error })
  | .transfers, .request, some (.transfers request), _ =>
    some (.transfersRequest { input with request := some (.post request) })
  | .transfers, .response, some (.transfers request), some (.transfers response) =>
    some (.transfersResponse { input with
      request := some (.post request), response := some response })
  | .transfers, .error, some (.transfers request), _ =>
    some (.transfersError { input with request := some (.post request), error := error })
  | _, _, _, _ => none

/-- The same of a message of the connector. What it says of a lookup names no payer. -/
def ofConnectorMessage (message : Connector.AuditMessage) : Option (AuditCommand PublishedJson) :=
  let content := message.content
  let input := toCommandInput message.gateway content
  let error := content.error.map PublishedJson.connectorError
  let parties (payeeIdType : PartyIdType) (payeeId : String) (payeeSubId : Option String) :
      PartiesInput :=
    { input with payerIdType := none, payerId := none, payerSubId := none
                 payeeIdType := some payeeIdType, payeeId := some payeeId
                 payeeSubId := payeeSubId }
  match message.phase, message.action, content.request, content.response with
  | .parties, .request, some (.parties type id subId), _ =>
    some (.partiesRequest { parties type id subId with })
  | .parties, .response, some (.parties type id subId), some (.parties response) =>
    some (.partiesResponse { parties type id subId with response := some response })
  | .parties, .error, some (.parties type id subId), _ =>
    some (.partiesError { parties type id subId with error := error })
  | .quotes, .request, some (.quotes request), _ =>
    some (.quotesRequest { input with request := some request })
  | .quotes, .response, some (.quotes request), some (.quotes response) =>
    some (.quotesResponse { input with request := some request, response := some response })
  | .quotes, .error, some (.quotes request), _ =>
    some (.quotesError { input with request := some request, error := error })
  | .transfers, .request, some (.transfers request), _ =>
    some (.transfersRequest { input with request := some (.post request) })
  | .transfers, .response, some (.transfers request), some (.transfers response) =>
    some (.transfersResponse { input with
      request := some (.post request), response := some response })
  | .transfers, .error, some (.transfers request), _ =>
    some (.transfersError { input with request := some (.post request), error := error })
  | _, _, _, _ => none

/-- The events of the outbound handlers and of the connector. -/
inductive IsPublished (command : AuditCommand PublishedJson) : Prop where
  | parties (message : Outbound.PartiesMessage) (h : ofPartiesMessage message = some command)
  | outbound (message : Outbound.AuditMessage) (h : ofOutboundMessage message = some command)
  | connector (message : Connector.AuditMessage) (h : ofConnectorMessage message = some command)

/-- What is published says when it happened. -/
theorem IsPublished.occurredAt_isSome {command : AuditCommand PublishedJson}
    (h : IsPublished command) : command.occurredAt.isSome = true := by
  cases h with
  | parties message h =>
    simp only [ofPartiesMessage] at h
    split at h <;> cases h <;> rfl
  | outbound message h =>
    simp only [ofOutboundMessage] at h
    split at h <;> cases h <;> rfl
  | connector message h =>
    simp only [ofConnectorMessage] at h
    split at h <;> cases h <;> rfl

end Audit
