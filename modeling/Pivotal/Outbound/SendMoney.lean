import Pivotal.Outbound.AccessGuard
import Pivotal.Outbound.Handlers

/-! The endpoints of `/secured/sendmoney`: the guard before them, `POST`, which looks up the payee
and caches the transfer, and `PUT`, which has the payer accept the party and the quote. -/
namespace Outbound
open Fspiop Audit
open Async.Program (perform lift)

/-- `^[A-Za-z0-9_-]+$` -/
def isSimpleIdentifier (text : String) : Bool :=
  text ≠ "" && text.toList.all fun c => c.isAlphanum || c = '_' || c = '-'

/-- The body of a `POST` that has passed validation. -/
structure SendMoneyRequest where
  homeTransactionId : String
  fromParty : FspParty
  toParty : FspParty
  amountType : AmountType
  currency : Currency
  amount : String
  transactionType : TransactionScenario
  subScenario : String
  note : Option String
  payer_identified : ∃ fspId, fromParty.fspId = some fspId ∧ isSimpleIdentifier fspId = true
  payee_typed : toParty.idType.isSome = true

/-- The body of a `PUT` that has passed validation. -/
structure PutSendMoneyRequest where
  acceptParty : Option Bool
  amount : Option String
  extensionList : Option (List Extension ⊕ ExtensionList)
  acceptQuote : Option Bool
  homeTransactionId : Option String

structure PartiesRequest where
  partyIdType : PartyIdType
  partyId : String
  subId : Option String
  deriving DecidableEq

structure PartiesContent extends
    BaseContent PartiesRequest PartiesTypeIDPutResponse ErrorInformationObject where
  payerIdType : Option PartyIdType
  payerId : String
  payerSubId : Option String
  payeeIdType : PartyIdType
  payeeId : String
  payeeSubId : Option String
  transactionInitiatorType : Option TransactionInitiatorType := none
  transactionType : Option TransactionScenario := none
  subScenario : Option String := none
  amountType : Option AmountType := none
  payerHomeTransactionId : Option String := none
  quotingCurrency : Option Currency := none
  quotingAmount : Option String := none
  deriving DecidableEq

abbrev PartiesMessage := TransactionMessage PartiesContent

structure SendMoneySettings extends OutboundSettings where
  partiesUrl : String
  switchId : String
  deriving DecidableEq

/-- The calls of the endpoints. `partiesCallback` awaits the promise of `waitForParties`. -/
inductive SendMoneyOp where
  | access (op : AccessOp)
  | outbound (op : OutboundOp)
  | ulid
  | publishParties (message : PartiesMessage)
  | waitForParties (successSubject errorSubject hubErrorSubject : String)
  | getParties (url : String) (headers : FspiopHeadersMap) (partyIdType : PartyIdType)
      (partyId : String) (subId : Option String)
  | partiesCallback (successSubject : String)
  deriving DecidableEq

@[reducible] def SendMoneyAnswer : SendMoneyOp → Type
  | .access op => AccessAnswer op
  | .outbound op => OutboundAnswer op
  | .ulid => String
  | .publishParties _ => Except JsError Unit
  | .waitForParties _ _ _ => Except JsError Unit
  | .getParties _ _ _ _ _ => Except JsError Unit
  | .partiesCallback _ => Except JsError PartiesTypeIDPutResponse

abbrev SendMoneyProgram := Async.Program SendMoneyOp SendMoneyAnswer JsError

def ofAccess {α : Type} (p : AccessProgram α) : SendMoneyProgram α :=
  p.embed SendMoneyOp.access fun _ a => a

def ofOutbound {α : Type} (p : OutboundProgram α) : SendMoneyProgram α :=
  p.embed SendMoneyOp.outbound fun _ a => a

namespace PostSendMoneyHandler

/-- `value?.trim()`, if it is not empty. -/
def toOptionalValue (value : Option String) : Option String :=
  if Js.blank value then none else value.map Js.trim

def toSubId (idSubValue : Option String) : Option String := toOptionalValue idSubValue

def toPartyComplexName (fspParty : FspParty) : Option PartyComplexName :=
  if fspParty.firstName = none ∧ fspParty.middleName = none ∧ fspParty.lastName = none then none
  else some ⟨fspParty.firstName, fspParty.middleName, fspParty.lastName⟩

def toPartyPersonalInfo (fspParty : FspParty) : Option PartyPersonalInfo :=
  let complexName := toPartyComplexName fspParty
  if complexName = none ∧ fspParty.dateOfBirth = none then none
  else some ⟨complexName, fspParty.dateOfBirth⟩

def toExtensionList (extensionList : Option (List Extension)) : Option ExtensionList :=
  match extensionList with
  | none => none
  | some [] => none
  | some extensions => some ⟨some extensions⟩

def toPartyIdInfo (fspParty : FspParty) : PartyIdInfo where
  partyIdType := fspParty.idType
  partyIdentifier := fspParty.idValue
  partySubIdOrType := toOptionalValue fspParty.idSubValue
  fspId := fspParty.fspId
  extensionList := toExtensionList fspParty.extensionList

def toParty (fspParty : FspParty) : Party where
  partyIdInfo := some (toPartyIdInfo fspParty)
  merchantClassificationCode := fspParty.merchantClassificationCode
  name := fspParty.displayName
  personalInfo := toPartyPersonalInfo fspParty
  supportedCurrencies := none

def toFspParty (party : Party) (partyIdInfo : PartyIdInfo) : FspParty :=
  let complexName := party.personalInfo.bind (·.complexName)
  { type := none
    idType := partyIdInfo.partyIdType
    idValue := partyIdInfo.partyIdentifier
    idSubValue := toSubId partyIdInfo.partySubIdOrType
    displayName := party.name
    firstName := complexName.bind (·.firstName)
    middleName := complexName.bind (·.middleName)
    lastName := complexName.bind (·.lastName)
    dateOfBirth := party.personalInfo.bind (·.dateOfBirth)
    merchantClassificationCode := party.merchantClassificationCode
    fspId := toOptionalValue partyIdInfo.fspId
    extensionList := partyIdInfo.extensionList.bind (·.extension) }

def toTransferRequest (request : SendMoneyRequest) (party : Party) (partyIdInfo : PartyIdInfo)
    (transferId initiatedTimestamp : String) : TransferRequest where
  payer := some (toParty request.fromParty)
  payee := some party
  quotes := none
  transfer := none
  transferId := transferId
  homeTransactionId := some request.homeTransactionId
  initiatedTimestamp := initiatedTimestamp
  fromParty := request.fromParty
  toParty := toFspParty party partyIdInfo
  amountType := request.amountType
  currency := request.currency
  amount := request.amount
  transactionType := request.transactionType
  subScenario := some request.subScenario
  note := if Js.blank request.note then none else request.note
  supportedCurrencies := party.supportedCurrencies

/-- The destination, and the callback with it. -/
def resolveDestination (callback : PartiesTypeIDPutResponse) (requestedDestination : Option String) :
    Except JsError (String × PartyIdInfo × PartiesTypeIDPutResponse) := do
  let some partyIdInfo := callback.party.partyIdInfo | throw JsError.typeError
  match (toOptionalValue partyIdInfo.fspId).or requestedDestination with
  | none =>
    throw (reject FspiopErrors.missingMandatoryElement
      "Party lookup response must include the resolved payee fspId.")
  | some resolvedDestination =>
    let partyIdInfo := { partyIdInfo with fspId := some resolvedDestination }
    return (resolvedDestination, partyIdInfo,
      { callback with party := { callback.party with partyIdInfo := some partyIdInfo } })

/-- What every audit message of a lookup says. -/
def auditContent (correlationId source destination : String) (request : SendMoneyRequest)
    (occurredAt : Js.Date) : PartiesContent where
  correlationId := correlationId
  payerFsp := source
  payeeFsp := destination
  occurredAt := occurredAt
  payerIdType := request.fromParty.idType
  payerId := request.fromParty.idValue
  payerSubId := toSubId request.fromParty.idSubValue
  payeeIdType := request.toParty.idType.get request.payee_typed
  payeeId := request.toParty.idValue
  payeeSubId := toSubId request.toParty.idSubValue

def requestContent (correlationId source destination : String) (request : SendMoneyRequest)
    (createdAt : Js.Date) : PartiesContent :=
  { auditContent correlationId source destination request createdAt with
    transactionInitiatorType := request.fromParty.type
    transactionType := some request.transactionType
    subScenario := some request.subScenario
    amountType := some request.amountType
    payerHomeTransactionId := some request.homeTransactionId
    quotingCurrency := some request.currency
    quotingAmount := some request.amount
    request := some ⟨request.toParty.idType.get request.payee_typed, request.toParty.idValue,
      toSubId request.toParty.idSubValue⟩ }

def publish (message : PartiesMessage) : SendMoneyProgram Unit := do
  lift (← perform (.publishParties message))

/-- The `try` block of `execute`. -/
def lookUp (settings : SendMoneySettings) (transferId source : String) (destination : Option String)
    (request : SendMoneyRequest) (headers : FspiopHeadersMap) (createdAt : Js.Date) :
    SendMoneyProgram SendMoneyResponse := do
  let partyIdType := request.toParty.idType.get request.payee_typed
  let id := request.toParty.idValue
  let subId := toSubId request.toParty.idSubValue
  publish (.ofRequest .parties .outbound
    (requestContent transferId source (destination.getD "") request createdAt))
  let successSubject := FspiopPubSubSubjects.Parties.forSuccess source destination partyIdType id subId
  let errorSubject := FspiopPubSubSubjects.Parties.forError source destination partyIdType id subId
  let hubErrorSubject :=
    FspiopPubSubSubjects.Parties.forError source (some settings.switchId) partyIdType id subId
  lift (← perform (.waitForParties successSubject errorSubject hubErrorSubject))
  tryCatch (do lift (← perform (.getParties settings.partiesUrl headers partyIdType id subId)))
    fun error => do
      let _ ← perform (.outbound (.cancel successSubject))
      throw error
  let callback ← lift (← perform (.partiesCallback successSubject))
  let (resolvedDestination, partyIdInfo, callback) ← lift (resolveDestination callback destination)
  let some initiatedTimestamp := Js.toISOString createdAt
    | throw (.plain ⟨"RangeError", "Invalid time value", none, none⟩)
  let cachedTransaction :=
    toTransferRequest request callback.party partyIdInfo transferId initiatedTimestamp
  ofOutbound (RedisClient.set settings.toOutboundSettings transferId cachedTransaction)
  let occurredAt ← perform (.outbound .now)
  publish (.ofResponse .parties .outbound
    { auditContent transferId source resolvedDestination request occurredAt with
      response := some callback })
  return SendMoneyResponseMapper.toWaitingForPartyAcceptance cachedTransaction

/-- The catch clause: audit the error, delete the cached transfer, throw whatever happens. -/
def auditAndThrow (transferId source auditDestination : String) (request : SendMoneyRequest)
    (error : JsError) : SendMoneyProgram SendMoneyResponse := do
  let fspiopException := toFspiopException error
  let occurredAt ← perform (.outbound .now)
  let audit := publish (.ofError .parties .outbound
    { auditContent transferId source auditDestination request occurredAt with
      error := some fspiopException.toErrorObject })
  let _ ← audit.tryFinally ((ofOutbound (RedisClient.delete transferId)).tryFinally
    (throw (.fspiop fspiopException)))
  throw (.fspiop fspiopException)

def execute (settings : SendMoneySettings) (transferId source : String)
    (request : SendMoneyRequest) : SendMoneyProgram SendMoneyResponse := do
  let destination := toOptionalValue request.toParty.fspId
  let createdAt ← perform (.outbound .now)
  lift (AmountDecimalValidator.validate settings.amountDecimalPlaces (some request.amount))
  let date ← perform (.outbound .now)
  let headers := FspiopHeaders.Parties.forRequest (some transferId) source destination date
  tryCatch (lookUp settings transferId source destination request headers createdAt)
    (auditAndThrow transferId source (destination.getD "") request)

end PostSendMoneyHandler

namespace SendMoneyController

def toOptionalSource (source : Option String) : Option String :=
  PostSendMoneyHandler.toOptionalValue source

def toSource (source : Option String) (request : SendMoneyRequest) : Except JsError String :=
  let payerFsp := request.fromParty.fspId.map Js.trim
  match toOptionalSource source with
  | some normalizedSource =>
    if payerFsp.getD "" ≠ "" ∧ some normalizedSource ≠ payerFsp then
      .error (reject FspiopErrors.payerPermissionError
        ("fspiop-source '" ++ normalizedSource ++ "' is not authorized to act for payer FSP '" ++
          payerFsp.getD "" ++ "'."))
    else .ok normalizedSource
  | none =>
    if payerFsp.getD "" = "" then
      .error (reject FspiopErrors.missingMandatoryElement
        "fspiop-source header or request.from.fspId is required.")
    else .ok (payerFsp.getD "")

/-- A bare list or a wrapped one, dropped when it is empty. -/
def toExtensionList (extensionList : Option (List Extension ⊕ ExtensionList)) :
    Option ExtensionList :=
  match extensionList with
  | none => none
  | some (.inl extension) => PostSendMoneyHandler.toExtensionList (some extension)
  | some (.inr wrapped) => PostSendMoneyHandler.toExtensionList wrapped.extension

def post (settings : SendMoneySettings) (source : Option String) (request : SendMoneyRequest) :
    SendMoneyProgram SendMoneyResponse := do
  let correlationId ← perform .ulid
  let payerFsp ← lift (toSource source request)
  PostSendMoneyHandler.execute settings correlationId payerFsp request

def put (settings : OutboundSettings) (source : Option String) (transferId : String)
    (request : PutSendMoneyRequest) : OutboundProgram SendMoneyResponse := do
  match request.acceptParty, request.acceptQuote with
  | some acceptParty, _ =>
    let output ← PutAcceptPartyHandler.execute settings
      ⟨transferId, acceptParty, request.amount.getD "", toExtensionList request.extensionList,
        toOptionalSource source⟩
    return output.response
  | none, some acceptQuote =>
    let output ← PutAcceptQuoteHandler.execute settings
      ⟨transferId, acceptQuote, toOptionalSource source, request.homeTransactionId⟩
    return output.response
  | none, none =>
    throw (.fspiop (.ofExtensions FspiopErrors.missingMandatoryElement
      (some ⟨some [⟨some "", some "acceptParty or acceptQuote is required."⟩]⟩)))

end SendMoneyController

inductive SendMoneyEndpoint where
  | post
  | put (transferId : String)
  deriving DecidableEq

/-- A request with the access keys that are registered when it is received. -/
structure SendMoneyJob (ν κ : Type) where
  keys : AccessKeys κ
  endpoint : SendMoneyEndpoint
  request : Request ν

/-- The guard, and the validation that makes typed bodies. -/
structure SendMoneyApp (ν κ : Type) where
  guard : AccessGuard ν κ
  settings : SendMoneySettings
  validatePost : Request ν → Except JsError SendMoneyRequest
  validatePut : Request ν → Except JsError PutSendMoneyRequest

namespace SendMoneyApp

variable {ν κ : Type} (app : SendMoneyApp ν κ)

/-- What runs once the guard has let a request through. -/
def serve (job : SendMoneyJob ν κ) : SendMoneyProgram SendMoneyResponse := do
  let source := job.request.headers FspiopHeaders.Names.fspiopSource
  match job.endpoint with
  | .post => do
    let body ← lift (app.validatePost job.request)
    SendMoneyController.post app.settings source body
  | .put transferId => do
    let body ← lift (app.validatePut job.request)
    ofOutbound (SendMoneyController.put app.settings.toOutboundSettings source transferId body)

def handle (job : SendMoneyJob ν κ) : SendMoneyProgram SendMoneyResponse := do
  let activated ← ofAccess (app.guard.canActivate job.keys ⟨false, false⟩ job.request)
  if ¬ activated then
    throw (.ofMessage "Forbidden resource")
  app.serve job

end SendMoneyApp
end Outbound
