import Pivotal.Fspiop.Agreement
import Pivotal.Fspiop.Dates
import Pivotal.Interledger.Interledger

/-! The settings of a connector, the checks on what it receives and the conversion of what it
catches. -/
namespace Connector
open Fspiop Interledger

structure ConnectorSettings where
  connectorId : String
  supportedCurrencies : List Currency
  ilpSecret : String
  deriving DecidableEq

def ConnectorSettings.isCurrencySupported (settings : ConnectorSettings) (currency : Currency) :
    Bool :=
  settings.supportedCurrencies.contains currency

namespace FspClient

/-- What the wallet answers to a quote. -/
structure PostQuotesOutput where
  transferAmount : Option Money
  payeeReceiveAmount : Option Money
  fees : Option ExtensionList
  deriving DecidableEq

end FspClient

namespace FspConnectorValidation

/-- `FspiopMoney.validate` of an optional amount. -/
def validateOptional (money : Option Money) : Except JsError (Option Money) :=
  match money with
  | none => .ok none
  | some money => (FspiopMoney.validate money).map some

/-- Returns the request with its amounts as `FspiopMoney.validate` leaves them. -/
def validatePostQuotesRequest (request : QuotesPostRequest) (settings : ConnectorSettings) :
    Except JsError QuotesPostRequest := do
  match request.amount with
  | none =>
    throw (reject FspiopErrors.missingMandatoryElement
      "postQuotesRequest.amount.currency is required")
  | some amount =>
    if !settings.isCurrencySupported amount.currency then
      throw (reject FspiopErrors.payeeUnsupportedCurrency
        ("Currency " ++ amount.currency ++ " is not supported by connector " ++
          settings.connectorId))
    let amount ← FspiopMoney.validate amount
    let fees ← validateOptional request.fees
    return { request with amount := some amount, fees := fees }

/-- Returns the two amounts as `FspiopMoney.validate` leaves them. -/
def validatePostQuotesOutput (output : FspClient.PostQuotesOutput)
    (settings : ConnectorSettings) : Except JsError (Money × Money) := do
  match output.transferAmount, output.payeeReceiveAmount with
  | none, _ =>
    throw (reject FspiopErrors.internalServerError
      "FspClient.postQuotes returned empty transferAmount")
  | _, none =>
    throw (reject FspiopErrors.internalServerError
      "FspClient.postQuotes returned empty payeeReceiveAmount")
  | some transferAmount, some payeeReceiveAmount =>
    if !settings.isCurrencySupported transferAmount.currency then
      throw (reject FspiopErrors.payeeUnsupportedCurrency
        ("Currency " ++ transferAmount.currency ++ " is not supported by connector " ++
          settings.connectorId))
    if transferAmount.currency ≠ payeeReceiveAmount.currency then
      throw (reject FspiopErrors.genericValidationError
        "transferAmount.currency and payeeReceiveAmount.currency must match.")
    let transferAmount ← FspiopMoney.validate transferAmount
    let payeeReceiveAmount ← FspiopMoney.validate payeeReceiveAmount
    return (transferAmount, payeeReceiveAmount)

/-- A field that has to be there and not blank. -/
def requireText (field : String) (value : Option String) : Except JsError String :=
  match value with
  | some text =>
    if Js.trim text = "" then
      .error (reject FspiopErrors.missingMandatoryElement
        ("postTransferRequest." ++ field ++ " is required"))
    else .ok text
  | none =>
    .error (reject FspiopErrors.missingMandatoryElement
      ("postTransferRequest." ++ field ++ " is required"))

/-- A transfer whose fields are all there, with its amount as `FspiopMoney.validate` leaves it. -/
structure ValidTransfer where
  transferId : String
  payeeFsp : String
  amount : Money
  ilpPacket : String
  condition : String
  expiration : String
  deriving DecidableEq

/-- The checks of `validatePostTransfersRequest` before that of the amount. -/
def requireTransferFields (request : TransfersPostRequest) (settings : ConnectorSettings) :
    Except JsError ValidTransfer := do
  let transferId ← requireText "transferId" request.transferId
  let payeeFsp ← requireText "payeeFsp" request.payeeFsp
  match request.amount with
  | none =>
    throw (reject FspiopErrors.missingMandatoryElement "postTransferRequest.amount is required")
  | some transferAmount =>
    if !settings.isCurrencySupported transferAmount.currency then
      throw (reject FspiopErrors.payeeUnsupportedCurrency
        ("Currency " ++ transferAmount.currency ++ " is not supported by connector " ++
          settings.connectorId))
    let ilpPacket ← requireText "ilpPacket" request.ilpPacket
    let condition ← requireText "condition" request.condition
    let expiration ← requireText "expiration" request.expiration
    return ⟨transferId, payeeFsp, transferAmount, ilpPacket, condition, expiration⟩

def validatePostTransfersRequest (request : TransfersPostRequest) (settings : ConnectorSettings) :
    Except JsError ValidTransfer := do
  let transfer ← requireTransferFields request settings
  let amount ← FspiopMoney.validate transfer.amount
  return { transfer with amount := amount }

/-! `FspiopMoney.validate` writes to the request, also when it throws. -/

def normalized (money : Money) : Money :=
  { money with amount := FspiopMoney.normalizeAmount money.amount }

/-- The request after `validatePostQuotesRequest`. -/
def quotesRequestAfter (request : QuotesPostRequest) (settings : ConnectorSettings) :
    QuotesPostRequest :=
  match request.amount with
  | none => request
  | some amount =>
    if !settings.isCurrencySupported amount.currency then request
    else
      { request with
        amount := some (normalized amount)
        fees := if (FspiopMoney.validate amount).isOk then request.fees.map normalized
          else request.fees }

/-- The request after `validatePostTransfersRequest`. -/
def transfersRequestAfter (request : TransfersPostRequest) (settings : ConnectorSettings) :
    TransfersPostRequest :=
  match requireTransferFields request settings with
  | .error _ => request
  | .ok transfer => { request with amount := some (normalized transfer.amount) }

/-- The currency profile of an amount. -/
def currencyProfile (currency : Currency) : Except JsError FspiopCurrencyProfile :=
  match FspiopCurrencies.get currency with
  | some profile => .ok profile
  | none =>
    .error (reject FspiopErrors.payeeUnsupportedCurrency ("Unsupported currency " ++ currency))

/-- A computation that fails with the given exception, whatever it throws. -/
def orReject {α : Type} (result : Option α) (definition : ErrorDefinition) (message : String) :
    Except JsError α :=
  match result with
  | some a => .ok a
  | none => .error (reject definition message)

/-- The packet of a transfer and the instant at which it expires. -/
structure UnwrappedTransfer where
  ilpPrepare : IlpPrepare
  ilpPacketAmount : ℤ
  expiration : Js.Date
  deriving DecidableEq

variable (platform : Platform)

/-- The checks of `validateAndUnwrapTransferIlpPacket` before it reads the clock. -/
def unwrapTransferIlpPacket (transfer : ValidTransfer) : Except JsError UnwrappedTransfer := do
  let profile ← currencyProfile transfer.amount.currency
  let ilpPrepare ← orReject (unwrap platform transfer.ilpPacket).toOption
    FspiopErrors.genericValidationError "postTransferRequest.ilpPacket is invalid"
  let ilpPacketAmount ← orReject (Js.parseBigInt ilpPrepare.amount)
    FspiopErrors.genericValidationError "ILP packet amount is invalid"
  let transferAmount ← FspiopMoney.serialize transfer.amount.amount profile.scale
  if ilpPacketAmount ≠ transferAmount then
    throw (reject FspiopErrors.modifiedRequest
      "Transfer amount and ILP packet amount must be the same")
  let requestExpirationEpoch ← orReject (Js.parseDate platform.otherDate transfer.expiration)
    FspiopErrors.genericValidationError "postTransferRequest.expiration is invalid"
  let ilpPacketExpirationEpoch ← orReject ilpPrepare.expiresAt
    FspiopErrors.genericValidationError "ILP packet expiration is invalid"
  if requestExpirationEpoch ≠ ilpPacketExpirationEpoch then
    throw (reject FspiopErrors.modifiedRequest
      "Transfer expiration and ILP packet expiration must be the same")
  return ⟨ilpPrepare, ilpPacketAmount, requestExpirationEpoch⟩

end FspConnectorValidation

namespace AuditErrorConverter

def toAuditError (error : JsError) : ErrorInformationObject :=
  (FspiopException.normalize error).toErrorObject

/-- An object that only looks like the exception of the wallet client is made one. -/
def toFspClientException : JsError → Option FspClientException
  | .fspClient e => some e
  | .plain e =>
    let code := e.code.getD ""
    let message := Js.trim e.message
    let description := Js.trim (e.description.getD "")
    let looksLikeFspClientException :=
      e.name = "FspClientException" ∨ code = "FSP_CLIENT_ERROR" ∨ description ≠ ""
    if looksLikeFspClientException then
      some ⟨if code ≠ "" then code else "FSP_CLIENT_ERROR",
        if message ≠ "" then message else description⟩
    else none
  | .fspiop _ => none
  | .axios _ => none
  | .other => none

/-- The message of the exception is its description. -/
def toFspError (error : JsError) : Option String :=
  (toFspClientException error).map (·.description)

end AuditErrorConverter
end Connector
