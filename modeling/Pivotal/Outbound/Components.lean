import Pivotal.Fspiop.Dto

/-! The cached transfer, the response sent to the payer and the checks that the two
accept handlers apply. -/
namespace Outbound
open Fspiop

structure FspParty where
  type : Option TransactionInitiatorType
  idType : Option PartyIdType
  idValue : String
  idSubValue : Option String
  displayName : Option String
  firstName : Option String
  middleName : Option String
  lastName : Option String
  dateOfBirth : Option String
  merchantClassificationCode : Option String
  fspId : Option String
  extensionList : Option (List Extension)
  deriving DecidableEq

/-- What Redis holds under a transfer id. -/
structure TransferRequest where
  payer : Option Party
  payee : Option Party
  quotes : Option QuotesIDPutResponse
  transfer : Option TransfersIDPutResponse
  transferId : String
  homeTransactionId : Option String
  initiatedTimestamp : String
  fromParty : FspParty
  toParty : FspParty
  amountType : AmountType
  currency : Currency
  amount : String
  transactionType : TransactionScenario
  subScenario : Option String
  note : Option String
  supportedCurrencies : Option (List String)
  deriving DecidableEq

inductive SuspiciousTransactionMatchField where
  | payerFspId | payerIdValue | payeeFspId | payeeIdValue | amount | currency
  deriving DecidableEq

structure OutboundSettings where
  redisCacheItemTimeoutMs : ℤ
  quotesUrl : String
  transfersUrl : String
  amountDecimalPlaces : ℕ
  checkPayerFeeAsMandatory : Bool
  suspiciousTxnMonitoringEnabled : Bool
  suspiciousTxnWindowMinutes : ℤ
  suspiciousTxnThreshold : ℤ
  suspiciousTxnMatchingFields : List SuspiciousTransactionMatchField
  deriving DecidableEq

def OutboundSettings.suspiciousTxnWindowMs (settings : OutboundSettings) : ℤ :=
  settings.suspiciousTxnWindowMinutes * 60000

inductive StateEnum where
  | waitingForPartyAcceptance | waitingForQuoteAcceptance | pending | completed | aborted
  deriving DecidableEq

structure SendMoneyResponse where
  transferId : String
  homeTransactionId : Option String
  fromParty : FspParty
  toParty : FspParty
  amountType : AmountType
  transactionType : TransactionScenario
  subScenario : Option String
  note : Option String
  amount : String
  payeeReceiveAmount : Option String
  transferAmount : Option String
  payeeFee : String
  payerFee : String
  schemeFee : String
  currency : Currency
  currentState : StateEnum
  initiatedTimestamp : String
  direction : String
  supportedCurrencies : Option (List String)
  extensionList : Option (List Extension)
  deriving DecidableEq

namespace SendMoneyResponseMapper

def direction : String := "OUTGOING"

def feeExtensionKeys : List String := ["payeefee", "payerfee", "schemefee"]

/-- `ext.key?.trim().toLowerCase()` -/
def keyOf (ext : Extension) : Option String := ext.key.map fun k => Js.toLowerCase (Js.trim k)

/-- The entries of the map in the order they are set. -/
def indexExtensions (extensionList : Option (List Extension)) : List (String × String) :=
  (extensionList.getD []).filterMap fun ext =>
    match keyOf ext, ext.value.map Js.trim with
    | some key, some value => if key = "" ∨ value = "" then none else some (key, value)
    | _, _ => none

/-- `map.get(key) ?? "0"`: the last entry set under the key. -/
def feeOf (extensionList : Option (List Extension)) (key : String) : String :=
  ((indexExtensions extensionList).reverse.lookup key).getD "0"

def removeFeeExtensions (extensionList : Option (List Extension)) : Option (List Extension) :=
  extensionList.map fun exts => exts.filter fun ext => !feeExtensionKeys.contains ((keyOf ext).getD "")

def toResponse (transferRequest : TransferRequest) (currentState : StateEnum)
    (extensionList : Option (List Extension)) : SendMoneyResponse where
  transferId := transferRequest.transferId
  homeTransactionId := transferRequest.homeTransactionId
  fromParty := transferRequest.fromParty
  toParty := transferRequest.toParty
  amountType := transferRequest.amountType
  transactionType := transferRequest.transactionType
  subScenario := transferRequest.subScenario
  note := transferRequest.note
  amount := transferRequest.amount
  payeeReceiveAmount :=
    (transferRequest.quotes.bind (·.payeeReceiveAmount)).map (·.amount)
  transferAmount := (transferRequest.quotes.bind (·.transferAmount)).map (·.amount)
  payeeFee := feeOf extensionList "payeefee"
  payerFee := feeOf extensionList "payerfee"
  schemeFee := feeOf extensionList "schemefee"
  currency := transferRequest.currency
  currentState := currentState
  initiatedTimestamp := transferRequest.initiatedTimestamp
  direction := direction
  supportedCurrencies := transferRequest.supportedCurrencies
  extensionList := removeFeeExtensions extensionList

def toWaitingForPartyAcceptance (transferRequest : TransferRequest) : SendMoneyResponse :=
  toResponse transferRequest .waitingForPartyAcceptance none

def toWaitingForQuoteAcceptance (transferRequest : TransferRequest)
    (extensionList : Option ExtensionList) : SendMoneyResponse :=
  toResponse transferRequest .waitingForQuoteAcceptance (extensionList.bind (·.extension))

def toFinalState (transferRequest : TransferRequest) (transferState : TransferState)
    (extensionList : Option ExtensionList) : SendMoneyResponse :=
  toResponse transferRequest (if transferState = .aborted then .aborted else .completed)
    (extensionList.bind (·.extension))

end SendMoneyResponseMapper

namespace AmountDecimalValidator

/-- Throws when the normalised amount has more decimals than allowed. -/
def validate (allowedDecimalPlaces : ℕ) (amount : Option String) : Except JsError Unit :=
  match amount with
  | none => .ok ()
  | some amountValue =>
    if Js.trim amountValue = "" then .ok ()
    else if allowedDecimalPlaces < FspiopMoney.scaleOf (FspiopMoney.normalizeAmount amountValue).toList
    then .error (.fspiop (.ofExtensions FspiopErrors.roundingValueError))
    else .ok ()

end AmountDecimalValidator

namespace PayerProvidedFeesValidator

def errorDescription : String :=
  "Fee validation failed. Required fee information was not provided by the Payer DFSP."

def requiredExtensionKeys : List String := ["payerProvidedSchemeFee", "payerProvidedPayerFee"]

def normalizeAndValidateFee (allowedDecimalPlaces : ℕ) (fieldName : String)
    (value : Option String) : Except JsError String := do
  match value with
  | none =>
    throw (reject FspiopErrors.malformedSyntax (fieldName ++ " must be a string or number."))
  | some value =>
    let normalized := FspiopMoney.normalizeAmount value
    if !FspiopMoney.amountPattern normalized.toList then
      throw (reject FspiopErrors.malformedSyntax (fieldName ++ " must be a valid FSPIOP amount."))
    AmountDecimalValidator.validate allowedDecimalPlaces (some normalized)
    return normalized

/-- Rewrite the value of the first extension that has the key. -/
def updateFee (allowedDecimalPlaces : ℕ) (extensions : List Extension) (key : String) :
    Except JsError (List Extension) :=
  match extensions with
  | [] => .ok []
  | ext :: rest =>
    if ext.key = some key then do
      let value ← normalizeAndValidateFee allowedDecimalPlaces key ext.value
      return { ext with value := some value } :: rest
    else do
      let rest ← updateFee allowedDecimalPlaces rest key
      return ext :: rest

/-- The extension list with its two required fees normalised in place. -/
def validate (mandatory : Bool) (allowedDecimalPlaces : ℕ) (acceptParty : Bool)
    (extensionList : Option ExtensionList) : Except JsError (Option ExtensionList) := do
  if !acceptParty || !mandatory then
    return extensionList
  let extensions := (extensionList.bind (·.extension)).getD []
  if requiredExtensionKeys.any fun key => !extensions.any (·.key = some key) then
    throw (reject FspiopErrors.missingExtensionParameter errorDescription)
  let extensions ← requiredExtensionKeys.foldlM (updateFee allowedDecimalPlaces) extensions
  return some ⟨some extensions⟩

end PayerProvidedFeesValidator

namespace SuspiciousTransactionMonitor

structure Pattern where
  payerFsp : String
  payerId : String
  payeeFsp : String
  payeeId : String
  currency : Currency
  amount : String
  deriving DecidableEq

def keyPrefix : String := "suspicious:"

def fieldValue (pattern : Pattern) : SuspiciousTransactionMatchField → String
  | .payerFspId => pattern.payerFsp
  | .payerIdValue => pattern.payerId
  | .payeeFspId => pattern.payeeFsp
  | .payeeIdValue => pattern.payeeId
  | .amount => pattern.amount
  | .currency => pattern.currency

def buildKey (pattern : Pattern) (matchingFields : List SuspiciousTransactionMatchField) :
    String :=
  keyPrefix ++ String.ofList
    (Js.join '|' (matchingFields.map fun field => (fieldValue pattern field).toList))

end SuspiciousTransactionMonitor
end Outbound
