import Pivotal.Async.Program
import Pivotal.Audit.TransactionMessage
import Pivotal.Connector.Components
import Pivotal.Fspiop.Headers
import Pivotal.Interledger.PacketFormat

/-! The payee's connector: it asks the wallet for parties, quotes and transfers, and issues and
fulfils conditions. Programs over the calls they await. -/
namespace Connector
open Fspiop Interledger Audit
open Async.Program (perform lift)

/-- The subjects of the connector's audit messages. A lookup of a party has no request body
but its fields. -/
inductive AuditRequest where
  | parties (payeeIdType : PartyIdType) (payeeId : String) (payeeSubId : Option String)
  | quotes (body : QuotesPostRequest)
  | transfers (body : TransfersPostRequest)
  deriving DecidableEq

inductive AuditResponse where
  | parties (body : PartiesTypeIDPutResponse)
  | quotes (body : QuotesIDPutResponse)
  | transfers (body : TransfersIDPutResponse)
  deriving DecidableEq

/-- Without an error of the wallet, the audited error stands alone. -/
structure AuditError where
  audit : ErrorInformationObject
  fspError : Option String
  deriving DecidableEq

abbrev AuditContent := BaseContent AuditRequest AuditResponse AuditError

abbrev AuditMessage := TransactionMessage AuditContent

/-- The hub can accept a callback without its answer getting back. -/
inductive Delivery where
  | accepted
  | unanswered (error : JsError)
  | refused (error : JsError)
  deriving DecidableEq

namespace Delivery

/-- What the sender sees. -/
def result : Delivery → Except JsError Unit
  | .accepted => .ok ()
  | .unanswered error => .error error
  | .refused error => .error error

def isAccepted : Delivery → Bool
  | .accepted => true
  | .unanswered _ => true
  | .refused _ => false

end Delivery

/-- The calls of the connector and of its command handlers. -/
inductive ConnectorOp where
  | now
  | walletGetParties (partyIdType : PartyIdType) (partyId : String) (subId : Option String)
  | walletPostQuotes (scenario : TransactionScenario) (subScenario : Option String)
      (amountType : AmountType) (amount : Option Money) (payerFspFee : Option Money)
      (extensionList : Option ExtensionList)
  | walletPostTransfers (transferId : String) (transferAmount : Money) (payee : Party)
  | publish (message : AuditMessage)
  | putParties (url : String) (headers : FspiopHeadersMap) (body : PartiesTypeIDPutResponse)
  | putPartiesError (url : String) (headers : FspiopHeadersMap) (body : ErrorInformationObject)
  | putQuotes (url : String) (headers : FspiopHeadersMap) (body : QuotesIDPutResponse)
  | putQuotesError (url : String) (headers : FspiopHeadersMap) (body : ErrorInformationObject)
  | putTransfers (url : String) (headers : FspiopHeadersMap) (body : TransfersIDPutResponse)
  | putTransfersError (url : String) (headers : FspiopHeadersMap) (body : ErrorInformationObject)
  deriving DecidableEq

@[reducible] def ConnectorAnswer : ConnectorOp → Type
  | .now => Js.Date
  | .walletGetParties _ _ _ => Except JsError PartiesTypeIDPutResponse
  | .walletPostQuotes _ _ _ _ _ _ => Except JsError FspClient.PostQuotesOutput
  | .walletPostTransfers _ _ _ => Except JsError TransfersIDPutResponse
  | .publish _ => Except JsError Unit
  | .putParties _ _ _ => Delivery
  | .putPartiesError _ _ _ => Delivery
  | .putQuotes _ _ _ => Delivery
  | .putQuotesError _ _ _ => Delivery
  | .putTransfers _ _ _ => Delivery
  | .putTransfersError _ _ _ => Delivery

abbrev ConnectorProgram := Async.Program ConnectorOp ConnectorAnswer JsError

namespace FspConnector

/-- `_15_MINUTES`, in seconds. -/
def fifteenMinutes : ℤ := 900

/-- The clock is read only when the text has a date. -/
def resolveLifetimeSeconds (platform : Platform) (expiration : Option String) :
    ConnectorProgram ℤ := do
  match expiration.bind (Js.parseDate platform.otherDate) with
  | none => return fifteenMinutes
  | some expiresAt =>
    let now ← perform .now
    return max 1 ((expiresAt - now) / 1000)

def toZeroMoney (currency : Currency) : Money := ⟨currency, "0"⟩

def getParties (partyIdType : PartyIdType) (partyId : String) (subId : Option String) :
    ConnectorProgram PartiesTypeIDPutResponse := do
  lift (← perform (.walletGetParties partyIdType partyId subId))

def toAgreement (request : QuotesPostRequest) (transferAmount payeeReceiveAmount : Money)
    (expireAt : ℤ) : Except JsError FspiopAgreement :=
  match request.payer.bind (·.partyIdInfo), request.payee.bind (·.partyIdInfo),
      request.transactionType.bind (·.scenario) with
  | some payer, some payee, some scenario =>
    .ok { quoteId := request.quoteId, payer := payer, payee := payee
          amountType := request.amountType, scenario := scenario
          subScenario := request.transactionType.bind (·.subScenario)
          originalAmount := request.amount
          payeeFspFee := toZeroMoney transferAmount.currency
          payeeFspCommission := toZeroMoney transferAmount.currency
          payeeReceiveAmount := payeeReceiveAmount, transferAmount := transferAmount
          expireAt := expireAt }
  | _, _, _ =>
    .error (reject FspiopErrors.missingMandatoryElement
      "payer.partyIdInfo, payee.partyIdInfo and transactionType.scenario are required")

/-- The fees of the wallet, unless there are none. -/
def feesExtension (fees : Option ExtensionList) : Option ExtensionList :=
  if ((fees.bind (·.extension)).getD []).length = 0 then none else fees

/-- The response to a quote, from the checked amounts of the wallet's output and the time. -/
def respond (platform : Platform) (settings : ConnectorSettings) (request : QuotesPostRequest)
    (transferAmount payeeReceiveAmount : Money) (transferAmountMinor : ℤ)
    (fees : Option ExtensionList) (now : Js.Date) : Except JsError QuotesIDPutResponse := do
  let expireAt := now + fifteenMinutes * 1000
  let expiration ← FspiopDates.forRequestBody expireAt
  let agreement ← toAgreement request transferAmount payeeReceiveAmount expireAt
  let prepare ← prepare platform settings.ilpSecret (address settings.connectorId)
    transferAmountMinor agreement.toJson.stringify expireAt
  return {
    transferAmount := some transferAmount
    payeeReceiveAmount := some payeeReceiveAmount
    payeeFspFee := some (toZeroMoney transferAmount.currency)
    payeeFspCommission := some (toZeroMoney transferAmount.currency)
    expiration := expiration
    ilpPacket := prepare.base64PreparePacket
    condition := prepare.base64Condition
    extensionList := feesExtension fees }

/-- The amount that goes into a packet. -/
def toMinor (money : Money) : Except JsError ℤ := do
  let currencyProfile ← FspConnectorValidation.currencyProfile money.currency
  FspiopMoney.serialize money.amount currencyProfile.scale

def postQuotes (platform : Platform) (settings : ConnectorSettings)
    (request : QuotesPostRequest) : ConnectorProgram QuotesIDPutResponse := do
  let request ← lift (FspConnectorValidation.validatePostQuotesRequest request settings)
  match request.transactionType.bind (·.scenario) with
  | none =>
    throw (reject FspiopErrors.missingMandatoryElement
      "postQuotesRequest.transactionType.scenario is required")
  | some scenario =>
    let output ← lift (← perform (.walletPostQuotes scenario
      (request.transactionType.bind (·.subScenario)) request.amountType request.amount
      request.fees request.extensionList))
    let (transferAmount, payeeReceiveAmount) ←
      lift (FspConnectorValidation.validatePostQuotesOutput output settings)
    let transferAmountMinor ← lift (toMinor transferAmount)
    let now ← perform .now
    lift (respond platform settings request transferAmount payeeReceiveAmount transferAmountMinor
      output.fees now)

/-- The checks that need no clock come first. -/
def validateAndUnwrapTransferIlpPacket (platform : Platform)
    (transfer : FspConnectorValidation.ValidTransfer) :
    ConnectorProgram FspConnectorValidation.UnwrappedTransfer := do
  let unwrapped ← lift (FspConnectorValidation.unwrapTransferIlpPacket platform transfer)
  let now ← perform .now
  if unwrapped.expiration ≤ now then
    throw (reject FspiopErrors.transferExpired "Transfer already expired")
  return unwrapped

/-- The fulfilment of a checked packet for a lifetime. -/
def fulfilUnwrapped (platform : Platform) (settings : ConnectorSettings)
    (transfer : FspConnectorValidation.ValidTransfer)
    (unwrapped : FspConnectorValidation.UnwrappedTransfer) (lifetimeSeconds : ℤ) :
    Except JsError Fulfill :=
  fulfil platform settings.ilpSecret unwrapped.ilpPrepare.destination unwrapped.ilpPacketAmount
    unwrapped.ilpPrepare.data.toUtf8 transfer.condition lifetimeSeconds

def fulfilTransfer (platform : Platform) (settings : ConnectorSettings)
    (transfer : FspConnectorValidation.ValidTransfer)
    (unwrapped : FspConnectorValidation.UnwrappedTransfer) : ConnectorProgram Fulfill := do
  let lifetimeSeconds ← resolveLifetimeSeconds platform (some transfer.expiration)
  lift (fulfilUnwrapped platform settings transfer unwrapped lifetimeSeconds)

/-- The payee as the wallet is told: its FSP only. -/
def toPayee (payeeFsp : String) : Party :=
  { partyIdInfo := some
      { partyIdType := none, partyIdentifier := "", partySubIdOrType := none
        fspId := some payeeFsp, extensionList := none }
    merchantClassificationCode := none, name := none, supportedCurrencies := none }

/-- The answer of the wallet, with the fulfilment. -/
def complete (fulfilment : Fulfill) (response : TransfersIDPutResponse) :
    TransfersIDPutResponse :=
  { response with
    transferState := if !fulfilment.valid then .aborted else response.transferState
    fulfilment := if fulfilment.valid then fulfilment.base64Fulfillment else none }

def postTransfers (platform : Platform) (settings : ConnectorSettings)
    (request : TransfersPostRequest) : ConnectorProgram TransfersIDPutResponse := do
  let transfer ← lift (FspConnectorValidation.validatePostTransfersRequest request settings)
  let unwrapped ← validateAndUnwrapTransferIlpPacket platform transfer
  let transferFulfilment ← fulfilTransfer platform settings transfer unwrapped
  let response ← lift (← perform
    (.walletPostTransfers transfer.transferId transfer.amount (toPayee transfer.payeeFsp)))
  return complete transferFulfilment response

end FspConnector
/-! One quote of one connector, and the transfer that carries it. -/

def sampleSettings : ConnectorSettings := ⟨"b", ["USD", "JPY"], "secret"⟩

def sampleParty (id fsp : String) : Party :=
  { partyIdInfo := some
      { partyIdType := some .msisdn, partyIdentifier := id, partySubIdOrType := none
        fspId := some fsp, extensionList := none }
    merchantClassificationCode := none, name := none, supportedCurrencies := none }

def sampleAmount : Money := ⟨"USD", "10"⟩

def sampleQuoteRequest : QuotesPostRequest :=
  { quoteId := "q", transactionId := some "x", transactionRequestId := none
    payee := some (sampleParty "1" "b"), payer := some (sampleParty "2" "a")
    amountType := .send, amount := some sampleAmount, fees := none
    transactionType := some ⟨some .transfer, none, .payer, .consumer⟩, note := none
    expiration := none, extensionList := none }

/-- The 14th of November 2023, 22:28:20. -/
def sampleExpiry : Js.Date := 1700000900000

def sampleTerms : FspiopAgreement :=
  { quoteId := "q"
    payer :=
      { partyIdType := some .msisdn, partyIdentifier := "2", partySubIdOrType := none
        fspId := some "a", extensionList := none }
    payee :=
      { partyIdType := some .msisdn, partyIdentifier := "1", partySubIdOrType := none
        fspId := some "b", extensionList := none }
    amountType := .send, scenario := .transfer, subScenario := none
    originalAmount := some sampleAmount, payeeFspFee := ⟨"USD", "0"⟩
    payeeFspCommission := ⟨"USD", "0"⟩, payeeReceiveAmount := sampleAmount
    transferAmount := sampleAmount, expireAt := sampleExpiry }

/-- Never to be computed: it is long. -/
@[irreducible] def sampleAgreement : String := sampleTerms.toJson.stringify

def samplePreimage : Js.Buffer :=
  [3, 230, 16, 82, 252, 131, 181, 237, 12, 188, 219, 242, 12, 234, 54, 139, 234, 171, 177, 80, 138,
   254, 62, 134, 22, 246, 182, 88, 19, 196, 173, 151]

def sampleCondition : Js.Buffer :=
  [15, 47, 26, 215, 196, 102, 190, 221, 219, 16, 36, 228, 103, 238, 74, 33, 193, 40, 1, 103, 105,
   192, 180, 10, 158, 52, 160, 15, 84, 16, 69, 169]

/-- The SHA-256 digests of the two texts that the quote derives its condition from. -/
def sampleDigests : Digests where
  entries := [(samplePreimage, sampleCondition),
    (Js.Buffer.fromUtf8 (preimageText "secret" 1000 "g.b" sampleAgreement), samplePreimage)]
  length_eq := by simp [samplePreimage, sampleCondition]
  nodup := by simp [samplePreimage, sampleCondition]

/-- Around the timestamp: the type, the length and the amount of the packet, and its condition,
its destination and its data with their lengths. -/
def samplePacket : PacketFormat where
  amount := "1000"
  executionCondition := sampleCondition
  destination := "g.b"
  data := Js.Buffer.fromUtf8 sampleAgreement
  header := [12, 130, 2, 21, 0, 0, 0, 0, 0, 0, 3, 232]
  trailer := sampleCondition ++ 3 :: Js.Buffer.fromUtf8 "g.b" ++ 130 :: 1 :: 213 ::
    Js.Buffer.fromUtf8 sampleAgreement
  typed := rfl

def samplePlatform : Platform := samplePacket.platform sampleDigests

theorem lookup_second {a b c d : Js.Buffer} (h : c ≠ a) : [(a, b), (c, d)].lookup c = some d := by
  rw [List.lookup_cons, beq_eq_false_iff_ne.mpr h]
  exact List.lookup_cons_self

theorem samplePlatform_preimage :
    preimage samplePlatform "secret" 1000 "g.b" sampleAgreement = samplePreimage := by
  have hne : Js.Buffer.fromUtf8 (preimageText "secret" 1000 "g.b" sampleAgreement) ≠
      samplePreimage := by
    intro h
    have hhead := congrArg List.head? h
    simp only [preimageText, Js.Buffer.fromUtf8_append, List.append_assoc] at hhead
    exact absurd hhead (by decide)
  exact sampleDigests.sha256_of_lookup (lookup_second hne)

theorem samplePlatform_prepare {date : ℤ} (hfirst : 0 ≤ date) (hlast : date ≤ lastPacketTime) :
    prepare samplePlatform "secret" "g.b" 1000 sampleAgreement date =
      .ok ⟨base64Encode (samplePacket.bytes date) true, samplePreimage.toBase64Url,
        sampleCondition.toBase64Url⟩ := by
  have hcondition : sampleDigests.sha256 (preimage samplePlatform "secret" 1000 "g.b"
      sampleAgreement) = sampleCondition := by
    rw [samplePlatform_preimage]
    exact sampleDigests.sha256_of_lookup List.lookup_cons_self
  have hprepare := @PacketFormat.prepare_eq samplePacket sampleDigests "secret" sampleAgreement 1000
    rfl rfl hcondition date hfirst hlast
  rw [show preimage (samplePacket.platform sampleDigests) "secret" 1000 samplePacket.destination
    sampleAgreement = samplePreimage from samplePlatform_preimage] at hprepare
  exact hprepare

/-- A transfer of one packet. -/
def sampleTransfer (amount : Money) (packetDate : Js.Date) (expiration : String)
    (condition : Js.Buffer) : TransfersPostRequest :=
  { transferId := some "t", payeeFsp := some "b", payerFsp := some "a", amount := some amount
    ilpPacket := some (base64Encode (samplePacket.bytes packetDate) true)
    condition := some condition.toBase64Url, expiration := some expiration, extensionList := none }

end Connector
