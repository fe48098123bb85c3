import Pivotal.Connector.Quotes
import Pivotal.Connector.Transfers

/-! Quotes and the transfers that follow them: a transfer that carries a quote unchanged is
fulfilled, and a transfer that is fulfilled carries a quote. -/
namespace Connector
open Fspiop Interledger Async Async.Program
open FspConnectorValidation
open Js (bind_ok_iff pure_ok_iff unless_ok_iff)

variable {platform : Platform} {settings : ConnectorSettings} {request : TransfersPostRequest}
  {response : QuotesIDPutResponse}

/-- The transfer carries what the quote answered, for some transfer and payee. -/
structure Carries (request : TransfersPostRequest) (response : QuotesIDPutResponse) : Prop where
  amount : request.amount = response.transferAmount
  ilpPacket : request.ilpPacket = some response.ilpPacket
  condition : request.condition = some response.condition
  expiration : request.expiration = some response.expiration
  transferId : Js.blank request.transferId = false
  payeeFsp : Js.blank request.payeeFsp = false

theorem requireText_ok {field : String} {value : Option String} (h : Js.blank value = false) :
    ∃ text, value = some text ∧ requireText field value = .ok text := by
  cases value with
  | none => simp [Js.blank] at h
  | some text =>
    refine ⟨text, rfl, ?_⟩
    have htrim : Js.trim text ≠ "" := by simpa [Js.blank] using h
    simp [requireText, htrim]

/-- A reading of the clock. -/
def clockReading : Event ConnectorOp ConnectorAnswer → Option Js.Date
  | ⟨.now, now⟩ => some now
  | _ => none

namespace Issue

variable (issue : Issue platform settings response)

/-- The fields of a transfer that carries the quote. -/
def transfer (transferId payeeFsp : String) : ValidTransfer :=
  ⟨transferId, payeeFsp, issue.transferAmount, response.ilpPacket, response.condition,
    response.expiration⟩

/-- The packet of the quote, unwrapped. -/
def unwrapped : UnwrappedTransfer where
  ilpPrepare :=
    { amount := toString issue.minor
      executionCondition := platform.sha256 (preimage platform settings.ilpSecret issue.minor
        (address settings.connectorId) issue.agreement.toJson.stringify)
      expiresAt := Js.timeClip issue.expireAt
      destination := address settings.connectorId
      data := Js.Buffer.fromUtf8 issue.agreement.toJson.stringify }
  ilpPacketAmount := issue.minor
  expiration := issue.expireAt

theorem condition_eq : response.condition = conditionOf platform settings.ilpSecret
    (address settings.connectorId) issue.minor issue.agreement.toJson.stringify := by
  obtain ⟨_, -, -, -, hcondition⟩ := prepare_spec issue.prepares
  rw [issue.condition, hcondition]

theorem validates (hlaw : platform.Lawful) (hcarries : Carries request response) :
    ∃ transferId payeeFsp, request.transferId = some transferId ∧
      request.payeeFsp = some payeeFsp ∧
      validatePostTransfersRequest request settings = .ok (issue.transfer transferId payeeFsp) := by
  obtain ⟨transferId, hid, hidText⟩ := @requireText_ok "transferId" _ hcarries.transferId
  obtain ⟨payeeFsp, hpayee, hpayeeText⟩ := @requireText_ok "payeeFsp" _ hcarries.payeeFsp
  refine ⟨transferId, payeeFsp, hid, hpayee, ?_⟩
  have hpacket : requireText "ilpPacket" request.ilpPacket = .ok response.ilpPacket := by
    have hblank := hlaw.packet_not_blank issue.prepares
    rw [← issue.ilpPacket] at hblank
    simp [requireText, hcarries.ilpPacket, hblank]
  have hcondition : requireText "condition" request.condition = .ok response.condition := by
    have hblank : Js.trim response.condition ≠ "" := by
      rw [issue.condition_eq]
      exact hlaw.condition_not_blank
    simp [requireText, hcarries.condition, hblank]
  have hexpiration : requireText "expiration" request.expiration = .ok response.expiration := by
    have hblank := FspiopDates.forRequestBody_not_blank issue.expiration
    simp [requireText, hcarries.expiration, hblank]
  have hamount : request.amount = some issue.transferAmount := by
    rw [hcarries.amount, issue.amount_eq]
  have hfields : requireTransferFields request settings =
      .ok (issue.transfer transferId payeeFsp) := by
    simp [requireTransferFields, hidText, hpayeeText, hamount, issue.supported, hpacket, hcondition,
      hexpiration, transfer, bind, Except.bind, pure, Except.pure]
  unfold validatePostTransfersRequest
  rw [hfields]
  simp [transfer, issue.validated, bind, Except.bind, pure, Except.pure]

theorem unwraps (hlaw : platform.Lawful) (transferId payeeFsp : String) :
    unwrapTransferIlpPacket platform (issue.transfer transferId payeeFsp) =
      .ok issue.unwrapped := by
  rw [unwrapTransferIlpPacket_ok]
  obtain ⟨hvalid, -⟩ := FspiopDates.forRequestBody_ok issue.expiration
  refine ⟨?_, Js.parseBigInt_toString (FspConnector.toMinor_nonneg issue.minor_eq),
    issue.minor_eq, FspiopDates.parseDate_forRequestBody issue.expiration _, if_pos hvalid⟩
  show unwrap platform response.ilpPacket = _
  rw [issue.ilpPacket]
  exact hlaw.unwrap_prepare issue.prepares

/-- Whatever the lifetime, the fulfilment is that of the quote. -/
theorem fulfils (hlaw : platform.Lawful) (transferId payeeFsp : String) {lifetime : ℤ}
    (hfirst : 0 ≤ lifetime) (hlast : lifetime ≤ lastPacketTime) :
    FspConnector.fulfilUnwrapped platform settings (issue.transfer transferId payeeFsp)
      issue.unwrapped lifetime = .ok ⟨true, some issue.prepared.base64Fulfillment⟩ := by
  obtain ⟨again, hagain, hfulfillment, hcondition⟩ :=
    hlaw.prepare_again issue.prepares hfirst hlast
  unfold FspConnector.fulfilUnwrapped fulfil
  simp only [unwrapped, transfer, Js.Buffer.toUtf8_fromUtf8]
  rw [hagain]
  simp [hfulfillment, hcondition, issue.condition, bind, Except.bind, pure, Except.pure]

/-- The fulfilment of a quote is the preimage of its condition. -/
theorem fulfillment_preimage : base64Encode
    (platform.sha256 (base64Decode issue.prepared.base64Fulfillment)) false =
      response.condition := by
  obtain ⟨_, -, -, hfulfillment, hcondition⟩ := prepare_spec issue.prepares
  rw [issue.condition, hcondition, hfulfillment, base64Decode_base64Encode]
  rfl

/-- With the clock before the expiration, the run calls the wallet and hands out the fulfilment. -/
theorem run (hlaw : platform.Lawful) (hcarries : Carries request response)
    {t : List (Event ConnectorOp ConnectorAnswer)}
    {result : Except JsError TransfersIDPutResponse}
    (hrun : (FspConnector.postTransfers platform settings request).Settles t result)
    (hclock : ∀ now ∈ t.filterMap clockReading, -Js.maxTime ≤ now ∧ now < issue.expireAt) :
    AgreedTo platform settings request ∧
      ∃ checkedAt preparedAt transferId payeeFsp answer, request.transferId = some transferId ∧
        request.payeeFsp = some payeeFsp ∧
        t = [⟨.now, checkedAt⟩, ⟨.now, preparedAt⟩, ⟨.walletPostTransfers transferId
          issue.transferAmount (FspConnector.toPayee payeeFsp), answer⟩] ∧
        result = answer.map fun r =>
          { r with fulfilment := some issue.prepared.base64Fulfillment } := by
  obtain ⟨transferId, payeeFsp, hid, hpayee, hvalidates⟩ := issue.validates hlaw hcarries
  have hunwraps := issue.unwraps hlaw transferId payeeFsp
  rw [FspConnector.postTransfers_eq hvalidates hunwraps, settles_call_iff] at hrun
  obtain ⟨checkedAt, t, rfl, hrun⟩ := hrun
  have hchecked : ¬ issue.unwrapped.expiration ≤ checkedAt :=
    not_le.mpr (hclock checkedAt List.mem_cons_self).2
  rw [if_neg hchecked, settles_call_iff] at hrun
  obtain ⟨preparedAt, t, rfl, hrun⟩ := hrun
  have hprepared := hclock preparedAt (List.mem_cons_of_mem _ List.mem_cons_self)
  obtain ⟨hfirst, hlast⟩ := lifetimeSeconds_bounds hprepared.1
    (FspiopDates.forRequestBody_ok issue.expiration).1.2
  have hfulfils := issue.fulfils hlaw transferId payeeFsp hfirst hlast
  rw [show issue.unwrapped.expiration = issue.expireAt from rfl, hfulfils] at hrun
  obtain ⟨answer, t, rfl, hanswer⟩ := settles_call_iff.mp hrun
  obtain ⟨rfl, rfl⟩ := settles_done_iff.mp hanswer
  exact ⟨⟨_, _, _, _, hvalidates, hunwraps, hfulfils, rfl⟩, checkedAt, preparedAt, transferId,
    payeeFsp, answer, hid, hpayee, rfl, rfl⟩

end Issue

/-- A transfer that carries an answered quote unchanged, processed before the expiration, passes
validation and is handed the fulfilment that was prepared with the quote. -/
theorem honest_transfer_fulfilled (hlaw : platform.Lawful) {quoteRequest : QuotesPostRequest}
    {quoting t : List (Event ConnectorOp ConnectorAnswer)}
    {result : Except JsError TransfersIDPutResponse}
    (hquote : (FspConnector.postQuotes platform settings quoteRequest).Settles quoting
      (.ok response))
    (hcarries : Carries request response)
    (hrun : (FspConnector.postTransfers platform settings request).Settles t result)
    (hclock : ∀ now ∈ t.filterMap clockReading, -Js.maxTime ≤ now ∧
      ∀ expiry, Js.parseDate platform.otherDate response.expiration = some expiry → now < expiry) :
    AgreedTo platform settings request ∧
      ∃ (issue : Issue platform settings response) (checkedAt preparedAt : Js.Date)
        (transferId payeeFsp : String) (answer : Except JsError TransfersIDPutResponse),
        request.transferId = some transferId ∧ request.payeeFsp = some payeeFsp ∧
        t = [⟨.now, checkedAt⟩, ⟨.now, preparedAt⟩, ⟨.walletPostTransfers transferId
          issue.transferAmount (FspConnector.toPayee payeeFsp), answer⟩] ∧
        (result = answer.map fun r =>
          { r with fulfilment := some issue.prepared.base64Fulfillment }) ∧
        base64Encode (platform.sha256 (base64Decode issue.prepared.base64Fulfillment)) false =
          response.condition := by
  obtain ⟨issue⟩ := FspConnector.issue_of_postQuotes hquote
  have hexpiry := FspiopDates.parseDate_forRequestBody issue.expiration platform.otherDate
  obtain ⟨hagreed, checkedAt, preparedAt, transferId, payeeFsp, answer, hid, hpayee, ht, hresult⟩ :=
    issue.run hlaw hcarries hrun fun now hnow => ⟨(hclock now hnow).1, (hclock now hnow).2 _ hexpiry⟩
  exact ⟨hagreed, issue, checkedAt, preparedAt, transferId, payeeFsp, answer, hid, hpayee, ht,
    hresult, issue.fulfillment_preimage⟩

/-- The transfer that carries the sample quote. -/
def sampleHonest : TransfersPostRequest :=
  sampleTransfer sampleAmount sampleExpiry sampleExpiration sampleCondition

theorem sampleHonest_carries : Carries sampleHonest sampleResponse where
  amount := rfl
  ilpPacket := rfl
  condition := rfl
  expiration := rfl
  transferId := rfl
  payeeFsp := rfl

theorem honest_transfer_fulfilled_sample :
    AgreedTo samplePlatform sampleSettings sampleHonest ∧
      ∃ issue : Issue samplePlatform sampleSettings sampleResponse,
        base64Encode (samplePlatform.sha256 (base64Decode issue.prepared.base64Fulfillment)) false =
          sampleResponse.condition := by
  have hadmitted := @sampleConditionAdmitted sampleCondition (by decide)
  have hclock : ∀ now ∈ [sampleExpiry - 900000, sampleExpiry - 900000], -Js.maxTime ≤ now ∧
      ∀ expiry, Js.parseDate samplePlatform.otherDate sampleExpiration = some expiry →
        now < expiry := by
    have hparse : Js.parseDate samplePlatform.otherDate sampleExpiration = some sampleExpiry := by
      decide +kernel
    intro now hnow
    obtain rfl : now = sampleExpiry - 900000 := by simpa using hnow
    refine ⟨by decide, fun expiry hexpiry => ?_⟩
    rw [hparse, Option.some.injEq] at hexpiry
    rw [← hexpiry]
    decide
  obtain ⟨hagreed, issue, _, _, _, _, _, _, _, _, _, hpreimage⟩ :=
    honest_transfer_fulfilled (samplePacket.lawful sampleDigests) sampleQuote_settles
      sampleHonest_carries (FspConnector.settles_of_admission hadmitted (.error .other)) hclock
  exact ⟨hagreed, issue, hpreimage⟩

/-! The other way around: the condition binds a fulfilled transfer to a quote. -/

theorem requireText_some {field : String} {value : Option String} {text : String}
    (h : requireText field value = .ok text) : value = some text := by
  unfold requireText at h
  split at h
  · split at h
    · exact absurd h (by simp)
    · rw [Except.ok.inj h]
  · exact absurd h (by simp)

/-- A valid transfer has the fields of its request, but for the form of its amount. -/
theorem validatePostTransfersRequest_ok {transfer : ValidTransfer}
    (h : validatePostTransfersRequest request settings = .ok transfer) :
    (∃ amount, request.amount = some amount ∧ FspiopMoney.validate amount = .ok transfer.amount) ∧
      request.condition = some transfer.condition ∧
      request.expiration = some transfer.expiration := by
  simp only [validatePostTransfersRequest, bind_ok_iff, pure_ok_iff] at h
  obtain ⟨fields, hfields, amount, hamount, rfl⟩ := h
  simp only [requireTransferFields, bind_ok_iff] at hfields
  obtain ⟨transferId, -, payeeFsp, -, hfields⟩ := hfields
  split at hfields
  · exact absurd hfields (by simp)
  · rename_i transferAmount hrequest
    simp only [unless_ok_iff, bind_ok_iff, pure_ok_iff] at hfields
    obtain ⟨-, ilpPacket, -, condition, hcondition, expiration, hexpiration, rfl⟩ := hfields
    exact ⟨⟨_, hrequest, hamount⟩, requireText_some hcondition, requireText_some hexpiration⟩

/-- The transfer has as many minor units as the quote, each counted in its own currency, and its
packet holds the agreement of the quote. -/
structure Quoted (issue : Issue platform settings response) (request : TransfersPostRequest) where
  transfer : ValidTransfer
  unwrapped : UnwrappedTransfer
  valid : validatePostTransfersRequest request settings = .ok transfer
  unwraps : unwrapTransferIlpPacket platform transfer = .ok unwrapped
  minor : FspConnector.toMinor transfer.amount = .ok issue.minor
  agreement : unwrapped.ilpPrepare.destination ++ ":" ++ unwrapped.ilpPrepare.data.toUtf8 =
    address settings.connectorId ++ ":" ++ issue.agreement.toJson.stringify

/-- An admitted transfer with the condition of a quote is quoted. -/
theorem Admission.quoted (hsha : Function.Injective platform.sha256) {checkedAt preparedAt : Js.Date}
    (a : Admission platform settings request checkedAt preparedAt)
    (issue : Issue platform settings response)
    (hgenuine : conditionOf platform settings.ilpSecret a.unwrapped.ilpPrepare.destination
      a.unwrapped.ilpPacketAmount a.unwrapped.ilpPrepare.data.toUtf8 = a.transfer.condition)
    (hcondition : a.transfer.condition = response.condition) :
    Nonempty (Quoted issue request) := by
  obtain ⟨-, -, hminor, -, -⟩ := unwrapTransferIlpPacket_ok.mp a.unwraps
  rw [hcondition, issue.condition_eq] at hgenuine
  obtain ⟨hamount, hrest⟩ := preimageText_inj (FspConnector.toMinor_nonneg hminor)
    (FspConnector.toMinor_nonneg issue.minor_eq) (conditionOf_injective hsha hgenuine)
  exact ⟨⟨a.transfer, a.unwrapped, a.valid, a.unwraps, hamount ▸ hminor, hrest⟩⟩

/-- Conditions of the secret come from the issued quotes only. Then a transfer that is handed a
fulfilment is quoted by one of them. -/
theorem fulfilled_transfer_quoted (hsha : Function.Injective platform.sha256)
    {issued : List QuotesIDPutResponse}
    (hissued : ∀ response ∈ issued, ∃ quoteRequest quoting,
      (FspConnector.postQuotes platform settings quoteRequest).Settles quoting (.ok response))
    (hsecret : ∀ peer amount data,
      request.condition = some (conditionOf platform settings.ilpSecret peer amount data) →
      ∃ response ∈ issued, request.condition = some response.condition)
    {t : List (Event ConnectorOp ConnectorAnswer)} {answer : TransfersIDPutResponse}
    (hrun : (FspConnector.postTransfers platform settings request).Settles t (.ok answer))
    (hfulfilled : answer.fulfilment.isSome = true) :
    ∃ response ∈ issued, ∃ issue : Issue platform settings response,
      Nonempty (Quoted issue request) := by
  rcases FspConnector.settles_postTransfers hrun with ⟨-, hfailed⟩ | ⟨_, _, a, wallet, -, hresult⟩
  · exact absurd hfailed (by simp [Except.isOk, Except.toBool])
  · have hvalid : a.fulfilment.valid = true := by
      cases wallet with
      | error e => simp [Except.map] at hresult
      | ok r =>
        rw [Except.map, Except.ok.injEq] at hresult
        rw [hresult] at hfulfilled
        by_contra hinvalid
        simp [FspConnector.complete, hinvalid] at hfulfilled
    have hgenuine : conditionOf platform settings.ilpSecret a.unwrapped.ilpPrepare.destination
        a.unwrapped.ilpPacketAmount a.unwrapped.ilpPrepare.data.toUtf8 = a.transfer.condition := by
      rw [fulfil_spec a.fulfils] at hvalid
      simpa using hvalid
    obtain ⟨-, hcondition, -⟩ := validatePostTransfersRequest_ok a.valid
    obtain ⟨response, hmem, hresponse⟩ := hsecret _ _ _ (hcondition.trans (by rw [hgenuine]))
    obtain ⟨quoteRequest, quoting, hquote⟩ := hissued response hmem
    obtain ⟨issue⟩ := FspConnector.issue_of_postQuotes hquote
    have hsame : a.transfer.condition = response.condition := by
      rwa [hcondition, Option.some.injEq] at hresponse
    exact ⟨response, hmem, issue, a.quoted hsha issue hgenuine hsame⟩

/-- The sample quote is the only issued one, and the sample transfer carries its condition. -/
theorem sampleHonest_secret (request : TransfersPostRequest)
    (h : request.condition = some sampleResponse.condition) (peer : String) (amount : ℤ)
    (data : String) (_ : request.condition =
      some (conditionOf samplePlatform sampleSettings.ilpSecret peer amount data)) :
    ∃ response ∈ [sampleResponse], request.condition = some response.condition :=
  ⟨sampleResponse, List.mem_singleton_self _, h⟩

theorem sampleResponse_issued (response : QuotesIDPutResponse) (h : response ∈ [sampleResponse]) :
    ∃ quoteRequest quoting, (FspConnector.postQuotes samplePlatform sampleSettings
      quoteRequest).Settles quoting (.ok response) := by
  obtain rfl := List.mem_singleton.mp h
  exact ⟨_, _, sampleQuote_settles⟩

theorem fulfilled_transfer_quoted_sample :
    ∃ response ∈ [sampleResponse], ∃ issue : Issue samplePlatform sampleSettings response,
      Nonempty (Quoted issue sampleHonest) :=
  fulfilled_transfer_quoted sampleDigests.sha256_injective sampleResponse_issued
    (sampleHonest_secret _ rfl)
    (FspConnector.settles_of_admission (@sampleConditionAdmitted sampleCondition
      (by decide)) (.ok ⟨none, none, .reserved, none⟩)) (by decide +kernel)

/-- The packet of the quote, dated a day later, for a thousand yen. -/
def sampleAltered : TransfersPostRequest :=
  sampleTransfer ⟨"JPY", "1000"⟩ (sampleExpiry + 86400000) "2023-11-15T22:28:20.000+00:00"
    sampleCondition

theorem sampleCondition_ne_nil : sampleCondition ≠ [] := by decide

def sampleAlteredAdmitted : Admission samplePlatform sampleSettings sampleAltered
    (sampleExpiry - 900000) (sampleExpiry - 900000) :=
  sampleAdmission (by decide +kernel) (by decide +kernel) (by decide +kernel) (by decide +kernel)
    (by decide +kernel) sampleCondition_ne_nil (by decide) (by decide) sampleCheck_nonneg

/-- Neither the currency nor the expiration is that of the quote. -/
theorem sampleAltered_differs :
    sampleResponse.transferAmount.map (·.currency) ≠ sampleAltered.amount.map (·.currency) ∧
      Js.parseDate samplePlatform.otherDate sampleResponse.expiration ≠
        sampleAltered.expiration.bind (Js.parseDate samplePlatform.otherDate) := by
  decide

/-- The altered transfer is handed the fulfilment of the quote. -/
theorem not_fulfilled_transfer_quoted :
    ¬ ∀ (platform : Platform) (settings : ConnectorSettings) (request : TransfersPostRequest)
      (issued : List QuotesIDPutResponse) (t : List (Event ConnectorOp ConnectorAnswer))
      (answer : TransfersIDPutResponse), platform.Lawful → Function.Injective platform.sha256 →
      (∀ response ∈ issued, ∃ quoteRequest quoting,
        (FspConnector.postQuotes platform settings quoteRequest).Settles quoting (.ok response)) →
      (∀ peer amount data,
        request.condition = some (conditionOf platform settings.ilpSecret peer amount data) →
        ∃ response ∈ issued, request.condition = some response.condition) →
      (FspConnector.postTransfers platform settings request).Settles t (.ok answer) →
      answer.fulfilment.isSome = true →
      ∃ response ∈ issued, ∃ quoted transferred, response.transferAmount = some quoted ∧
        request.amount = some transferred ∧ quoted.currency = transferred.currency ∧
        FspConnector.toMinor quoted = FspConnector.toMinor transferred ∧
        Js.parseDate platform.otherDate response.expiration =
          request.expiration.bind (Js.parseDate platform.otherDate) := by
  intro h
  obtain ⟨response, hmem, quoted, transferred, hquoted, htransferred, hcurrency, -⟩ :=
    h samplePlatform sampleSettings sampleAltered [sampleResponse] _ _ (samplePacket.lawful sampleDigests) sampleDigests.sha256_injective
    sampleResponse_issued (sampleHonest_secret _ rfl)
    (FspConnector.settles_of_admission sampleAlteredAdmitted (.ok ⟨none, none, .reserved, none⟩))
    (by decide +kernel)
  obtain rfl := List.mem_singleton.mp hmem
  refine sampleAltered_differs.1 ?_
  rw [hquoted, htransferred, Option.map_some, Option.map_some, hcurrency]

end Connector
