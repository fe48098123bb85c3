import Pivotal.Connector.Quotes

/-! What the connector does with a transfer, up to the call of the wallet. -/
namespace Connector
open Fspiop Interledger Async Async.Program
open FspConnectorValidation
open Js (bind_ok_iff pure_ok_iff unless_ok_iff toOption_eq_some_iff)

variable {platform : Platform} {settings : ConnectorSettings} {request : TransfersPostRequest}
  {transfer : ValidTransfer} {unwrapped : UnwrappedTransfer}

namespace FspConnectorValidation

theorem orReject_ok {α : Type} {value : Option α} {definition : ErrorDefinition}
    {message : String} {a : α} : orReject value definition message = .ok a ↔ value = some a := by
  cases value <;> simp [orReject]

theorem unwrapTransferIlpPacket_ok : unwrapTransferIlpPacket platform transfer = .ok unwrapped ↔
    unwrap platform transfer.ilpPacket = .ok unwrapped.ilpPrepare ∧
      Js.parseBigInt unwrapped.ilpPrepare.amount = some unwrapped.ilpPacketAmount ∧
      FspConnector.toMinor transfer.amount = .ok unwrapped.ilpPacketAmount ∧
      Js.parseDate platform.otherDate transfer.expiration = some unwrapped.expiration ∧
      unwrapped.ilpPrepare.expiresAt = some unwrapped.expiration := by
  simp only [unwrapTransferIlpPacket, FspConnector.toMinor, bind_ok_iff, pure_ok_iff, orReject_ok,
    toOption_eq_some_iff, unless_ok_iff, ne_eq, not_not]
  constructor
  · rintro ⟨profile, hprofile, packet, hpacket, amount, hamount, minor, hminor, rfl, date, hdate,
      expiry, hexpiry, rfl, rfl⟩
    exact ⟨hpacket, hamount, ⟨profile, hprofile, hminor⟩, hdate, hexpiry⟩
  · rintro ⟨hpacket, hamount, ⟨profile, hprofile, hminor⟩, hdate, hexpiry⟩
    exact ⟨profile, hprofile, _, hpacket, _, hamount, _, hminor, rfl, _, hdate, _, hexpiry, rfl, rfl⟩

end FspConnectorValidation

/-- `max(1, floor((expiresAt - now) / 1000))` -/
def lifetimeSeconds (expiresAt now : Js.Date) : ℤ := max 1 ((expiresAt - now) / 1000)

/-- Lifetimes are dates that a packet can carry. -/
theorem lifetimeSeconds_bounds {expiresAt now : ℤ} (hnow : -Js.maxTime ≤ now)
    (hexpires : expiresAt ≤ Js.maxTime) :
    0 ≤ lifetimeSeconds expiresAt now ∧
      lifetimeSeconds expiresAt now ≤ lastPacketTime := by
  unfold Js.maxTime at hnow hexpires
  unfold lifetimeSeconds lastPacketTime
  omega

/-- A transfer that passes every check when the clock reads `checkedAt`, and whose fulfilment is
computed at `preparedAt`. -/
structure Admission (platform : Platform) (settings : ConnectorSettings)
    (request : TransfersPostRequest) (checkedAt preparedAt : Js.Date) where
  transfer : ValidTransfer
  unwrapped : UnwrappedTransfer
  fulfilment : Fulfill
  valid : validatePostTransfersRequest request settings = .ok transfer
  unwraps : unwrapTransferIlpPacket platform transfer = .ok unwrapped
  inTime : checkedAt < unwrapped.expiration
  fulfils : FspConnector.fulfilUnwrapped platform settings transfer unwrapped
    (lifetimeSeconds unwrapped.expiration preparedAt) = .ok fulfilment

/-- The wallet was asked to credit a transfer. -/
def callsWallet : Event ConnectorOp ConnectorAnswer → Bool
  | ⟨.walletPostTransfers _ _ _, _⟩ => true
  | _ => false

namespace FspConnector

/-- The clock is read twice, and then the wallet is called. -/
theorem postTransfers_eq (hvalid : validatePostTransfersRequest request settings = .ok transfer)
    (hunwraps : unwrapTransferIlpPacket platform transfer = .ok unwrapped) :
    postTransfers platform settings request = .call .now fun checkedAt =>
      if unwrapped.expiration ≤ checkedAt then
        .done (.error (reject FspiopErrors.transferExpired "Transfer already expired"))
      else .call .now fun preparedAt =>
        match fulfilUnwrapped platform settings transfer unwrapped
            (lifetimeSeconds unwrapped.expiration preparedAt) with
        | .error e => .done (.error e)
        | .ok fulfilment => .call
            (.walletPostTransfers transfer.transferId transfer.amount (toPayee transfer.payeeFsp))
            fun answer => .done (answer.map (complete fulfilment)) := by
  have hdate := (unwrapTransferIlpPacket_ok.mp hunwraps).2.2.2.1
  simp only [postTransfers, validateAndUnwrapTransferIlpPacket, fulfilTransfer,
    resolveLifetimeSeconds, hvalid, hunwraps, hdate, lift, perform, bind, settle, onOk_ok,
    Option.bind_some]
  congr
  funext checkedAt
  split
  · rfl
  · simp only [pure, settle, onOk_ok]
    congr
    funext preparedAt
    show onOk _ (fulfilUnwrapped platform settings transfer unwrapped
      (lifetimeSeconds unwrapped.expiration preparedAt)) = _
    cases fulfilUnwrapped platform settings transfer unwrapped
      (lifetimeSeconds unwrapped.expiration preparedAt) with
    | error e => rfl
    | ok fulfilment =>
      simp only [onOk_ok]
      congr
      funext answer
      cases answer with
      | error e => rfl
      | ok response => rfl

/-- A complete execution fails before it calls the wallet, or calls it once for a transfer that
was admitted and returns what the wallet answered. -/
theorem settles_postTransfers {t : List (Event ConnectorOp ConnectorAnswer)}
    {result : Except JsError TransfersIDPutResponse}
    (h : (postTransfers platform settings request).Settles t result) :
    (t.any callsWallet = false ∧ result.isOk = false) ∨
      ∃ checkedAt preparedAt, ∃ a : Admission platform settings request checkedAt preparedAt,
        ∃ answer, t = [⟨.now, checkedAt⟩, ⟨.now, preparedAt⟩, ⟨.walletPostTransfers
            a.transfer.transferId a.transfer.amount (toPayee a.transfer.payeeFsp), answer⟩] ∧
          result = answer.map (complete a.fulfilment) := by
  cases hvalid : validatePostTransfersRequest request settings with
  | error e =>
    left
    have hdone : postTransfers platform settings request = .done (.error e) := by
      simp [postTransfers, hvalid, lift, bind, settle]
    rw [hdone, settles_done_iff] at h
    obtain ⟨rfl, rfl⟩ := h
    exact ⟨rfl, rfl⟩
  | ok transfer =>
    cases hunwraps : unwrapTransferIlpPacket platform transfer with
    | error e =>
      left
      have hdone : postTransfers platform settings request = .done (.error e) := by
        simp [postTransfers, validateAndUnwrapTransferIlpPacket, hvalid, hunwraps, lift, bind,
          settle]
      rw [hdone, settles_done_iff] at h
      obtain ⟨rfl, rfl⟩ := h
      exact ⟨rfl, rfl⟩
    | ok unwrapped =>
      rw [postTransfers_eq hvalid hunwraps, settles_call_iff] at h
      obtain ⟨checkedAt, t, rfl, h⟩ := h
      split at h
      · obtain ⟨rfl, rfl⟩ := settles_done_iff.mp h
        exact .inl ⟨rfl, rfl⟩
      · rename_i hexpired
        obtain ⟨preparedAt, t, rfl, hprepared⟩ := settles_call_iff.mp h
        split at hprepared
        · obtain ⟨rfl, rfl⟩ := settles_done_iff.mp hprepared
          exact .inl ⟨rfl, rfl⟩
        · rename_i fulfilment hfulfils
          obtain ⟨answer, t, rfl, hanswer⟩ := settles_call_iff.mp hprepared
          obtain ⟨rfl, rfl⟩ := settles_done_iff.mp hanswer
          exact .inr ⟨checkedAt, preparedAt, ⟨transfer, unwrapped, fulfilment, hvalid, hunwraps,
            not_le.mp hexpired, hfulfils⟩, answer, rfl, rfl⟩

/-- An admitted transfer is put to the wallet, whatever the wallet answers. -/
theorem settles_of_admission {checkedAt preparedAt : Js.Date}
    (a : Admission platform settings request checkedAt preparedAt)
    (answer : Except JsError TransfersIDPutResponse) :
    (postTransfers platform settings request).Settles
      [⟨.now, checkedAt⟩, ⟨.now, preparedAt⟩, ⟨.walletPostTransfers a.transfer.transferId
        a.transfer.amount (toPayee a.transfer.payeeFsp), answer⟩]
      (answer.map (complete a.fulfilment)) := by
  rw [postTransfers_eq a.valid a.unwraps]
  refine settles_call_iff.mpr ⟨checkedAt, _, rfl, ?_⟩
  rw [if_neg (not_le.mpr a.inTime)]
  refine settles_call_iff.mpr ⟨preparedAt, _, rfl, ?_⟩
  rw [a.fulfils]
  exact settles_call_iff.mpr ⟨answer, _, rfl, .refl _⟩

end FspConnector

/-! The wallet is called before the fulfilment is looked at. -/

/-- The request passed validation, and the fulfilment of its packet is valid. -/
def AgreedTo (platform : Platform) (settings : ConnectorSettings)
    (request : TransfersPostRequest) : Prop :=
  ∃ transfer unwrapped lifetimeSeconds fulfilment,
    validatePostTransfersRequest request settings = .ok transfer ∧
      unwrapTransferIlpPacket platform transfer = .ok unwrapped ∧
      FspConnector.fulfilUnwrapped platform settings transfer unwrapped lifetimeSeconds =
        .ok fulfilment ∧ fulfilment.valid = true

/-- The checks throw, whatever the clock reads. -/
def Refused (platform : Platform) (settings : ConnectorSettings)
    (request : TransfersPostRequest) : Prop :=
  ∀ checkedAt preparedAt, IsEmpty (Admission platform settings request checkedAt preparedAt)

/-- The condition is the one that the secret and the packet give. -/
def Genuine (platform : Platform) (settings : ConnectorSettings)
    (request : TransfersPostRequest) : Prop :=
  ∀ transfer unwrapped, validatePostTransfersRequest request settings = .ok transfer →
    unwrapTransferIlpPacket platform transfer = .ok unwrapped →
    conditionOf platform settings.ilpSecret unwrapped.ilpPrepare.destination
      unwrapped.ilpPacketAmount unwrapped.ilpPrepare.data.toUtf8 = transfer.condition

theorem AgreedTo.genuine (h : AgreedTo platform settings request) :
    Genuine platform settings request := by
  obtain ⟨transfer, unwrapped, lifetime, fulfilment, hvalid, hunwraps, hfulfils, hagreed⟩ := h
  intro transfer' unwrapped' hvalid' hunwraps'
  obtain rfl : transfer = transfer' := by rwa [hvalid, Except.ok.injEq] at hvalid'
  obtain rfl : unwrapped = unwrapped' := by rwa [hunwraps, Except.ok.injEq] at hunwraps'
  rw [fulfil_spec hfulfils] at hagreed
  simpa using hagreed

/-- A genuine transfer that is admitted has a valid fulfilment. -/
theorem Admission.fulfilment_valid {checkedAt preparedAt : Js.Date}
    (a : Admission platform settings request checkedAt preparedAt)
    (h : Genuine platform settings request) : a.fulfilment.valid = true := by
  rw [fulfil_spec a.fulfils]
  simpa using h a.transfer a.unwrapped a.valid a.unwraps

/-- The wallet is only ever called for an agreed transfer exactly when the transfer is refused or
its condition is genuine. -/
theorem wallet_called_only_if_agreed_iff (platform : Platform) (settings : ConnectorSettings)
    (request : TransfersPostRequest) :
    (∀ t result, (FspConnector.postTransfers platform settings request).Settles t result →
        t.any callsWallet = true → AgreedTo platform settings request) ↔
      Refused platform settings request ∨ Genuine platform settings request := by
  constructor
  · intro h
    by_cases hrefused : Refused platform settings request
    · exact .inl hrefused
    · right
      simp only [Refused, not_forall, not_isEmpty_iff] at hrefused
      obtain ⟨checkedAt, preparedAt, ⟨a⟩⟩ := hrefused
      exact (h _ _ (FspConnector.settles_of_admission a (.error .other)) rfl).genuine
  · intro h t result hrun hcalled
    rcases FspConnector.settles_postTransfers hrun with ⟨hquiet, -⟩ | ⟨_, _, a, _⟩
    · simp [hquiet] at hcalled
    · rcases h with hrefused | hgenuine
      · exact (hrefused _ _).elim a
      · exact ⟨a.transfer, a.unwrapped, _, a.fulfilment, a.valid, a.unwraps, a.fulfils,
          a.fulfilment_valid hgenuine⟩

/-! Transfers of the sample packet. -/
section
variable {amount : Money} {date : ℤ} {expiration : String} {condition : Js.Buffer}

/-- The fields of a sample transfer. -/
def sampleValid (amount : Money) (date : Js.Date) (expiration : String) (condition : Js.Buffer) :
    ValidTransfer :=
  ⟨"t", "b", amount, base64Encode (samplePacket.bytes date) true, condition.toBase64Url, expiration⟩

def sampleUnwrapped (date : Js.Date) : UnwrappedTransfer := ⟨samplePacket.packet date, 1000, date⟩

theorem sampleTransfer_valid (hcurrency : sampleSettings.isCurrencySupported amount.currency = true)
    (hamount : FspiopMoney.validate amount = .ok amount) (hexpiration : Js.trim expiration ≠ "")
    (hcondition : condition ≠ []) :
    validatePostTransfersRequest (sampleTransfer amount date expiration condition) sampleSettings =
      .ok (sampleValid amount date expiration condition) := by
  have hpacketText : Js.trim (base64Encode (samplePacket.bytes date) true) ≠ "" :=
    Js.Buffer.trim_toBase64Url_append (PacketFormat.bytes_ne_nil date) _
  have hconditionText : Js.trim condition.toBase64Url ≠ "" := by
    have htext := Js.Buffer.trim_toBase64Url_append hcondition ""
    rwa [String.append_empty] at htext
  have hid : Js.trim "t" ≠ "" := by decide
  have hpayee : Js.trim "b" ≠ "" := by decide
  simp [validatePostTransfersRequest, requireTransferFields, requireText, sampleTransfer,
    sampleValid, hcurrency, hamount, hexpiration, hpacketText, hconditionText, hid, hpayee, bind,
    Except.bind, pure, Except.pure]

theorem sampleTransfer_unwraps (hminor : FspConnector.toMinor amount = .ok 1000)
    (hdate : Js.parseDate samplePlatform.otherDate expiration = some date) (hfirst : 0 ≤ date)
    (hlast : date ≤ lastPacketTime) :
    unwrapTransferIlpPacket samplePlatform (sampleValid amount date expiration condition) =
      .ok (sampleUnwrapped date) :=
  unwrapTransferIlpPacket_ok.mpr ⟨PacketFormat.unwrap_bytes hfirst hlast,
    Js.parseBigInt_toString (n := 1000) (by decide), hminor, hdate, rfl⟩

theorem sampleTransfer_fulfils {lifetime : ℤ} (hfirst : 0 ≤ lifetime)
    (hlast : lifetime ≤ lastPacketTime) :
    FspConnector.fulfilUnwrapped samplePlatform sampleSettings
      (sampleValid amount date expiration condition) (sampleUnwrapped date) lifetime =
      .ok ⟨sampleCondition.toBase64Url = condition.toBase64Url,
        some samplePreimage.toBase64Url⟩ := by
  have hdata : (sampleUnwrapped date).ilpPrepare.data.toUtf8 = sampleAgreement :=
    Js.Buffer.toUtf8_fromUtf8 sampleAgreement
  have hprepare : prepare samplePlatform sampleSettings.ilpSecret
      (sampleUnwrapped date).ilpPrepare.destination (sampleUnwrapped date).ilpPacketAmount
      sampleAgreement lifetime = .ok _ := samplePlatform_prepare hfirst hlast
  unfold FspConnector.fulfilUnwrapped fulfil
  rw [hdata, hprepare]
  rfl

/-- Sample transfers are admitted until their packet expires. -/
def sampleAdmission (hcurrency : sampleSettings.isCurrencySupported amount.currency = true)
    (hamount : FspiopMoney.validate amount = .ok amount)
    (hminor : FspConnector.toMinor amount = .ok 1000) (hexpiration : Js.trim expiration ≠ "")
    (hdate : Js.parseDate samplePlatform.otherDate expiration = some date)
    (hcondition : condition ≠ []) {checkedAt preparedAt : Js.Date} (hlast : date ≤ lastPacketTime)
    (hchecked : 0 ≤ checkedAt ∧ checkedAt < date) (hprepared : 0 ≤ preparedAt) :
    Admission samplePlatform sampleSettings (sampleTransfer amount date expiration condition)
      checkedAt preparedAt where
  transfer := sampleValid amount date expiration condition
  unwrapped := sampleUnwrapped date
  fulfilment := ⟨sampleCondition.toBase64Url = condition.toBase64Url,
    some samplePreimage.toBase64Url⟩
  valid := sampleTransfer_valid hcurrency hamount hexpiration hcondition
  unwraps := sampleTransfer_unwraps hminor hdate (hchecked.1.trans hchecked.2.le) hlast
  inTime := hchecked.2
  fulfils := by
    have hbounds : 0 ≤ lifetimeSeconds date preparedAt ∧
        lifetimeSeconds date preparedAt ≤ lastPacketTime :=
      lifetimeSeconds_bounds (le_trans (by decide) hprepared) (hlast.trans (by decide))
    exact sampleTransfer_fulfils hbounds.1 hbounds.2

end

theorem sampleCheck_nonneg : (0 : Js.Date) ≤ sampleExpiry - 900000 := by decide

/-- A transfer of the sample quote with any condition, 15 minutes before it expires. -/
def sampleConditionAdmitted {condition : Js.Buffer} (hcondition : condition ≠ []) :
    Admission samplePlatform sampleSettings
      (sampleTransfer sampleAmount sampleExpiry sampleExpiration condition)
      (sampleExpiry - 900000) (sampleExpiry - 900000) :=
  sampleAdmission (by decide +kernel) (by decide +kernel) (by decide +kernel) (by decide +kernel)
    (by decide +kernel) hcondition (by decide) (by decide) sampleCheck_nonneg

/-- The wallet is called for a transfer whose condition belongs to no packet. -/
theorem not_wallet_called_only_if_agreed :
    ¬ ∀ platform settings request t result,
      (FspConnector.postTransfers platform settings request).Settles t result →
        t.any callsWallet = true → AgreedTo platform settings request := by
  intro h
  have hne : samplePreimage ≠ [] := by decide
  have hagreed := h _ _ _ _ _
    (FspConnector.settles_of_admission (sampleConditionAdmitted hne) (.error .other)) rfl
  have hvalid : decide (sampleCondition.toBase64Url = samplePreimage.toBase64Url) = true :=
    (sampleConditionAdmitted hne).fulfilment_valid hagreed.genuine
  have hsame := Js.Buffer.toBase64Url_injective (of_decide_eq_true hvalid)
  exact absurd hsame (by decide)

end Connector
