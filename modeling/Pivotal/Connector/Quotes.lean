import Pivotal.Connector.FspConnector

/-! What the connector puts into the quotes that it answers. -/
namespace Connector
open Fspiop Interledger Async Async.Program
open FspConnectorValidation
open Js (bind_ok_iff pure_ok_iff unless_ok_iff)

variable {platform : Platform} {settings : ConnectorSettings} {request : QuotesPostRequest}
  {response : QuotesIDPutResponse}

/-- A quote that was answered: the amounts it agreed to, the agreement about them and what was
prepared from it. -/
structure Issue (platform : Platform) (settings : ConnectorSettings)
    (response : QuotesIDPutResponse) where
  transferAmount : Money
  minor : ℤ
  agreement : FspiopAgreement
  expireAt : Js.Date
  prepared : Prepare
  amount_eq : response.transferAmount = some transferAmount
  supported : settings.isCurrencySupported transferAmount.currency = true
  validated : FspiopMoney.validate transferAmount = .ok transferAmount
  minor_eq : FspConnector.toMinor transferAmount = .ok minor
  agrees : agreement.transferAmount = transferAmount ∧ agreement.expireAt = expireAt
  expiration : FspiopDates.forRequestBody expireAt = .ok response.expiration
  prepares : prepare platform settings.ilpSecret (address settings.connectorId) minor
    agreement.toJson.stringify expireAt = .ok prepared
  ilpPacket : response.ilpPacket = prepared.base64PreparePacket
  condition : response.condition = prepared.base64Condition

namespace FspConnectorValidation

/-- The amounts of a checked output are supported, and pass their validation unchanged. -/
theorem validatePostQuotesOutput_ok {output : FspClient.PostQuotesOutput}
    {transferAmount payeeReceiveAmount : Money}
    (h : validatePostQuotesOutput output settings = .ok (transferAmount, payeeReceiveAmount)) :
    settings.isCurrencySupported transferAmount.currency = true ∧
      FspiopMoney.validate transferAmount = .ok transferAmount := by
  unfold validatePostQuotesOutput at h
  split at h
  · exact absurd h (by simp)
  · exact absurd h (by simp)
  · simp only [unless_ok_iff, bind_ok_iff, pure_ok_iff, Prod.mk.injEq] at h
    obtain ⟨hsupported, -, validated, hvalid, received, -, rfl, rfl⟩ := h
    rw [FspiopMoney.validate_currency hvalid]
    exact ⟨by simpa using hsupported, FspiopMoney.validate_idem hvalid⟩

end FspConnectorValidation

namespace FspConnector

theorem toMinor_nonneg {money : Money} {minor : ℤ} (h : toMinor money = .ok minor) : 0 ≤ minor := by
  simp only [toMinor, bind_ok_iff] at h
  obtain ⟨profile, -, hserialize⟩ := h
  exact FspiopMoney.serialize_nonneg hserialize

theorem toAgreement_ok {transferAmount payeeReceiveAmount : Money} {expireAt : ℤ}
    {agreement : FspiopAgreement}
    (h : toAgreement request transferAmount payeeReceiveAmount expireAt = .ok agreement) :
    agreement.transferAmount = transferAmount ∧ agreement.expireAt = expireAt := by
  unfold toAgreement at h
  split at h
  · rw [Except.ok.injEq] at h
    subst h
    exact ⟨rfl, rfl⟩
  · exact absurd h (by simp)

theorem respond_eq {transferAmount payeeReceiveAmount : Money} {minor : ℤ}
    {fees : Option ExtensionList} {now : Js.Date} {expiration : String}
    {agreement : FspiopAgreement} {prepared : Prepare}
    (hexpiration : FspiopDates.forRequestBody (now + fifteenMinutes * 1000) = .ok expiration)
    (hagreement : toAgreement request transferAmount payeeReceiveAmount
      (now + fifteenMinutes * 1000) = .ok agreement)
    (hprepare : prepare platform settings.ilpSecret (address settings.connectorId) minor
      agreement.toJson.stringify (now + fifteenMinutes * 1000) = .ok prepared) :
    respond platform settings request transferAmount payeeReceiveAmount minor fees now =
      .ok { transferAmount := some transferAmount, payeeReceiveAmount := some payeeReceiveAmount
            payeeFspFee := some (toZeroMoney transferAmount.currency)
            payeeFspCommission := some (toZeroMoney transferAmount.currency)
            expiration := expiration, ilpPacket := prepared.base64PreparePacket
            condition := prepared.base64Condition, extensionList := feesExtension fees } := by
  simp [respond, hexpiration, hagreement, hprepare, bind, Except.bind, pure, Except.pure]

theorem issue_of_respond {transferAmount payeeReceiveAmount : Money} {minor : ℤ}
    {fees : Option ExtensionList} {now : Js.Date}
    (hsupported : settings.isCurrencySupported transferAmount.currency = true)
    (hvalidated : FspiopMoney.validate transferAmount = .ok transferAmount)
    (hminor : toMinor transferAmount = .ok minor)
    (h : respond platform settings request transferAmount payeeReceiveAmount minor fees now =
      .ok response) : Nonempty (Issue platform settings response) := by
  simp only [respond, bind_ok_iff, pure_ok_iff] at h
  obtain ⟨expiration, hexpiration, agreement, hagreement, prepared, hprepared, rfl⟩ := h
  exact ⟨⟨transferAmount, minor, agreement, now + fifteenMinutes * 1000, prepared, rfl, hsupported,
    hvalidated, hminor, toAgreement_ok hagreement, hexpiration, hprepared, rfl, rfl⟩⟩

theorem issue_of_postQuotes {t : List (Event ConnectorOp ConnectorAnswer)}
    (h : (postQuotes platform settings request).Settles t (.ok response)) :
    Nonempty (Issue platform settings response) := by
  -- No call has to be watched, so any record will do.
  have hobeys : (postQuotes platform settings request).Obeys (Monitor.seen fun _ => false) false
      fun _ result => ∀ response, result = .ok response →
        Nonempty (Issue platform settings response) := by
    have hfail : ∀ (e : JsError) response, (.error e : Except JsError QuotesIDPutResponse) =
        .ok response → Nonempty (Issue platform settings response) := fun _ _ he => by simp at he
    refine .afterLift hfail fun checked _ => ?_
    dsimp only
    split
    · exact hfail _
    · refine .afterPerform trivial fun answer => ?_
      refine Obeys.afterLift hfail fun output _ => ?_
      refine Obeys.afterLift hfail fun amounts hamounts => ?_
      obtain ⟨hsupported, hvalidated⟩ := validatePostQuotesOutput_ok hamounts
      refine Obeys.afterLift hfail fun minor hminor => ?_
      refine Obeys.afterPerform trivial fun now => ?_
      exact fun response => issue_of_respond hsupported hvalidated hminor
  exact hobeys.settles h response rfl

/-- A quote is answered when its request, the wallet's output and the response pass. -/
theorem settles_postQuotes {checked : QuotesPostRequest} {scenario : TransactionScenario}
    {output : FspClient.PostQuotesOutput} {transferAmount payeeReceiveAmount : Money} {minor : ℤ}
    {now : Js.Date} (hrequest : validatePostQuotesRequest request settings = .ok checked)
    (hscenario : checked.transactionType.bind (·.scenario) = some scenario)
    (houtput : validatePostQuotesOutput output settings = .ok (transferAmount, payeeReceiveAmount))
    (hminor : toMinor transferAmount = .ok minor)
    (hrespond : respond platform settings checked transferAmount payeeReceiveAmount minor
      output.fees now = .ok response) :
    (postQuotes platform settings request).Settles
      [⟨.walletPostQuotes scenario (checked.transactionType.bind (·.subScenario))
          checked.amountType checked.amount checked.fees checked.extensionList, .ok output⟩,
        ⟨.now, now⟩] (.ok response) := by
  simp only [postQuotes, hrequest, lift, bind, settle, onOk_ok, hscenario, perform]
  refine settles_call_iff.mpr ⟨.ok output, _, rfl, ?_⟩
  simp only [onOk_ok, houtput, hminor]
  refine settles_call_iff.mpr ⟨now, _, rfl, ?_⟩
  simp only [hrespond]
  exact .refl _

end FspConnector

/-- The expiration of the sample quote. -/
def sampleExpiration : String := "2023-11-14T22:28:20.000+00:00"

def sampleResponse : QuotesIDPutResponse where
  transferAmount := some sampleAmount
  payeeReceiveAmount := some sampleAmount
  payeeFspFee := some ⟨"USD", "0"⟩
  payeeFspCommission := some ⟨"USD", "0"⟩
  expiration := sampleExpiration
  ilpPacket := base64Encode (samplePacket.bytes sampleExpiry) true
  condition := sampleCondition.toBase64Url
  extensionList := none

/-- The wallet agrees to the amount, 15 minutes before the expiry. -/
def sampleQuoting : List (Event ConnectorOp ConnectorAnswer) :=
  [⟨.walletPostQuotes .transfer none .send (some sampleAmount) none none,
      .ok ⟨some sampleAmount, some sampleAmount, none⟩⟩,
    ⟨.now, sampleExpiry - 900000⟩]

theorem sampleAgreement_eq : sampleTerms.toJson.stringify = sampleAgreement := by
  delta sampleAgreement
  rfl

theorem respond_sample : FspConnector.respond samplePlatform sampleSettings sampleQuoteRequest
    sampleAmount sampleAmount 1000 none (sampleExpiry - 900000) = .ok sampleResponse := by
  have hexpiry : sampleExpiry - 900000 + FspConnector.fifteenMinutes * 1000 = sampleExpiry := by
    decide
  have hprepare : prepare samplePlatform sampleSettings.ilpSecret
      (address sampleSettings.connectorId) 1000 sampleTerms.toJson.stringify
      (sampleExpiry - 900000 + FspConnector.fifteenMinutes * 1000) =
        .ok ⟨base64Encode (samplePacket.bytes sampleExpiry) true, samplePreimage.toBase64Url,
          sampleCondition.toBase64Url⟩ := by
    rw [sampleAgreement_eq, hexpiry]
    exact @samplePlatform_prepare sampleExpiry (by decide) (by decide)
  have hterms : FspConnector.toAgreement sampleQuoteRequest sampleAmount sampleAmount
      (sampleExpiry - 900000 + FspConnector.fifteenMinutes * 1000) = .ok sampleTerms := by
    rfl
  have hexpiration : FspiopDates.forRequestBody
      (sampleExpiry - 900000 + FspConnector.fifteenMinutes * 1000) = .ok sampleExpiration := by
    rfl
  exact FspConnector.respond_eq hexpiration hterms hprepare

theorem sampleQuote_settles :
    (FspConnector.postQuotes samplePlatform sampleSettings sampleQuoteRequest).Settles
      sampleQuoting (.ok sampleResponse) := by
  have hchecked : validatePostQuotesRequest sampleQuoteRequest sampleSettings =
      .ok sampleQuoteRequest := rfl
  have houtput : validatePostQuotesOutput ⟨some sampleAmount, some sampleAmount, none⟩
      sampleSettings = .ok (sampleAmount, sampleAmount) := rfl
  exact FspConnector.settles_postQuotes hchecked rfl houtput rfl respond_sample

end Connector
