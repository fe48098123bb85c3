import Pivotal.Connector.Handlers
import Pivotal.Connector.Transfers

/-! Which callbacks one command sends. The success callback and its audit share one `try` block,
whose catch clause sends the error callback. -/
namespace Connector
open Fspiop Interledger Audit Async Async.Program

/-- The calls that neither send a callback nor publish. -/
def ConnectorOp.quiet : ConnectorOp → Bool
  | .now => true
  | .walletGetParties _ _ _ => true
  | .walletPostQuotes _ _ _ _ _ _ => true
  | .walletPostTransfers _ _ _ => true
  | _ => false

/-! Programs that make quiet calls only keep what quiet calls keep. -/
section
variable {σ α : Type} {M : Monitor ConnectorOp ConnectorAnswer σ} {R : σ → Prop}
  {platform : Platform} {settings : ConnectorSettings}
  (hquiet : ∀ op : ConnectorOp, op.quiet = true →
    ∀ s, R s → M.allows s op ∧ ∀ a, R (M.next s op a))

namespace FspConnector
include hquiet

theorem keeps_getParties (partyIdType : PartyIdType) (partyId : String) (subId : Option String) :
    (getParties partyIdType partyId subId).Keeps M R :=
  (keeps_perform (hquiet _ rfl)).bind fun _ => keeps_lift _

theorem keeps_postQuotes (request : QuotesPostRequest) :
    (postQuotes platform settings request).Keeps M R := by
  refine (keeps_lift _).bind fun request => ?_
  dsimp only
  split
  · exact keeps_throw _
  · refine (keeps_perform (hquiet _ rfl)).bind fun _ => (keeps_lift _).bind fun output => ?_
    refine (keeps_lift _).bind fun amounts => (keeps_lift _).bind fun _ => ?_
    exact (keeps_perform (hquiet _ rfl)).bind fun _ => keeps_lift _

theorem keeps_validateAndUnwrapTransferIlpPacket
    (transfer : FspConnectorValidation.ValidTransfer) :
    (validateAndUnwrapTransferIlpPacket platform transfer).Keeps M R := by
  refine (keeps_lift _).bind fun unwrapped => (keeps_perform (hquiet _ rfl)).bind fun now => ?_
  dsimp only
  split
  · exact keeps_throw _
  · exact keeps_pure _

theorem keeps_fulfilTransfer (transfer : FspConnectorValidation.ValidTransfer)
    (unwrapped : FspConnectorValidation.UnwrappedTransfer) :
    (fulfilTransfer platform settings transfer unwrapped).Keeps M R := by
  refine Keeps.bind ?_ fun _ => keeps_lift _
  unfold resolveLifetimeSeconds
  split
  · exact keeps_pure _
  · exact (keeps_perform (hquiet _ rfl)).bind fun _ => keeps_pure _

theorem keeps_postTransfers (request : TransfersPostRequest) :
    (postTransfers platform settings request).Keeps M R := by
  refine (keeps_lift _).bind fun transfer => ?_
  refine (keeps_validateAndUnwrapTransferIlpPacket hquiet transfer).bind fun unwrapped => ?_
  refine (keeps_fulfilTransfer hquiet transfer unwrapped).bind fun _ => ?_
  exact (keeps_perform (hquiet _ rfl)).bind fun _ => (keeps_lift _).bind fun _ => keeps_pure _

end FspConnector
end

/-- What became of a success callback of the phase. -/
def successDelivery : InvocationPhase → Event ConnectorOp ConnectorAnswer → Option Delivery
  | .parties, ⟨.putParties _ _ _, delivery⟩ => some delivery
  | .quotes, ⟨.putQuotes _ _ _, delivery⟩ => some delivery
  | .transfers, ⟨.putTransfers _ _ _, delivery⟩ => some delivery
  | _, _ => none

/-- The hub accepted the success callback. -/
def acceptsSuccess (phase : InvocationPhase) (e : Event ConnectorOp ConnectorAnswer) : Bool :=
  (successDelivery phase e).any Delivery.isAccepted

/-- The hub accepted the success callback, and its answer was lost. -/
def losesAnswer (phase : InvocationPhase) (e : Event ConnectorOp ConnectorAnswer) : Bool :=
  (successDelivery phase e).any (· matches .unanswered _)

/-- The audit of the response was not published. -/
def responseAuditFails : Event ConnectorOp ConnectorAnswer → Bool
  | ⟨.publish message, .error _⟩ => message.action = .response
  | _ => false

/-- The error callback of the phase was sent, accepted or not. -/
def sendsError : InvocationPhase → Event ConnectorOp ConnectorAnswer → Bool
  | .parties, ⟨.putPartiesError _ _ _, _⟩ => true
  | .quotes, ⟨.putQuotesError _ _ _, _⟩ => true
  | .transfers, ⟨.putTransfersError _ _ _, _⟩ => true
  | _, _ => false

/-- Has each of these happened? -/
structure CallbackRecord where
  accepted : Bool
  answerLost : Bool
  auditFailed : Bool
  errorSent : Bool
  deriving DecidableEq

namespace CallbackRecord

def empty : CallbackRecord := ⟨false, false, false, false⟩

def next (phase : InvocationPhase) (s : CallbackRecord)
    (e : Event ConnectorOp ConnectorAnswer) : CallbackRecord where
  accepted := s.accepted || acceptsSuccess phase e
  answerLost := s.answerLost || losesAnswer phase e
  auditFailed := s.auditFailed || responseAuditFails e
  errorSent := s.errorSent || sendsError phase e

/-- One of the two failures that can follow the acceptance has happened. -/
def Failed (s : CallbackRecord) : Prop := s.answerLost = true ∨ s.auditFailed = true

/-- The error callback follows an accepted success callback exactly after such a failure. -/
def Settled (s : CallbackRecord) : Prop :=
  (s.accepted = true → s.errorSent = false) ↔ ¬ s.Failed

end CallbackRecord

def callbackMonitor (phase : InvocationPhase) :
    Monitor ConnectorOp ConnectorAnswer CallbackRecord where
  next s op a := s.next phase ⟨op, a⟩
  allows _ _ := True

theorem callbackMonitor_after (phase : InvocationPhase) (s : CallbackRecord)
    (t : List (Event ConnectorOp ConnectorAnswer)) : (callbackMonitor phase).after s t =
      { accepted := s.accepted || t.any (acceptsSuccess phase)
        answerLost := s.answerLost || t.any (losesAnswer phase)
        auditFailed := s.auditFailed || t.any responseAuditFails
        errorSent := s.errorSent || t.any (sendsError phase) } := by
  induction t generalizing s with
  | nil => simp
  | cons e t ih =>
    rw [Monitor.after_cons, ih]
    simp [callbackMonitor, CallbackRecord.next, Bool.or_assoc]

section
variable {phase : InvocationPhase} {s : CallbackRecord} {α : Type}

theorem next_quiet {op : ConnectorOp} (h : op.quiet = true) (a : ConnectorAnswer op) :
    s.next phase ⟨op, a⟩ = s := by
  cases op with
  | now | walletGetParties | walletPostQuotes | walletPostTransfers =>
    cases phase <;> simp [CallbackRecord.next, acceptsSuccess, losesAnswer, successDelivery,
      responseAuditFails, sendsError]
  | _ => simp [ConnectorOp.quiet] at h

theorem quiet_record (op : ConnectorOp) (h : op.quiet = true) (r : CallbackRecord) (hr : r = s) :
    (callbackMonitor phase).allows r op ∧
      ∀ a, (callbackMonitor phase).next r op a = s := by
  subst hr
  exact ⟨trivial, fun a => next_quiet h a⟩

/-- Publishing records a failed response audit and nothing else. -/
theorem next_publish (message : AuditMessage) (a : Except JsError Unit) :
    s.next phase ⟨.publish message, a⟩ = { s with
      auditFailed := s.auditFailed || responseAuditFails ⟨.publish message, a⟩ } := by
  cases phase <;> simp [CallbackRecord.next, acceptsSuccess, losesAnswer, successDelivery,
    sendsError]

/-- The callback was sent and answered in this way. -/
def CallbackRecord.sent (delivery : Delivery) : CallbackRecord :=
  ⟨delivery.isAccepted, delivery matches .unanswered _, false, false⟩

/-- How the `try` block ends: accepted and clean when it returns, and else with a failure exactly
if the callback was accepted. -/
def CallbackRecord.Ends (s : CallbackRecord) : Except JsError Unit → Prop
  | .ok _ => s = .sent .accepted
  | .error _ => s.errorSent = false ∧ (s.accepted = true ↔ s.Failed)

theorem CallbackRecord.settled_empty : CallbackRecord.empty.Settled := by
  simp [Settled, Failed, empty]

theorem obeys_put {put : ConnectorProgram Unit}
    (hput : put.Obeys (callbackMonitor phase) .empty fun s r =>
      ∃ delivery, s = .sent delivery ∧ r = delivery.result) :
    put.Obeys (callbackMonitor phase) .empty CallbackRecord.Ends := by
  refine hput.mono ?_
  rintro s r ⟨delivery, rfl, rfl⟩
  cases delivery with
  | accepted => rfl
  | unanswered error => exact ⟨rfl, by simp [CallbackRecord.sent, CallbackRecord.Failed,
      Delivery.isAccepted]⟩
  | refused error => exact ⟨rfl, by simp [CallbackRecord.sent, CallbackRecord.Failed,
      Delivery.isAccepted]⟩

/-- The audit of the response comes after an answered callback. -/
theorem obeys_publishResponse {message : AuditMessage} (hmessage : message.action = .response) :
    (AuditTransactionPublisher.publish message).Obeys (callbackMonitor phase) (.sent .accepted)
      CallbackRecord.Ends := by
  refine ⟨trivial, fun a => ?_⟩
  show CallbackRecord.Ends (CallbackRecord.next phase _ _) a
  rw [next_publish]
  cases a with
  | error e =>
    refine ⟨rfl, ?_⟩
    simp [CallbackRecord.Failed, CallbackRecord.sent, Delivery.isAccepted, responseAuditFails,
      hmessage]
  | ok u => rfl

theorem obeys_now {f : Js.Date → ConnectorProgram α} {Q : CallbackRecord → Except JsError α → Prop}
    (hf : ∀ now, (f now).Obeys (callbackMonitor phase) s Q) :
    (perform .now >>= f).Obeys (callbackMonitor phase) s Q := by
  refine .afterPerform trivial fun now => ?_
  show (f now).Obeys (callbackMonitor phase) (s.next phase ⟨.now, now⟩) Q
  rw [next_quiet rfl]
  exact hf now

/-- The `try` block, given what its wallet call and its callback do. -/
theorem obeys_callback {Response : Type} {content : Js.Date → AuditContent}
    {toAudit : Response → AuditResponse} {connector : ConnectorProgram Response}
    {put : Response → ConnectorProgram Unit}
    (hconnector : connector.Keeps (callbackMonitor phase) (· = .empty))
    (hput : ∀ response, (put response).Obeys (callbackMonitor phase) .empty fun s r =>
      ∃ delivery, s = .sent delivery ∧ r = delivery.result) :
    (callback phase content toAudit connector put).Obeys (callbackMonitor phase) .empty
      CallbackRecord.Ends := by
  refine Obeys.seq (hconnector _ rfl) ?_ ?_
  · rintro response _ rfl
    rw [obeys_bind]
    refine (obeys_put (hput response)).mono ?_
    rintro s (e | u) hs
    · exact hs
    · obtain rfl : s = .sent .accepted := hs
      exact obeys_now fun occurredAt => obeys_publishResponse rfl
  · rintro e _ rfl
    exact ⟨rfl, by simp [CallbackRecord.empty, CallbackRecord.Failed]⟩

theorem obeys_reportFailure {content : Js.Date → AuditContent}
    {putError : ErrorInformationObject → ConnectorProgram Unit} {error : JsError}
    (hput : ∀ response, (putError response).Obeys (callbackMonitor phase) s fun s' _ =>
      s' = { s with errorSent := true })
    (hs : s.Ends (.error error)) :
    (reportFailure phase content putError error).Obeys (callbackMonitor phase) s
      fun s' _ => s'.Settled := by
  have hsettled : ({ s with errorSent := true } : CallbackRecord).Settled := by
    have hfailed : ({ s with errorSent := true } : CallbackRecord).Failed ↔ s.Failed := Iff.rfl
    simp [CallbackRecord.Settled, hfailed, ← hs.2]
  refine Obeys.seq (R := (· = { s with errorSent := true })) ?_ ?_ ?_
  · rw [obeys_tryCatch, obeys_bind]
    refine (hput _).mono ?_
    rintro s' (e | u) rfl
    · rfl
    · rfl
  · rintro outcome _ rfl
    refine obeys_now fun occurredAt => ?_
    -- The audit of an error is not that of a response, so nothing more is recorded.
    refine Obeys.seq (R := (· = { s with errorSent := true })) ?_ ?_ ?_
    · rw [obeys_tryCatch]
      refine ⟨trivial, fun a => ?_⟩
      have hnext : (callbackMonitor phase).next { s with errorSent := true }
          (.publish (toErrorMessage phase content outcome.1 outcome.2 occurredAt)) a =
            { s with errorSent := true } := by
        show CallbackRecord.next phase _ _ = _
        rw [next_publish]
        cases a <;> simp [responseAuditFails, toErrorMessage, TransactionMessage.ofError]
      rw [hnext]
      cases a with
      | error e => rfl
      | ok u => rfl
    · rintro _ _ rfl
      exact hsettled
    · rintro _ _ rfl
      exact hsettled
  · rintro e _ rfl
    exact hsettled

/-- The request audit, then the `try` block with its catch clause. -/
theorem obeys_auditAndTry {Response : Type} {message : AuditMessage}
    {content : Js.Date → AuditContent} {toAudit : Response → AuditResponse}
    {connector : ConnectorProgram Response} {put : Response → ConnectorProgram Unit}
    {putError : ErrorInformationObject → ConnectorProgram Unit}
    (hmessage : message.action = .request)
    (hconnector : connector.Keeps (callbackMonitor phase) (· = .empty))
    (hput : ∀ response, (put response).Obeys (callbackMonitor phase) .empty fun s r =>
      ∃ delivery, s = .sent delivery ∧ r = delivery.result)
    (hputError : ∀ response s, (putError response).Obeys (callbackMonitor phase) s fun s' _ =>
      s' = { s with errorSent := true }) :
    (AuditTransactionPublisher.publish message >>= fun _ =>
      tryCatch (callback phase content toAudit connector put)
        (reportFailure phase content putError)).Obeys (callbackMonitor phase) .empty
      fun s _ => s.Settled := by
  refine ⟨trivial, fun a => ?_⟩
  have hnext : (callbackMonitor phase).next .empty (.publish message) a = .empty := by
    show CallbackRecord.next phase _ _ = _
    rw [next_publish]
    cases a <;> simp [responseAuditFails, hmessage]
  rw [hnext]
  cases a with
  | error e => exact CallbackRecord.settled_empty
  | ok u =>
    refine obeys_tryCatch.mpr ((obeys_callback hconnector hput).mono ?_)
    rintro s (e | u) hs
    · exact obeys_reportFailure (hputError · s) hs
    · obtain rfl : s = .sent .accepted := hs
      simp [onError, CallbackRecord.Settled, CallbackRecord.Failed, CallbackRecord.sent]

end

section
variable {env : Environment} {s : CallbackRecord}

theorem next_putPartiesError {url : String} {headers : FspiopHeadersMap}
    {body : ErrorInformationObject} (delivery : Delivery) :
    s.next .parties ⟨.putPartiesError url headers body, delivery⟩ =
      { s with errorSent := true } := by
  simp [CallbackRecord.next, acceptsSuccess, losesAnswer, successDelivery, responseAuditFails,
    sendsError]

theorem next_putQuotesError {url : String} {headers : FspiopHeadersMap}
    {body : ErrorInformationObject} (delivery : Delivery) :
    s.next .quotes ⟨.putQuotesError url headers body, delivery⟩ =
      { s with errorSent := true } := by
  simp [CallbackRecord.next, acceptsSuccess, losesAnswer, successDelivery, responseAuditFails,
    sendsError]

theorem next_putTransfersError {url : String} {headers : FspiopHeadersMap}
    {body : ErrorInformationObject} (delivery : Delivery) :
    s.next .transfers ⟨.putTransfersError url headers body, delivery⟩ =
      { s with errorSent := true } := by
  simp [CallbackRecord.next, acceptsSuccess, losesAnswer, successDelivery, responseAuditFails,
    sendsError]

theorem PerformGetPartiesHandler.obeys_execute (input : PerformGetPartiesCommand.Input) :
    (execute env input).Obeys (callbackMonitor .parties) .empty fun s _ => s.Settled := by
  refine obeys_now fun createdAt => ?_
  refine Obeys.afterLift (fun _ => CallbackRecord.settled_empty) fun auditCorrelationId _ => ?_
  refine obeys_now fun date => obeys_auditAndTry rfl ?_ ?_ ?_
  · exact FspConnector.keeps_getParties quiet_record _ _ _
  · exact fun response => ⟨trivial, fun delivery => ⟨delivery, rfl, rfl⟩⟩
  · exact fun response s => ⟨trivial, next_putPartiesError⟩

theorem PerformPostQuotesHandler.obeys_execute (input : PerformPostQuotesCommand.Input) :
    (execute env input).Obeys (callbackMonitor .quotes) .empty fun s _ => s.Settled := by
  refine obeys_now fun createdAt => ?_
  refine Obeys.afterLift (fun _ => CallbackRecord.settled_empty) fun auditCorrelationId _ => ?_
  refine obeys_now fun date => obeys_auditAndTry rfl ?_ ?_ ?_
  · exact FspConnector.keeps_postQuotes quiet_record _
  · exact fun response => ⟨trivial, fun delivery => ⟨delivery, rfl, rfl⟩⟩
  · exact fun response s => ⟨trivial, next_putQuotesError⟩

theorem PerformPostTransfersHandler.obeys_execute (input : PerformPostTransfersCommand.Input) :
    (execute env input).Obeys (callbackMonitor .transfers) .empty fun s _ => s.Settled := by
  refine obeys_now fun createdAt => ?_
  refine Obeys.afterLift (fun _ => CallbackRecord.settled_empty) fun auditCorrelationId _ => ?_
  refine obeys_now fun date => obeys_auditAndTry rfl ?_ ?_ ?_
  · exact FspConnector.keeps_postTransfers quiet_record _
  · exact fun response => ⟨trivial, fun delivery => ⟨delivery, rfl, rfl⟩⟩
  · exact fun response s => ⟨trivial, next_putTransfersError⟩

end

theorem settled_iff {phase : InvocationPhase} {program : ConnectorProgram Unit}
    (h : program.Obeys (callbackMonitor phase) .empty fun s _ => s.Settled)
    {t : List (Event ConnectorOp ConnectorAnswer)} {result : Except JsError Unit}
    (ht : program.Settles t result) :
    (t.any (acceptsSuccess phase) = true → t.any (sendsError phase) = false) ↔
      t.any (losesAnswer phase) = false ∧ t.any responseAuditFails = false := by
  have hsettled := h.settles ht
  rw [callbackMonitor_after] at hsettled
  simpa [CallbackRecord.Settled, CallbackRecord.Failed, CallbackRecord.empty] using hsettled

/-- An execution sends no error callback after an accepted `PUT /transfers/{id}`, unless the
answer to it was lost or the audit of the response failed. -/
theorem one_callback_iff (env : Environment) (input : PerformPostTransfersCommand.Input)
    {t : List (Event ConnectorOp ConnectorAnswer)} {result : Except JsError Unit}
    (ht : (PerformPostTransfersHandler.execute env input).Settles t result) :
    (t.any (acceptsSuccess .transfers) = true → t.any (sendsError .transfers) = false) ↔
      t.any (losesAnswer .transfers) = false ∧ t.any responseAuditFails = false :=
  settled_iff (PerformPostTransfersHandler.obeys_execute input) ht

section
variable {connector : ConnectorProgram TransfersIDPutResponse} {content : Js.Date → AuditContent}
  {url : String} {headers : FspiopHeadersMap} {id : Option String}
  {t : List (Event ConnectorOp ConnectorAnswer)} {response : TransfersIDPutResponse}

/-- The record of a trace. -/
def CallbackRecord.ofTrace (t : List (Event ConnectorOp ConnectorAnswer)) : CallbackRecord :=
  (callbackMonitor .transfers).after .empty t

theorem CallbackRecord.ofTrace_eq (t : List (Event ConnectorOp ConnectorAnswer)) :
    ofTrace t = ⟨t.any (acceptsSuccess .transfers), t.any (losesAnswer .transfers),
      t.any responseAuditFails, t.any (sendsError .transfers)⟩ := by
  simp only [ofTrace, callbackMonitor_after, empty, Bool.false_or]

/-- The `try` block of a transfer whose callback is accepted, with its audit answered so. -/
theorem settles_callback (h : connector.Settles t (.ok response)) (audited : Except JsError Unit) :
    (callback .transfers content .transfers connector
      fun response => FspiopAxios.putTransfers url headers id response).Settles
      (t ++ [⟨.putTransfers (url ++ "/transfers/" ++ FspiopAxios.interpolate id) headers response,
          .accepted⟩, ⟨.now, 0⟩,
        ⟨.publish (.ofResponse .transfers .connector
          { content 0 with response := some (.transfers response) }), audited⟩]) audited := by
  refine h.settle (settles_call_iff.mpr ⟨.accepted, _, rfl, ?_⟩)
  refine settles_call_iff.mpr ⟨0, _, rfl, settles_call_iff.mpr ⟨audited, _, rfl, ?_⟩⟩
  exact .refl _

/-- The catch clause of a transfer, with the error callback accepted and audited. -/
theorem settles_reportFailure (error : JsError) : ∃ result,
    (reportFailure .transfers content
      (fun response => FspiopAxios.putTransfersError url headers id response) error).Settles
      [⟨.putTransfersError (url ++ "/transfers/" ++ FspiopAxios.interpolate id ++ "/error") headers
          (AuditErrorConverter.toAuditError error), .accepted⟩, ⟨.now, 0⟩,
        ⟨.publish (toErrorMessage .transfers content error (AuditErrorConverter.toFspError error) 0),
          .ok ()⟩] result :=
  ⟨_, settles_call_iff.mpr ⟨.accepted, _, rfl, settles_call_iff.mpr ⟨0, _, rfl,
    settles_call_iff.mpr ⟨.ok (), _, rfl, .refl _⟩⟩⟩⟩

/-- A transfer that the wallet took, whose callback is accepted: one failure of the audit decides
whether the error callback is sent as well. -/
theorem settles_execute {env : Environment} {input : PerformPostTransfersCommand.Input}
    {auditId : String}
    (hid : resolveCorrelationId input.correlationId [input.request.transferId] = .ok auditId)
    (hwallet : (FspConnector.postTransfers env.platform env.connector input.request).Settles t
      (.ok response)) (audited : Except JsError Unit) :
    ∃ t' result, (PerformPostTransfersHandler.execute env input).Settles t' result ∧
      CallbackRecord.ofTrace t' = ⟨true, false, !audited.isOk, !audited.isOk⟩ := by
  have hquiet : (callbackMonitor .transfers).after .empty t = .empty :=
    (FspConnector.keeps_postTransfers quiet_record input.request _ rfl).settles hwallet
  simp only [callbackMonitor_after, CallbackRecord.empty, CallbackRecord.mk.injEq,
    Bool.false_or] at hquiet
  obtain ⟨haccepts, hloses, hfails, hsends⟩ := hquiet
  simp only [PerformPostTransfersHandler.execute, hid]
  cases audited with
  | ok u =>
    refine ⟨_, _, settles_call_iff.mpr ⟨0, _, rfl, settles_call_iff.mpr ⟨0, _, rfl,
      settles_call_iff.mpr ⟨.ok (), _, rfl, (settles_callback hwallet (.ok u)).settle
        (.refl _)⟩⟩⟩, ?_⟩
    simp only [CallbackRecord.ofTrace_eq, List.any_cons, List.any_append, haccepts, hloses,
      hfails, hsends]
    rfl
  | error e =>
    obtain ⟨result, hreport⟩ := settles_reportFailure e
    refine ⟨_, _, settles_call_iff.mpr ⟨0, _, rfl, settles_call_iff.mpr ⟨0, _, rfl,
      settles_call_iff.mpr ⟨.ok (), _, rfl, (settles_callback hwallet (.error e)).settle
        hreport⟩⟩⟩, ?_⟩
    simp only [CallbackRecord.ofTrace_eq, List.any_cons, List.any_append, haccepts, hloses,
      hfails, hsends]
    rfl

end
/-- The sample transfer, as the hub forwards it. -/
def sampleEnvironment : Environment :=
  ⟨samplePlatform, sampleSettings, ⟨"http://hub", "http://hub", "http://hub"⟩⟩

def sampleInput : PerformPostTransfersCommand.Input :=
  ⟨none, "a", "b", sampleTransfer sampleAmount sampleExpiry sampleExpiration sampleCondition⟩

/-- The sample transfer is callback by callback what its audit makes of it. -/
theorem settles_sample (audited : Except JsError Unit) : ∃ t result,
    (PerformPostTransfersHandler.execute sampleEnvironment sampleInput).Settles t result ∧
      CallbackRecord.ofTrace t = ⟨true, false, !audited.isOk, !audited.isOk⟩ := by
  have hid : resolveCorrelationId none [some "t"] = .ok "t" := rfl
  have hwallet := FspConnector.settles_of_admission
    (@sampleConditionAdmitted sampleCondition (by decide))
    (.ok ⟨none, none, .reserved, none⟩)
  exact @settles_execute _ _ sampleEnvironment sampleInput _ hid hwallet audited

/-- With every call answered, the error callback is not sent. -/
theorem one_callback_iff_sample : ∃ t result,
    (PerformPostTransfersHandler.execute sampleEnvironment sampleInput).Settles t result ∧
      t.any (acceptsSuccess .transfers) = true ∧ t.any (sendsError .transfers) = false := by
  obtain ⟨t, result, hrun, hrecord⟩ := settles_sample (.ok ())
  rw [CallbackRecord.ofTrace_eq, CallbackRecord.mk.injEq] at hrecord
  obtain ⟨haccepts, hloses, hfails, -⟩ := hrecord
  exact ⟨t, result, hrun, haccepts, (one_callback_iff _ _ hrun).mpr ⟨hloses, hfails⟩ haccepts⟩

/-- The audit of an accepted callback is lost, and the error callback follows. -/
theorem not_one_callback : ¬ ∀ env input t result,
    (PerformPostTransfersHandler.execute env input).Settles t result →
      t.any (acceptsSuccess .transfers) = true → t.any (sendsError .transfers) = false := by
  intro h
  obtain ⟨t, result, hrun, hrecord⟩ := settles_sample (.error .other)
  rw [CallbackRecord.ofTrace_eq, CallbackRecord.mk.injEq] at hrecord
  obtain ⟨haccepts, -, -, hsends⟩ := hrecord
  have hquiet := h _ _ t result hrun haccepts
  rw [hsends] at hquiet
  exact absurd hquiet (by decide)

theorem one_quotes_callback_iff (env : Environment) (input : PerformPostQuotesCommand.Input)
    {t : List (Event ConnectorOp ConnectorAnswer)} {result : Except JsError Unit}
    (ht : (PerformPostQuotesHandler.execute env input).Settles t result) :
    (t.any (acceptsSuccess .quotes) = true → t.any (sendsError .quotes) = false) ↔
      t.any (losesAnswer .quotes) = false ∧ t.any responseAuditFails = false :=
  settled_iff (PerformPostQuotesHandler.obeys_execute input) ht

theorem one_parties_callback_iff (env : Environment) (input : PerformGetPartiesCommand.Input)
    {t : List (Event ConnectorOp ConnectorAnswer)} {result : Except JsError Unit}
    (ht : (PerformGetPartiesHandler.execute env input).Settles t result) :
    (t.any (acceptsSuccess .parties) = true → t.any (sendsError .parties) = false) ↔
      t.any (losesAnswer .parties) = false ∧ t.any responseAuditFails = false :=
  settled_iff (PerformGetPartiesHandler.obeys_execute input) ht

end Connector
