import Pivotal.Outbound.SendMoney

/-! What a `PUT` does once it has read the cached transfer, it does for the payer of that
transfer, which is the source of the request. -/
namespace Outbound
open Fspiop Audit Async Async.Program

/-- The participant that pays, as the handlers read it. -/
def payerFsp (transferRequest : TransferRequest) : Option String :=
  ((transferRequest.payer.bind (·.partyIdInfo)).bind (·.fspId)).map Js.trim

/-- The calls that neither read nor write a cached transfer, nor leave the service. -/
def OutboundOp.isQuiet : OutboundOp → Bool
  | .redisGet _ => false
  | .redisSet _ _ _ => false
  | .redisDel _ => false
  | .publish _ => false
  | .postQuotes _ _ _ => false
  | .postTransfers _ _ _ => false
  | _ => true

namespace Authority

/-- The transfer that was read last. -/
def next (read : Option TransferRequest) : (op : OutboundOp) → OutboundAnswer op →
    Option TransferRequest
  | .redisGet _, .ok (some transferRequest) => some transferRequest
  | _, _ => read

/-- A transfer was read that `source` pays. -/
def Acts (source : String) (read : Option TransferRequest) (transferRequest : TransferRequest) :
    Prop :=
  read = some transferRequest ∧ payerFsp transferRequest = some source

def allows (transferId source : String) (read : Option TransferRequest) : OutboundOp → Prop
  | .redisGet key => key = transferId
  | .redisSet key value _ =>
    key = transferId ∧ ∃ t, Acts source read t ∧ value.payer = t.payer
  | .redisDel key => key = transferId ∧ ∃ t, Acts source read t
  | .publish message => message.content.correlationId = transferId ∧ ∃ t, Acts source read t
  | .postQuotes _ headers body => ∃ t, Acts source read t ∧ body.payer = t.payer ∧
    headers.fspiopSource = source
  | .postTransfers _ headers body => ∃ t, Acts source read t ∧ body.payerFsp = some source ∧
    headers.fspiopSource = source
  | _ => True

end Authority

/-- The monitor of a `PUT` on a transfer, issued by a participant. -/
def authority (transferId source : String) :
    Monitor OutboundOp OutboundAnswer (Option TransferRequest) :=
  ⟨Authority.next, Authority.allows transferId source⟩

variable {id source : String} {read : Option TransferRequest} {tr : TransferRequest}
  {settings : OutboundSettings}

theorem authority_allows_quiet {op : OutboundOp} (h : op.isQuiet = true) :
    (authority id source).allows read op := by
  cases op <;> trivial

theorem authority_next_quiet {op : OutboundOp} (h : op.isQuiet = true) (a : OutboundAnswer op) :
    (authority id source).next read op a = read := by
  cases op <;> first | rfl | cases h

theorem getFspId_ok {routing label fspId : String} {party : Option Party}
    (h : getFspId routing party label = .ok fspId) :
    ((party.bind (·.partyIdInfo)).bind (·.fspId)).map Js.trim = some fspId ∧ fspId ≠ "" := by
  simp only [getFspId] at h
  split at h
  · rename_i trimmed htrim
    split_ifs at h with hempty
    cases h
    exact ⟨htrim, hempty⟩
  · cases h

theorem toTransfersPostRequest_payer {body : TransfersPostRequest}
    (h : PutAcceptQuoteHandler.toTransfersPostRequest id tr = .ok body) :
    body.payerFsp = payerFsp tr := by
  unfold PutAcceptQuoteHandler.toTransfersPostRequest at h
  split at h
  · cases h
  · obtain ⟨payer, hpayer, h⟩ := Js.bind_ok_iff.mp h
    obtain ⟨payee, -, h⟩ := Js.bind_ok_iff.mp h
    rw [← Js.pure_ok_iff.mp h]
    exact (getFspId_ok hpayer).1.symm

theorem assertSourceCanActForPayer_ok {payer : String}
    (h : assertSourceCanActForPayer (some source) payer = .ok ()) (hne : source ≠ "")
    (htrim : Js.trim source = source) : source = payer := by
  simp only [assertSourceCanActForPayer, Option.map_some, htrim] at h
  split_ifs at h with hsame
  exact hsame.resolve_left hne

/-! Calls that keep the transfer that was read. -/

theorem authority_keeps_quiet {R : Option TransferRequest → Prop} {op : OutboundOp}
    (h : op.isQuiet = true) :
    (perform op : OutboundProgram _).Keeps (authority id source) R := by
  apply keeps_perform
  intro s hs
  constructor
  · exact authority_allows_quiet h
  · intro a
    rwa [authority_next_quiet h]

section Acting

variable (hacts : Authority.Acts source read tr)
include hacts

theorem authority_keeps_publish {message : AuditMessage}
    (hid : message.content.correlationId = id) :
    (AuditTransactionPublisher.publish message).Keeps (authority id source) (· = read) := by
  apply Keeps.bind
  · apply keeps_perform
    rintro _ rfl
    exact ⟨⟨hid, tr, hacts⟩, fun _ => rfl⟩
  · intro result
    exact keeps_lift result

theorem authority_keeps_delete :
    (RedisClient.delete id).Keeps (authority id source) (· = read) := by
  apply Keeps.bind
  · apply keeps_perform
    rintro _ rfl
    exact ⟨⟨rfl, tr, hacts⟩, fun _ => rfl⟩
  · intro result
    exact keeps_lift result

theorem authority_keeps_set {value : TransferRequest} (hpayer : value.payer = tr.payer) :
    (RedisClient.set settings id value).Keeps (authority id source) (· = read) := by
  apply Keeps.bind
  · apply keeps_perform
    rintro _ rfl
    exact ⟨⟨rfl, tr, hacts, hpayer⟩, fun _ => rfl⟩
  · intro result
    exact keeps_lift result

theorem authority_keeps_auditAndThrow {α : Type} {phase : InvocationPhase}
    {content : Js.Date → FspiopException → AuditContent} {error : JsError}
    (hid : ∀ date exception, (content date exception).correlationId = id) :
    (auditAndThrow id phase content error : OutboundProgram α).Keeps (authority id source)
      (· = read) := by
  apply (authority_keeps_quiet rfl).bind
  intro date
  apply Keeps.bind
  · apply (authority_keeps_publish hacts (hid date _)).tryFinally
    exact (authority_keeps_delete hacts).tryFinally (keeps_throw _)
  · intro _
    exact keeps_throw _

end Acting

theorem authority_keeps_sendOrCancel {R : Option TransferRequest → Prop} {subject : String}
    {send : OutboundProgram Unit} (h : send.Keeps (authority id source) R) :
    (sendOrCancel subject send).Keeps (authority id source) R := by
  apply h.tryCatch
  intro error
  apply (authority_keeps_quiet rfl).bind
  intro _
  exact keeps_throw _

theorem authority_keeps_assertNotSuspicious {R : Option TransferRequest → Prop}
    (pattern : SuspiciousTransactionMonitor.Pattern) :
    (SuspiciousTransactionMonitor.assertNotSuspicious settings pattern).Keeps
      (authority id source) R := by
  have hcount : ∀ count : ℤ, (if count ≤ settings.suspiciousTxnThreshold then pure ()
      else throw (reject FspiopErrors.suspiciousTransactionPattern
        "Suspicious repetitive transaction pattern detected within the monitoring window.") :
      OutboundProgram Unit).Keeps (authority id source) R := by
    intro count
    split
    · exact keeps_pure _
    · exact keeps_throw _
  simp only [SuspiciousTransactionMonitor.assertNotSuspicious, RedisClient.incrementWithTtl]
  split
  · exact keeps_pure _
  · split
    · exact Keeps.bind (keeps_throw _) hcount
    · exact Keeps.bind ((authority_keeps_quiet rfl).bind fun _ => keeps_lift _) hcount

/-- Once a transfer that the source pays is read, all that follows is for it. -/
theorem authority_of_keeps {α : Type} {p : OutboundProgram α}
    (h : p.Keeps (authority id source) (· = read)) :
    p.Obeys (authority id source) read fun _ _ => True :=
  (h read rfl).mono fun _ _ _ => trivial

theorem authority_executeUnderLock {α : Type} {body : OutboundProgram α}
    (h : body.Obeys (authority id source) none fun _ _ => True) :
    (executeUnderLock id body).Obeys (authority id source) none fun _ _ => True := by
  refine ⟨trivial, fun token => ⟨trivial, ?_⟩⟩
  rintro (e | _ | _)
  · trivial
  · trivial
  · apply obeys_tryFinally.mpr
    apply h.mono
    intro s result _
    exact ⟨trivial, fun _ => trivial⟩

theorem authority_getTransferRequest {α : Type} {f : TransferRequest → OutboundProgram α}
    (hf : ∀ tr, (f tr).Obeys (authority id source) (some tr) fun _ _ => True) :
    (getTransferRequest id >>= f).Obeys (authority id source) none fun _ _ => True := by
  refine ⟨rfl, ?_⟩
  rintro (e | _ | value)
  · trivial
  · trivial
  · exact hf value

theorem authority_keeps_publishAndTry {α : Type} (hacts : Authority.Acts source read tr)
    {message : AuditMessage} {body : OutboundProgram α} {phase : InvocationPhase}
    {content : Js.Date → FspiopException → AuditContent}
    (hmessage : message.content.correlationId = id)
    (hid : ∀ date exception, (content date exception).correlationId = id)
    (hbody : body.Keeps (authority id source) (· = read)) :
    (AuditTransactionPublisher.publish message >>= fun _ =>
      tryCatch body (auditAndThrow id phase content)).Keeps (authority id source) (· = read) := by
  apply (authority_keeps_publish hacts hmessage).bind
  intro _
  apply hbody.tryCatch
  intro error
  exact authority_keeps_auditAndThrow hacts hid

section Requests

variable (hacts : Authority.Acts source read tr)
include hacts

theorem authority_keeps_requestQuote {acceptParty : Bool} {confirmed : TransferRequest}
    {destination : String} {body : QuotesPostRequest} (hconfirmed : confirmed.payer = tr.payer)
    (hbody : body.payer = tr.payer) :
    (PutAcceptPartyHandler.requestQuote settings id acceptParty confirmed source destination
      body).Keeps (authority id source) (· = read) := by
  have hpost : ∀ date, (FspiopAxios.postQuotes settings (FspiopHeaders.Quotes.forRequest
      (some body.quoteId) source destination date) body).Keeps (authority id source) (· = read) := by
    intro date
    apply Keeps.bind
    · apply keeps_perform
      rintro _ rfl
      exact ⟨⟨tr, hacts, hbody, rfl⟩, fun _ => rfl⟩
    · intro result
      exact keeps_lift result
  unfold PutAcceptPartyHandler.requestQuote
  apply Keeps.unless
  apply (authority_keeps_assertNotSuspicious _).bind
  intro _
  apply (authority_keeps_quiet rfl).bind
  intro date
  apply (authority_keeps_quiet rfl).bind
  intro registered
  apply (keeps_lift registered).bind
  intro _
  apply (authority_keeps_sendOrCancel (hpost date)).bind
  intro _
  apply (authority_keeps_quiet rfl).bind
  intro answer
  apply (keeps_lift answer).bind
  intro callback
  apply (keeps_lift _).bind
  intro response
  have hvalue : { confirmed with quotes := some callback, transfer := none }.payer = tr.payer :=
    hconfirmed
  apply (authority_keeps_set hacts hvalue).bind
  intro _
  apply (authority_keeps_quiet rfl).bind
  intro occurredAt
  refine (authority_keeps_publish hacts ?_).bind fun _ => keeps_pure _
  rfl

theorem authority_keeps_requestTransfer {acceptQuote : Bool} {confirmed : TransferRequest}
    {destination : String} {body : TransfersPostRequest} (hbody : body.payerFsp = some source) :
    (PutAcceptQuoteHandler.requestTransfer settings id acceptQuote confirmed source destination
      body).Keeps (authority id source) (· = read) := by
  have hpost : ∀ date, (FspiopAxios.postTransfers settings (FspiopHeaders.Transfers.forRequest
      (some id) source destination date) body).Keeps (authority id source) (· = read) := by
    intro date
    apply Keeps.bind
    · apply keeps_perform
      rintro _ rfl
      exact ⟨⟨tr, hacts, hbody, rfl⟩, fun _ => rfl⟩
    · intro result
      exact keeps_lift result
  unfold PutAcceptQuoteHandler.requestTransfer
  apply Keeps.unless
  apply (authority_keeps_quiet rfl).bind
  intro date
  apply (authority_keeps_quiet rfl).bind
  intro registered
  apply (keeps_lift registered).bind
  intro _
  apply (authority_keeps_sendOrCancel (hpost date)).bind
  intro _
  apply (authority_keeps_quiet rfl).bind
  intro answer
  apply (keeps_lift answer).bind
  intro callback
  apply (authority_keeps_quiet rfl).bind
  intro occurredAt
  refine Keeps.bind (authority_keeps_publish hacts ?_) fun _ => ?_
  · rfl
  · exact (authority_keeps_delete hacts).bind fun _ => keeps_pure _

theorem authority_storeHomeTransactionId {homeTransactionId : Option String} :
    (PutAcceptQuoteHandler.storeHomeTransactionId settings id homeTransactionId tr).Obeys
      (authority id source) read fun read' result =>
        ∀ stored, result = .ok stored → read' = read ∧ stored.payer = tr.payer := by
  cases homeTransactionId with
  | none => exact fun stored h => ⟨rfl, Except.ok.inj h ▸ rfl⟩
  | some value =>
    have hset : (RedisClient.set settings id { tr with homeTransactionId := some value }).Keeps
        (authority id source) (· = read) := authority_keeps_set hacts rfl
    refine Obeys.seq (hset read rfl) ?_ ?_
    · rintro _ _ rfl
      exact fun stored h => ⟨rfl, Except.ok.inj h ▸ rfl⟩
    · intro e _ _ stored h
      cases h

end Requests

section Handlers

variable (hne : source ≠ "") (htrim : Js.trim source = source)
include hne htrim

/-- Past the checks, the source pays the transfer that was read. -/
theorem acts_of_checks {routing label payer : String}
    (hpayer : getFspId routing tr.payer label = .ok payer)
    (hcan : assertSourceCanActForPayer (some source) payer = .ok ()) :
    Authority.Acts source (some tr) tr ∧ source = payer := by
  have hsame := assertSourceCanActForPayer_ok hcan hne htrim
  refine ⟨⟨rfl, ?_⟩, hsame⟩
  rw [hsame]
  exact (getFspId_ok hpayer).1

theorem authority_executeParty {input : PutAcceptPartyCommand.Input} (hid : input.transferId = id)
    (hsource : input.requestSource = some source) :
    (PutAcceptPartyHandler.execute settings input).Obeys (authority id source) none
      fun _ _ => True := by
  subst hid
  apply authority_executeUnderLock
  apply authority_getTransferRequest
  intro tr
  dsimp only
  split
  · trivial
  · refine .afterLift (fun _ => trivial) fun payer hpayer => ?_
    rw [hsource]
    refine .afterLift (fun _ => trivial) fun _ hcan => ?_
    obtain ⟨hacts, rfl⟩ := acts_of_checks hne htrim hpayer hcan
    refine .afterLift (fun _ => trivial) fun extensionList _ => ?_
    -- named, so that unification does not evaluate the check
    generalize AmountDecimalValidator.validate _ _ = checked
    refine Obeys.afterLift (fun _ => trivial) fun _ _ => ?_
    refine .afterLift (fun _ => trivial) fun destination _ => ?_
    apply authority_of_keeps
    apply (authority_keeps_quiet rfl).bind
    intro createdAt
    refine authority_keeps_publishAndTry hacts ?_ ?_ ?_
    · rfl
    · exact fun _ _ => rfl
    · exact authority_keeps_requestQuote hacts rfl rfl

theorem authority_executeQuote {input : PutAcceptQuoteCommand.Input} (hid : input.transferId = id)
    (hsource : input.requestSource = some source) :
    (PutAcceptQuoteHandler.execute settings input).Obeys (authority id source) none
      fun _ _ => True := by
  subst hid
  apply authority_executeUnderLock
  apply authority_getTransferRequest
  intro tr
  dsimp only
  split
  · trivial
  · refine .afterLift (fun _ => trivial) fun payer hpayer => ?_
    rw [hsource]
    refine .afterLift (fun _ => trivial) fun _ hcan => ?_
    obtain ⟨hacts, rfl⟩ := acts_of_checks hne htrim hpayer hcan
    refine Obeys.andThen (authority_storeHomeTransactionId hacts) ?_ fun _ _ => trivial
    rintro stored _ ⟨rfl, hstored⟩
    refine .afterLift (fun _ => trivial) fun destination _ => ?_
    refine .afterLift (fun _ => trivial) fun body hbody => ?_
    have hpayerFsp : body.payerFsp = some source := by
      rw [toTransfersPostRequest_payer hbody, payerFsp, hstored]
      exact hacts.2
    apply authority_of_keeps
    apply (authority_keeps_quiet rfl).bind
    intro createdAt
    apply (keeps_lift _).bind
    intro _
    refine authority_keeps_publishAndTry hacts ?_ ?_ ?_
    · rfl
    · exact fun _ _ => rfl
    · exact authority_keeps_requestTransfer hacts hpayerFsp

/-- All that a `PUT` does to a transfer, it does for its source, which pays that transfer. -/
theorem authority_put {header : Option String}
    (hheader : SendMoneyController.toOptionalSource header = some source)
    (request : PutSendMoneyRequest) :
    (SendMoneyController.put settings header id request).Obeys (authority id source) none
      fun _ _ => True := by
  unfold SendMoneyController.put
  split
  · refine Obeys.andThen (T := fun _ _ => True) ?_ (fun _ _ _ => trivial) fun _ _ => trivial
    exact (authority_executeParty hne htrim rfl hheader).mono fun _ _ _ _ _ => trivial
  · refine Obeys.andThen (T := fun _ _ => True) ?_ (fun _ _ _ => trivial) fun _ _ => trivial
    exact (authority_executeQuote hne htrim rfl hheader).mono fun _ _ _ _ _ => trivial
  · trivial

end Handlers

end Outbound
