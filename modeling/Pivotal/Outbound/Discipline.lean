import Pivotal.Outbound.Journal

/-! Both handlers follow the discipline of the journal, whatever their calls answer. -/
namespace Outbound
open Fspiop Audit Async Async.Program

attribute [local simp] Journal.next Journal.allows Journal.afterSetNx Journal.afterGet
  Journal.afterSet Journal.afterPublish

namespace Journal

def Holds (token : String) (r : Journal) : Prop := r.token = some token ∧ r.released = false

def Pending (token : String) (r : Journal) : Prop := r.Holds token ∧ r.completed = false

/-- In the section of `token`, with no quote stored. -/
def Open (token : String) (r : Journal) : Prop := r.Pending token ∧ r.stored = none

/-- The record right after the acquisition of the lock. -/
def locked (job : OutboundJob) (token : String) : Journal := { initial job with token := some token }

/-- The record right after reading the cached transfer. -/
def opened (job : OutboundJob) (token : String) (tr : TransferRequest) : Journal :=
  { locked job token with loaded := some tr }

variable {r : Journal} {token : String}

theorem Holds.inSection (h : r.Holds token) : r.InSection := by
  simp [InSection, h.1, h.2]

theorem Pending.inSection (h : r.Pending token) : r.InSection := h.1.inSection

theorem Open.inSection (h : r.Open token) : r.InSection := h.1.inSection

theorem Pending.unreleased (h : r.Pending token) : r.released = false := h.1.2

theorem Open.unreleased (h : r.Open token) : r.released = false := h.1.1.2

theorem open_locked (job : OutboundJob) : (locked job token).Open token :=
  ⟨⟨⟨rfl, rfl⟩, rfl⟩, rfl⟩

theorem open_opened (job : OutboundJob) (tr : TransferRequest) : (opened job token tr).Open token :=
  ⟨⟨⟨rfl, rfl⟩, rfl⟩, rfl⟩

theorem Open.completes (h : r.Open token) (message : AuditMessage) :
    r.completes message = false := by
  simp [Journal.completes, h.2]

theorem completes_of_ne {message : AuditMessage} (h : message.action ≠ .response) :
    r.completes message = false := by
  simp [completes, h]

/-- How a `try` block ends: pending when it throws, described by `Q` when it returns. -/
def Ends {α : Type} (token : String) (Q : Journal → α → Prop) (s : Journal) :
    Except JsError α → Prop
  | .error _ => s.Pending token
  | .ok a => Q s a

end Journal

variable {id token : String} {r : Journal} {settings : OutboundSettings}
  {source destination : String} {tr : TransferRequest}

/-! Calls that leave an open record open. -/

theorem obeys_quiet {α : Type} {op : OutboundOp} {f : OutboundAnswer op → OutboundProgram α}
    {Q : Journal → Except JsError α → Prop} (hop : op.quiet = true) (hr : r.released = false)
    (hf : ∀ a, (f a).Obeys (journal id) r Q) : (perform op >>= f).Obeys (journal id) r Q := by
  refine .afterPerform ((Journal.allows_quiet hop).mpr hr) fun a => ?_
  rw [journal_next, r.next_quiet hop]
  exact hf a

theorem keeps_quiet {R : Journal → Prop} {op : OutboundOp} (hop : op.quiet = true)
    (hR : ∀ r, R r → r.released = false) :
    (perform op : OutboundProgram _).Keeps (journal id) R := by
  refine keeps_perform fun r hr => ⟨(Journal.allows_quiet hop).mpr (hR r hr), fun a => ?_⟩
  rwa [journal_next, r.next_quiet hop]

/-- Publishing keeps any record that the message does not complete. -/
theorem keeps_publish {R : Journal → Prop} {message : AuditMessage}
    (hR : ∀ r, R r → r.InSection ∧ r.completes message = false) :
    (AuditTransactionPublisher.publish message).Keeps (journal id) R := by
  refine (keeps_perform fun r hr => ⟨?_, ?_⟩).bind fun _ => keeps_lift _
  · simp [hR r hr]
  · rintro (e | u)
    · exact hr
    · simpa [(hR r hr).2] using hr

theorem keeps_delete {R : Journal → Prop} (hR : ∀ r, R r → r.InSection) :
    (RedisClient.delete id).Keeps (journal id) R := by
  refine (keeps_perform fun r hr => ⟨?_, fun _ => hr⟩).bind fun _ => keeps_lift _
  simp [hR r hr]

/-- The catch clause rejects, and completes nothing. -/
theorem obeys_auditAndThrow {α : Type} {phase : InvocationPhase}
    {content : Js.Date → FspiopException → AuditContent} {error : JsError}
    (hr : r.Pending token) :
    (auditAndThrow id phase content error : OutboundProgram α).Obeys (journal id) r
      fun s result => s.Pending token ∧ ∃ e, result = .error e := by
  have haudit : ∀ date exception, (AuditTransactionPublisher.publish
      (.ofError phase .outbound (content date exception))).Keeps (journal id)
      (Journal.Pending token) := fun _ _ =>
    keeps_publish fun _ h => ⟨h.inSection, Journal.completes_of_ne (by simp [TransactionMessage.ofError])⟩
  have hdelete : (RedisClient.delete id).Keeps (journal id) (Journal.Pending token) :=
    keeps_delete fun _ h => h.inSection
  refine obeys_quiet rfl hr.unreleased fun date => Obeys.seq (R := Journal.Pending token) ?_
    (fun _ s hs => ⟨hs, _, rfl⟩) fun e s hs => ⟨hs, e, rfl⟩
  exact (haudit _ _).tryFinally (hdelete.tryFinally (keeps_throw _)) r hr

theorem keeps_assertNotSuspicious {R : Journal → Prop} (hR : ∀ r, R r → r.released = false)
    (pattern : SuspiciousTransactionMonitor.Pattern) :
    (SuspiciousTransactionMonitor.assertNotSuspicious settings pattern).Keeps (journal id) R := by
  have hcount : ∀ count : ℤ, (if count ≤ settings.suspiciousTxnThreshold then pure ()
      else throw (reject FspiopErrors.suspiciousTransactionPattern
        "Suspicious repetitive transaction pattern detected within the monitoring window.") :
      OutboundProgram Unit).Keeps (journal id) R := by
    intro count
    split
    · exact keeps_pure _
    · exact keeps_throw _
  simp only [SuspiciousTransactionMonitor.assertNotSuspicious, RedisClient.incrementWithTtl]
  split
  · exact keeps_pure _
  · split
    · exact Keeps.bind (keeps_throw _) hcount
    · exact Keeps.bind ((keeps_quiet rfl hR).bind fun _ => keeps_lift _) hcount

theorem obeys_sendOrCancel {R : Journal → Prop} {subject : String} {send : OutboundProgram Unit}
    (hR : ∀ r, R r → r.released = false) (h : send.Obeys (journal id) r fun s _ => R s) :
    (sendOrCancel subject send).Obeys (journal id) r fun s _ => R s := by
  rw [sendOrCancel, obeys_tryCatch]
  refine h.mono ?_
  rintro s (e | u) hs
  · exact obeys_quiet rfl (hR s hs) fun _ => hs
  · exact hs

theorem obeys_getTransferRequest {α : Type} {job : OutboundJob}
    {f : TransferRequest → OutboundProgram α} {Q : Journal → Except JsError α → Prop}
    (he : ∀ e, Q (.locked job token) (.error e))
    (hf : ∀ tr, (f tr).Obeys (journal id) (.opened job token tr) Q) :
    (getTransferRequest id >>= f).Obeys (journal id) (.locked job token) Q := by
  refine ⟨⟨(Journal.open_locked job).inSection, rfl, rfl⟩, ?_⟩
  rintro (e | _ | value)
  · exact he e
  · exact he _
  · exact hf value

/-- The lock is taken before the body and released after it, and nothing follows. -/
theorem obeys_executeUnderLock {α : Type} {job : OutboundJob} {body : OutboundProgram α}
    {Q : Journal → Except JsError α → Prop}
    (hbody : ∀ token, body.Obeys (journal id) (.locked job token) fun s result =>
      s.Holds token ∧ Q { s with released := true } result)
    (he : ∀ e, Q (.initial job) (.error e)) :
    (executeUnderLock id body).Obeys (journal id) (.initial job) Q := by
  refine ⟨rfl, fun token => ⟨⟨rfl, rfl⟩, ?_⟩⟩
  rintro (e | _ | _)
  · exact he e
  · exact he _
  · refine obeys_tryFinally.mpr ((hbody token).mono ?_)
    rintro s result ⟨hs, hQ⟩
    exact ⟨⟨hs.inSection, hs.1, rfl⟩, fun _ => hQ⟩

/-- The request audit, then the `try` block with its catch clause. -/
theorem obeys_auditAndTry {α : Type} {message : AuditMessage} {body : OutboundProgram α}
    {phase : InvocationPhase} {content : Js.Date → FspiopException → AuditContent}
    {Q : Journal → Except JsError α → Prop} (hr : r.Open token)
    (hbody : body.Obeys (journal id) r (Journal.Ends token fun s a => Q s (.ok a)))
    (hQ : ∀ s e, s.Pending token → Q s (.error e)) :
    (AuditTransactionPublisher.publish message >>= fun _ =>
      tryCatch body (auditAndThrow id phase content)).Obeys (journal id) r Q := by
  refine Obeys.seq (R := fun s => s = r) ?_ ?_ ?_
  · refine keeps_publish ?_ r rfl
    rintro _ rfl
    exact ⟨hr.inSection, hr.completes message⟩
  · rintro _ _ rfl
    refine obeys_tryCatch.mpr (hbody.mono ?_)
    rintro s (e | a) hs
    · refine (obeys_auditAndThrow hs).mono ?_
      rintro s' _ ⟨hs', e', rfl⟩
      exact hQ s' e' hs'
    · exact hs
  · rintro e _ rfl
    exact hQ _ e hr.1

namespace PutAcceptQuoteHandler

theorem toTransfersPostRequest_carries {body : TransfersPostRequest}
    (h : toTransfersPostRequest id tr = .ok body) :
    ∃ quote, tr.quotes = some quote ∧ Journal.Carries body quote := by
  simp only [toTransfersPostRequest] at h
  split at h
  · cases h
  · rename_i quote hq
    cases hpayer : getFspId "transfer" tr.payer "payer" with
    | error e => simp [hpayer, bind, Except.bind] at h
    | ok payerFsp =>
      cases hpayee : getFspId "transfer" tr.payee "payee" with
      | error e => simp [hpayer, hpayee, bind, Except.bind] at h
      | ok payeeFsp =>
        simp only [hpayer, hpayee, bind, Except.bind, pure, Except.pure, Except.ok.injEq] at h
        subst h
        exact ⟨quote, hq, rfl, rfl, rfl, rfl⟩

theorem obeys_requestTransfer {acceptQuote : Bool} {body : TransfersPostRequest}
    (hr : r.Open token) (hp : r.MayRequestTransfer body) :
    (requestTransfer settings id acceptQuote tr source destination body).Obeys (journal id) r
      fun s _ => s.Open token := by
  have hpost : ∀ headers, (FspiopAxios.postTransfers settings headers body).Obeys (journal id) r
      fun s _ => s.Open token := fun headers => ⟨⟨hr.inSection, hp⟩, fun _ => hr⟩
  simp only [requestTransfer]
  split
  · exact hr
  · refine obeys_quiet rfl hr.unreleased fun date => obeys_quiet rfl hr.unreleased fun registered =>
      .afterLift (fun _ => hr) fun _ _ => ?_
    refine Obeys.seq (R := Journal.Open token) (obeys_sendOrCancel (fun _ h => h.unreleased) (hpost _))
      (fun _ s hs => ?_) fun _ _ hs => hs
    refine Keeps.bind (keeps_quiet rfl fun _ h => h.unreleased) (fun _ => ?_) s hs
    refine (keeps_lift _).bind fun callback => (keeps_quiet rfl fun _ h => h.unreleased).bind fun _ => ?_
    refine (keeps_publish fun _ h => ⟨h.inSection, h.completes _⟩).bind fun _ => ?_
    exact (keeps_delete fun _ h => h.inSection).bind fun _ => keeps_pure _

/-- The stored copy differs from the loaded one in the payer's identifier only. -/
theorem obeys_storeHomeTransactionId {α : Type} {job : OutboundJob}
    {homeTransactionId : Option String}
    {f : TransferRequest → OutboundProgram α} {Q : Journal → Except JsError α → Prop}
    (he : ∀ e, Q (.opened job token tr) (.error e))
    (hf : ∀ tr', tr'.quotes = tr.quotes → (f tr').Obeys (journal id) (.opened job token tr) Q) :
    (storeHomeTransactionId settings id homeTransactionId tr >>= f).Obeys (journal id)
      (.opened job token tr) Q := by
  cases homeTransactionId with
  | none => exact hf tr rfl
  | some value =>
    refine ⟨⟨(Journal.open_opened job tr).inSection, rfl, .inl ⟨tr, rfl, rfl, rfl, rfl, rfl⟩⟩, ?_⟩
    rintro (e | u)
    · exact he e
    · exact hf _ rfl

theorem obeys_executeLocked (input : PutAcceptQuoteCommand.Input) :
    (executeLocked settings input).Obeys (journal input.transferId)
      (.locked (.acceptQuote input) token) fun s _ => s.Pending token := by
  refine obeys_getTransferRequest (fun _ => (Journal.open_locked _).1) fun tr => ?_
  have hr : (Journal.opened (.acceptQuote input) token tr).Open token := Journal.open_opened _ tr
  dsimp only
  split
  · exact hr.1
  · rename_i htransfer
    refine .afterLift (fun _ => hr.1) fun source _ => .afterLift (fun _ => hr.1) fun _ _ => ?_
    refine obeys_storeHomeTransactionId (fun _ => hr.1) fun tr' hquotes => ?_
    refine .afterLift (fun _ => hr.1) fun destination _ => .afterLift (fun _ => hr.1) fun body hb => ?_
    obtain ⟨quote, hquote, hcarries⟩ := toTransfersPostRequest_carries hb
    have hp : (Journal.opened (.acceptQuote input) token tr).MayRequestTransfer body :=
      ⟨rfl, ⟨input, rfl⟩, tr, quote, rfl, by simpa using htransfer, hquotes ▸ hquote, hcarries⟩
    refine obeys_quiet rfl hr.unreleased fun createdAt => .afterLift (fun _ => hr.1) fun _ _ => ?_
    refine obeys_auditAndTry hr ?_ fun _ _ hs => hs
    refine (obeys_requestTransfer hr hp).mono ?_
    rintro s (e | output) hs
    · exact hs.1
    · exact hs.1

end PutAcceptQuoteHandler

namespace PutAcceptPartyHandler

/-- If completed, the quote returned is the quote stored. -/
def Returns (token : String) (s : Journal) (output : PutAcceptPartyCommand.Output) : Prop :=
  s.Holds token ∧ s.stored = some output.callback

/-- From the stored quote on: audit it, return it. -/
theorem obeys_publishQuote {callback : QuotesIDPutResponse} {response : SendMoneyResponse}
    {message : AuditMessage} (hr : r.Pending token) (hs : r.stored = some callback) :
    (AuditTransactionPublisher.publish message >>= fun _ =>
      pure (⟨response, callback⟩ : PutAcceptPartyCommand.Output)).Obeys (journal id) r
      (Journal.Ends token (Returns token)) := by
  refine .afterPerform ⟨hr.inSection, fun _ => hr.2⟩ ?_
  rintro (e | u)
  · exact hr
  · simp only [journal_next, Journal.next, Journal.afterPublish]
    split
    · exact ⟨hr.1, hs⟩
    · exact ⟨hr.1, hs⟩

/-- From the answered callback on: store the quote, audit it, return it. -/
theorem obeys_storeQuote {callback : QuotesIDPutResponse} {response : SendMoneyResponse}
    {message : Js.Date → AuditMessage} (hr : r.Open token) (hq : r.quotePosted = true) :
    (RedisClient.set settings id { tr with quotes := some callback, transfer := none } >>= fun _ =>
      perform .now >>= fun occurredAt =>
      AuditTransactionPublisher.publish (message occurredAt) >>= fun _ =>
      pure (⟨response, callback⟩ : PutAcceptPartyCommand.Output)).Obeys (journal id) r
      (Journal.Ends token (Returns token)) := by
  refine .afterPerform ⟨hr.inSection, rfl, .inr ⟨hq, hr.2, rfl, rfl⟩⟩ ?_
  rintro (e | u)
  · exact hr.1
  · simp only [journal_next, Journal.next, Journal.afterSet, hq]
    refine obeys_quiet rfl hr.unreleased fun date => ?_
    exact obeys_publishQuote (r := { r with quotePosted := true, stored := some callback }) hr.1 rfl

theorem obeys_requestQuote {acceptParty : Bool} {request : QuotesPostRequest}
    (hr : r.Open token) (hp : r.MayRequestQuote) :
    (requestQuote settings id acceptParty tr source destination request).Obeys (journal id) r
      (Journal.Ends token (Returns token)) := by
  have hsuspicious : ∀ pattern, (SuspiciousTransactionMonitor.assertNotSuspicious settings
      pattern).Obeys (journal id) r fun s _ => s = r := fun pattern =>
    keeps_assertNotSuspicious (R := (· = r)) (by rintro _ rfl; exact hr.unreleased) pattern r rfl
  have hpost : ∀ headers, (FspiopAxios.postQuotes settings headers request).Obeys (journal id) r
      fun s _ => s.Open token ∧ s.quotePosted = true :=
    fun headers => ⟨⟨hr.inSection, hp⟩, fun _ => ⟨hr, rfl⟩⟩
  simp only [requestQuote]
  split
  · exact hr.1
  · refine Obeys.seq (R := fun s => s = r) (hsuspicious _) ?_ ?_
    · rintro _ _ rfl
      refine obeys_quiet rfl hr.unreleased fun date => obeys_quiet rfl hr.unreleased
        fun registered => .afterLift (fun _ => hr.1) fun _ _ => ?_
      refine Obeys.seq (R := fun s => s.Open token ∧ s.quotePosted = true)
        (obeys_sendOrCancel (fun _ h => h.1.unreleased) (hpost _)) ?_ fun _ _ hs => hs.1.1
      rintro _ s ⟨hs, hq⟩
      refine obeys_quiet rfl hs.unreleased fun answer => .afterLift (fun _ => hs.1)
        fun callback _ => .afterLift (fun _ => hs.1) fun response _ => ?_
      exact obeys_storeQuote hs hq
    · rintro e _ rfl
      exact hr.1

/-- In the section: if completed, the outcome is the stored quote. -/
def Outcome (token : String) (s : Journal) (result : Except JsError PutAcceptPartyCommand.Output) :
    Prop :=
  s.Holds token ∧ (s.completed = true → ∃ output, result = .ok output ∧
    s.stored = some output.callback)

theorem outcome_of_pending {s : Journal} {result : Except JsError PutAcceptPartyCommand.Output}
    (h : s.Pending token) : Outcome token s result :=
  ⟨h.1, fun hc => by simp [h.2] at hc⟩

theorem obeys_executeLocked (input : PutAcceptPartyCommand.Input) :
    (executeLocked settings input).Obeys (journal input.transferId)
      (.locked (.acceptParty input) token) (Outcome token) := by
  refine obeys_getTransferRequest (fun _ => outcome_of_pending (Journal.open_locked _).1)
    fun tr => ?_
  have hr : (Journal.opened (.acceptParty input) token tr).Open token := Journal.open_opened _ tr
  have hfail : ∀ e, Outcome token (.opened (.acceptParty input) token tr) (.error e) :=
    fun _ => outcome_of_pending hr.1
  dsimp only
  split
  · exact hfail _
  · rename_i hquotes
    refine .afterLift hfail fun source _ => .afterLift hfail fun _ _ => ?_
    refine .afterLift hfail fun extensionList _ => ?_
    -- named, so that unification does not evaluate the check
    generalize AmountDecimalValidator.validate _ _ = checked
    refine Obeys.afterLift hfail fun _ _ => ?_
    refine .afterLift hfail fun destination _ => ?_
    refine obeys_quiet rfl hr.unreleased fun createdAt => ?_
    have hp : (Journal.opened (.acceptParty input) token tr).MayRequestQuote :=
      ⟨rfl, ⟨input, rfl⟩, tr, rfl, by simpa using hquotes⟩
    refine obeys_auditAndTry hr ?_ fun _ _ hs => outcome_of_pending hs
    refine (obeys_requestQuote hr hp).mono ?_
    rintro s (e | output) hs
    · exact hs
    · exact ⟨hs.1, fun _ => ⟨output, rfl, hs.2⟩⟩

end PutAcceptPartyHandler

/-- Every execution for the transfer follows the discipline. -/
theorem obeys_execute (job : OutboundJob) :
    (job.execute settings).Obeys (journal job.transferId) (.initial job) Journal.Settled := by
  have hlost : ∀ r : Journal, r.completed = false → ∀ e : JsError, r.Settled (.error e) :=
    fun r hr e hc => by simp [hr] at hc
  cases job with
  | acceptParty input =>
    refine obeys_bind.mpr (obeys_executeUnderLock (fun token => ?_) fun e => hlost _ rfl e)
    refine (PutAcceptPartyHandler.obeys_executeLocked input).mono ?_
    rintro s (e | output) ⟨hs, hret⟩
    · refine ⟨hs, fun hc => ?_⟩
      obtain ⟨_, h, _⟩ := hret hc
      cases h
    · refine ⟨hs, fun hc => ?_⟩
      obtain ⟨_, h, hstored⟩ := hret hc
      cases h
      exact ⟨output, rfl, hstored⟩
  | acceptQuote input =>
    refine obeys_bind.mpr (obeys_executeUnderLock (fun token => ?_) fun e => hlost _ rfl e)
    refine (PutAcceptQuoteHandler.obeys_executeLocked input).mono ?_
    rintro s (e | output) hs
    · exact ⟨hs.1, hlost { s with released := true } hs.2 e⟩
    · exact ⟨hs.1, fun hc => by simp [hs.2] at hc⟩

theorem obeys_entry (settings : OutboundSettings) (transferId : String)
    (job : JobOf transferId) : ((outbound settings transferId).entry job).Obeys
      (journal transferId) (.initial job.val) Journal.Settled := by
  obtain ⟨job, rfl⟩ := job
  exact obeys_execute job

end Outbound
