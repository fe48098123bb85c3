import Pivotal.Outbound.System

/-! What `acceptQuote` reports once the success callback of its transfer was delivered: every
later failure, of the audit stream or of Redis, is reported to the payer as a failed transfer. -/
namespace Outbound
open Fspiop Audit Async Async.Program

/-- The subscriber delivered `PUT /transfers/{id}` to the waiter of this execution. -/
def deliversSuccess : Event OutboundOp OutboundAnswer → Bool
  | ⟨.transfersCallback _, .ok _⟩ => true
  | ⟨.cancel _, .success⟩ => true
  | _ => false

/-- A call failed, other than the release of the lock. -/
def callFails : Event OutboundOp OutboundAnswer → Bool
  | ⟨.redisGet _, .error _⟩ => true
  | ⟨.redisSet _ _ _, .error _⟩ => true
  | ⟨.redisDel _, .error _⟩ => true
  | ⟨.redisSetNx _ _ _, .error _⟩ => true
  | ⟨.redisIncrementScript _ _, .error _⟩ => true
  | ⟨.publish _, .error _⟩ => true
  | ⟨.waitFor _ _, .error _⟩ => true
  | ⟨.quotesCallback _, .error _⟩ => true
  | ⟨.transfersCallback _, .error _⟩ => true
  | ⟨.postQuotes _ _ _, .error _⟩ => true
  | ⟨.postTransfers _ _ _, .error _⟩ => true
  | _ => false

/-- The error audit of the transfer phase was sent. -/
def auditsTransferError : Event OutboundOp OutboundAnswer → Bool
  | ⟨.publish message, _⟩ => message.action = .error ∧ message.phase = .transfers
  | _ => false

/-- Has the callback been delivered, has a call failed, has an error been audited? -/
def callbackMonitor : Monitor OutboundOp OutboundAnswer (Bool × Bool × Bool) :=
  (Monitor.seen deliversSuccess).prod
    ((Monitor.seen callFails).prod (Monitor.seen auditsTransferError))

/-- After the delivery, failing calls and nothing else make the command reject. -/
def Reports {α : Type} (s : Bool × Bool × Bool) (result : Except JsError α) : Prop :=
  s.1 = true → (result.isOk = true ∧ s.2 = (false, false)) ∨ (result.isOk = false ∧ s.2.1 = true)

/-- A delivery comes with a failure. -/
def Lost (s : Bool × Bool × Bool) : Prop := s.1 = true → s.2.1 = true

variable {α β : Type} {settings : OutboundSettings} {id source destination : String}

theorem Lost.reports {s : Bool × Bool × Bool} (h : Lost s) (e : JsError) :
    Reports s (.error e : Except JsError α) := fun hd => .inr ⟨rfl, h hd⟩

theorem reports_undelivered {s : Bool × Bool × Bool} (h : s.1 = false)
    (result : Except JsError α) : Reports s result := by
  intro hd
  simp [h] at hd

theorem callbackMonitor_allows (s : Bool × Bool × Bool) (op : OutboundOp) :
    callbackMonitor.allows s op := ⟨trivial, trivial, trivial⟩

theorem callbackMonitor_next (s : Bool × Bool × Bool) (op : OutboundOp) (a : OutboundAnswer op) :
    callbackMonitor.next s op a = (s.1 || deliversSuccess ⟨op, a⟩, s.2.1 || callFails ⟨op, a⟩,
      s.2.2 || auditsTransferError ⟨op, a⟩) := rfl

theorem keeps_lost {op : OutboundOp} (h : ∀ a, deliversSuccess ⟨op, a⟩ = false) :
    (perform op : OutboundProgram _).Keeps callbackMonitor Lost := by
  refine keeps_perform fun s hs => ⟨callbackMonitor_allows s op, fun a hd => ?_⟩
  have hdelivered : s.1 = true := by simpa [callbackMonitor_next, h a] using hd
  simp [callbackMonitor_next, hs hdelivered]

/-- The catch clause rejects: by then a call has failed, or nothing was delivered. -/
theorem reports_auditAndThrow {phase : InvocationPhase}
    {content : Js.Date → FspiopException → AuditContent} {error : JsError}
    {s : Bool × Bool × Bool} (hs : Lost s) :
    (auditAndThrow id phase content error : OutboundProgram α).Obeys callbackMonitor s Reports := by
  have hlost : (auditAndThrow id phase content error : OutboundProgram α).Obeys callbackMonitor s
      fun s' result => Lost s' ∧ ∃ e, result = .error e := by
    have haudit : ∀ message,
        (AuditTransactionPublisher.publish message).Keeps callbackMonitor Lost :=
      fun message => (keeps_lost fun _ => rfl).bind fun _ => keeps_lift _
    have hdelete : (RedisClient.delete id).Keeps callbackMonitor Lost :=
      (keeps_lost fun _ => rfl).bind fun _ => keeps_lift _
    refine Obeys.seq (R := Lost) (keeps_lost (fun _ => rfl) s hs) (fun date s' hs' => ?_)
      fun e s' hs' => ⟨hs', e, rfl⟩
    refine Obeys.seq (R := Lost) ?_ (fun _ s'' hs'' => ⟨hs'', _, rfl⟩)
      fun e s'' hs'' => ⟨hs'', e, rfl⟩
    exact (haudit _).tryFinally (hdelete.tryFinally (keeps_throw _)) s' hs'
  refine hlost.mono ?_
  rintro s' _ ⟨hs', e, rfl⟩
  exact hs'.reports e

/-- How the `try` block ends: with a failure recorded when it throws, clean when it returns. -/
def Ends (s : Bool × Bool × Bool) : Except JsError α → Prop
  | .error _ => Lost s
  | .ok _ => s.2 = (false, false)

/-- The request audit, then the `try` block with its catch clause. -/
theorem reports_auditAndTry {message : AuditMessage} {body : OutboundProgram α}
    {phase : InvocationPhase} {content : Js.Date → FspiopException → AuditContent}
    (hmessage : message.action = .request)
    (hbody : body.Obeys callbackMonitor (false, false, false) Ends) :
    (AuditTransactionPublisher.publish message >>= fun _ =>
      tryCatch body (auditAndThrow id phase content)).Obeys callbackMonitor (false, false, false)
        Reports := by
  refine ⟨callbackMonitor_allows _ _, ?_⟩
  rintro (e | audited)
  · exact reports_undelivered rfl _
  · have hnext : callbackMonitor.next (false, false, false) (.publish message) (.ok audited) =
        (false, false, false) := by
      simp [callbackMonitor_next, deliversSuccess, callFails, auditsTransferError, hmessage]
    rw [hnext]
    refine obeys_tryCatch.mpr (hbody.mono ?_)
    rintro s (e | a) hs
    · exact reports_auditAndThrow hs
    · exact fun _ => .inl ⟨rfl, hs⟩

namespace PutAcceptQuoteHandler

theorem ends_requestTransfer {acceptQuote : Bool} {tr : TransferRequest}
    {body : TransfersPostRequest} :
    (requestTransfer settings id acceptQuote tr source destination body).Obeys callbackMonitor
      (false, false, false) Ends := by
  have hundelivered : ∀ {s : Bool × Bool × Bool}, s.1 = false → Lost s := by
    intro s h hd
    simp [h] at hd
  simp only [requestTransfer]
  split
  · exact hundelivered rfl
  · refine ⟨callbackMonitor_allows _ _, fun date => ⟨callbackMonitor_allows _ _, ?_⟩⟩
    rintro (e | registered)
    · exact hundelivered rfl
    · refine ⟨callbackMonitor_allows _ _, ?_⟩
      rintro (e | posted)
      · -- The POST failed: the waiter is cancelled, whether or not it holds the callback.
        refine ⟨callbackMonitor_allows _ _, ?_⟩
        rintro (_ | _ | _)
        · exact hundelivered rfl
        · exact fun _ => rfl
        · exact hundelivered rfl
      · refine ⟨callbackMonitor_allows _ _, ?_⟩
        rintro (e | callback)
        · exact hundelivered rfl
        · refine ⟨callbackMonitor_allows _ _, fun date => ⟨callbackMonitor_allows _ _, ?_⟩⟩
          rintro (e | audited)
          · exact fun _ => rfl
          · refine ⟨callbackMonitor_allows _ _, ?_⟩
            rintro (e | deleted)
            · exact fun _ => rfl
            · rfl

theorem reports_getTransferRequest {f : TransferRequest → OutboundProgram α}
    (hf : ∀ tr, (f tr).Obeys callbackMonitor (false, false, false) Reports) :
    (getTransferRequest id >>= f).Obeys callbackMonitor (false, false, false) Reports := by
  refine ⟨callbackMonitor_allows _ _, ?_⟩
  rintro (e | _ | tr)
  · exact reports_undelivered rfl _
  · exact reports_undelivered rfl _
  · exact hf tr

theorem reports_storeHomeTransactionId {homeTransactionId : Option String} {tr : TransferRequest}
    {f : TransferRequest → OutboundProgram α}
    (hf : ∀ tr', (f tr').Obeys callbackMonitor (false, false, false) Reports) :
    (storeHomeTransactionId settings id homeTransactionId tr >>= f).Obeys callbackMonitor
      (false, false, false) Reports := by
  cases homeTransactionId with
  | none => exact hf tr
  | some value =>
    refine ⟨callbackMonitor_allows _ _, ?_⟩
    rintro (e | stored)
    · exact reports_undelivered rfl _
    · exact hf _

theorem reports_executeLocked (input : PutAcceptQuoteCommand.Input) :
    (executeLocked settings input).Obeys callbackMonitor (false, false, false) Reports := by
  have hearly : ∀ e, Reports (false, false, false)
      (.error e : Except JsError PutAcceptQuoteCommand.Output) := fun e => reports_undelivered rfl _
  refine reports_getTransferRequest fun tr => ?_
  dsimp only
  split
  · exact hearly _
  · refine .afterLift hearly fun source _ => .afterLift hearly fun _ _ => ?_
    refine reports_storeHomeTransactionId fun tr' => ?_
    refine .afterLift hearly fun destination _ => .afterLift hearly fun body _ => ?_
    refine .afterPerform (callbackMonitor_allows _ _) fun createdAt => ?_
    refine Obeys.afterLift hearly fun _ _ => ?_
    exact reports_auditAndTry rfl ends_requestTransfer

theorem reports_execute (input : PutAcceptQuoteCommand.Input) :
    (execute settings input).Obeys callbackMonitor (false, false, false) Reports := by
  refine ⟨callbackMonitor_allows _ _, fun token => ⟨callbackMonitor_allows _ _, ?_⟩⟩
  rintro (e | _ | _)
  · exact reports_undelivered rfl _
  · exact reports_undelivered rfl _
  · refine obeys_tryFinally.mpr ((reports_executeLocked input).mono fun s result hs => ?_)
    -- The answer of the release script changes neither the record nor the outcome.
    refine ⟨callbackMonitor_allows _ _, fun a => ?_⟩
    have hnext : callbackMonitor.next s
        (.redisReleaseScript (RedisClient.lockKey input.transferId) token) a = s := by
      simp [callbackMonitor_next, deliversSuccess, callFails, auditsTransferError]
    rw [hnext]
    exact hs

end PutAcceptQuoteHandler

/-- Once the success callback is delivered, the command returns and audits no error exactly
when no call failed, the release of the lock aside. The values of the extensions in what is cached
and received are texts, as `Extension` has them. -/
theorem reports_success_iff_nothing_fails (input : PutAcceptQuoteCommand.Input)
    {t : List (Event OutboundOp OutboundAnswer)}
    {result : Except JsError PutAcceptQuoteCommand.Output}
    (h : (PutAcceptQuoteHandler.execute settings input).Settles t result)
    (hdelivered : t.any deliversSuccess = true) :
    (result.isOk = true ∧ t.any auditsTransferError = false) ↔ t.any callFails = false := by
  have hreports := (PutAcceptQuoteHandler.reports_execute input).settles h
  simp only [callbackMonitor, Monitor.prod_after, Monitor.seen_after, Bool.false_or] at hreports
  rcases hreports hdelivered with ⟨hok, hs⟩ | ⟨hok, hs⟩
  · simp_all
  · simp_all

/-- One `acceptQuote` of a cached transfer with a quote, with the given calls failing. -/
def sampleAccept (fails : OutboundOp → Bool) :
    List (Event OutboundOp OutboundAnswer) × Except JsError PutAcceptQuoteCommand.Output :=
  (PutAcceptQuoteHandler.execute sampleSettings ⟨"x", true, none, none⟩).run (fun _ op =>
    (respond fails sampleQuote sampleCallback
      (.initial "x" (some (sampleTransfer (some sampleQuote)))) op).1) []

/-- Only the release of the lock fails. -/
theorem reports_success_iff_nothing_fails_sample :
    (sampleAccept (· matches .redisReleaseScript _ _)).2.isOk = true ∧
      (sampleAccept (· matches .redisReleaseScript _ _)).1.any auditsTransferError = false :=
  (reports_success_iff_nothing_fails ⟨"x", true, none, none⟩ (settles_run _ _)
    (by decide +kernel)).mpr (by decide +kernel)

/-- An audit of a response. -/
def auditsResponse : OutboundOp → Bool
  | .publish message => message.action = .response
  | _ => false

/-- The audit of the success callback is lost, and the payer is told that
its transfer failed. -/
theorem not_reports_success :
    ¬ ∀ t result, (PutAcceptQuoteHandler.execute sampleSettings ⟨"x", true, none, none⟩).Settles
        t result → t.any deliversSuccess = true →
      result.isOk = true ∧ t.any auditsTransferError = false := by
  intro h
  have hrun := h (sampleAccept auditsResponse).1 _ (settles_run _ _) (by decide +kernel)
  refine absurd hrun.1 ?_
  decide +kernel

end Outbound
