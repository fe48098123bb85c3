import Pivotal.Outbound.System

/-! What a rejected `acceptQuote` leaves of the cached transfer when no transfer was requested. -/
namespace Outbound
open Fspiop Async Async.Program

/-- What one execution has read and written of its transfer. A failed call to Redis may have been
applied or not, so there may be several things that are cached. -/
structure QuoteVisit where
  read : Option TransferRequest
  cached : List (Option TransferRequest)
  sent : Bool
  unregistered : Bool
  deriving DecidableEq

namespace QuoteVisit

def next (id : String) (s : QuoteVisit) : (op : OutboundOp) → OutboundAnswer op → QuoteVisit
  | .redisGet key, .ok (some value) =>
    if key = id then { s with read := some value, cached := [some value] } else s
  | .redisSet key value _, .ok _ => if key = id then { s with cached := [some value] } else s
  | .redisSet key value _, .error _ =>
    if key = id then { s with cached := some value :: s.cached } else s
  | .redisDel key, .ok _ => if key = id then { s with cached := [none] } else s
  | .redisDel key, .error _ => if key = id then { s with cached := none :: s.cached } else s
  | .waitFor _ _, .error _ => { s with unregistered := true }
  | .postTransfers _ _ _, _ => { s with sent := true }
  | _, _ => s

end QuoteVisit

def quoteMonitor (id : String) : Monitor OutboundOp OutboundAnswer QuoteVisit where
  next := QuoteVisit.next id
  allows _ _ := True

namespace PutAcceptQuoteHandler

/-- The checks of the payer, which come before the first write. -/
def PassesPayerChecks (input : PutAcceptQuoteCommand.Input) (tr : TransferRequest) : Prop :=
  tr.transfer = none ∧ ∃ source, getFspId "transfer" tr.payer "payer" = .ok source ∧
    assertSourceCanActForPayer input.requestSource source = .ok ()

/-- The transfer with the payer's own identifier, where the payer's checks let it be stored. -/
def Stored (input : PutAcceptQuoteCommand.Input) (tr : TransferRequest)
    (value : Option TransferRequest) : Prop :=
  PassesPayerChecks input tr ∧ ∃ homeTransactionId, input.homeTransactionId = some homeTransactionId ∧
    value = some { tr with homeTransactionId := some homeTransactionId }

/-- What may be cached after a rejection: the transfer as it was read, with the identifier that came
with the call, or nothing once the payer declined or nobody could wait for the answer. -/
def MayRemain (input : PutAcceptQuoteCommand.Input) (tr : TransferRequest) (unregistered : Bool)
    (value : Option TransferRequest) : Prop :=
  value = some tr ∨ Stored input tr value ∨
    value = none ∧ (input.acceptQuote = false ∨ unregistered = true)

/-- What a visit leaves, of what was cached before. -/
def Leaves (input : PutAcceptQuoteCommand.Input) (before : List (Option TransferRequest))
    (s : QuoteVisit) : Prop :=
  match s.read with
  | none => s.cached = before
  | some tr => ∀ value ∈ s.cached, MayRemain input tr s.unregistered value

/-- A rejection before the transfer was requested. -/
def RejectsUnsent {α : Type} (input : PutAcceptQuoteCommand.Input)
    (before : List (Option TransferRequest)) (s : QuoteVisit) (result : Except JsError α) : Prop :=
  result.isOk = false → s.sent = false → Leaves input before s

/-- What follows the payer's checks and the storing of its identifier. -/
def executeStored (settings : OutboundSettings) (input : PutAcceptQuoteCommand.Input)
    (source : String) (transferRequest : TransferRequest) :
    OutboundProgram PutAcceptQuoteCommand.Output := do
  let transferId := input.transferId
  let destination ← lift (getFspId "transfer" transferRequest.payee "payee")
  let transfersPostRequest ← lift (toTransfersPostRequest transferId transferRequest)
  let createdAt ← perform .now
  lift (AmountDecimalValidator.validate settings.amountDecimalPlaces
    (transfersPostRequest.amount.map (·.amount)))
  AuditTransactionPublisher.publish (.ofRequest .transfers .outbound
    (auditContent transferId source destination transfersPostRequest createdAt))
  tryCatch
    (requestTransfer settings transferId input.acceptQuote transferRequest source destination
      transfersPostRequest)
    (auditAndThrow transferId .transfers fun occurredAt fspiopException =>
      { auditContent transferId source destination transfersPostRequest occurredAt with
        error := some fspiopException.toErrorObject })

/-- What follows the reading of the transfer. -/
def executeRead (settings : OutboundSettings) (input : PutAcceptQuoteCommand.Input)
    (transferRequest : TransferRequest) : OutboundProgram PutAcceptQuoteCommand.Output := do
  if transferRequest.transfer.isSome then
    throw (reject FspiopErrors.genericClientError
      ("Transfer " ++ input.transferId ++ " already completed; duplicate acceptQuote ignored."))
  let source ← lift (getFspId "transfer" transferRequest.payer "payer")
  lift (assertSourceCanActForPayer input.requestSource source)
  let transferRequest ←
    storeHomeTransactionId settings input.transferId input.homeTransactionId transferRequest
  executeStored settings input source transferRequest

theorem executeLocked_eq (settings : OutboundSettings) (input : PutAcceptQuoteCommand.Input) :
    executeLocked settings input =
      getTransferRequest input.transferId >>= executeRead settings input := rfl

variable {settings : OutboundSettings} {input : PutAcceptQuoteCommand.Input}
  {before : List (Option TransferRequest)} {tr : TransferRequest} {s : QuoteVisit}

/-- An execution that sends its own identifier does not see the one that is cached. -/
theorem executeRead_of_stored {homeTransactionId : String}
    (h : input.homeTransactionId = some homeTransactionId) (stored : Option String) :
    executeRead settings input { tr with homeTransactionId := stored } =
      executeRead settings input tr := by
  simp only [executeRead, storeHomeTransactionId, h]

/-- In the `try` block: the transfer was requested, or the catch clause may delete the transfer. -/
def InTry (input : PutAcceptQuoteCommand.Input) (before : List (Option TransferRequest))
    (tr : TransferRequest) (s : QuoteVisit) : Prop :=
  s.sent = true ∨ s.read = some tr ∧ Leaves input before s ∧
    (input.acceptQuote = false ∨ s.unregistered = true)

/-- Before the `try` block: at most the payer's identifier has been written. -/
structure BeforeTry (input : PutAcceptQuoteCommand.Input) (tr : TransferRequest) (s : QuoteVisit) :
    Prop where
  read : s.read = some tr
  cached : ∀ value ∈ s.cached, value = some tr ∨ Stored input tr value

theorem BeforeTry.leaves (h : BeforeTry input tr s) : Leaves input before s := by
  rw [Leaves, h.read]
  exact fun value hvalue => (h.cached value hvalue).imp_right .inl

theorem BeforeTry.rejects {α : Type} (h : BeforeTry input tr s) (result : Except JsError α) :
    RejectsUnsent input before s result := fun _ _ => h.leaves

theorem InTry.rejects {α : Type} (h : InTry input before tr s) (result : Except JsError α) :
    RejectsUnsent input before s result := by
  intro _ hunsent
  rcases h with hsent | ⟨-, hleaves, -⟩
  · rw [hunsent] at hsent
    cases hsent
  · exact hleaves

theorem keeps_sent {α : Type} (id : String) (p : OutboundProgram α) :
    p.Keeps (quoteMonitor id) fun s => s.sent = true := by
  refine (within_of_forall (P := fun _ => True) (fun _ => trivial) p).keeps ?_
  intro s op hs _
  refine ⟨trivial, fun a => ?_⟩
  change (QuoteVisit.next id s op a).sent = true
  unfold QuoteVisit.next
  split <;> first | exact hs | rfl | (split <;> exact hs)

theorem InTry.delete (h : InTry input before tr s) (a : Except JsError Unit) :
    InTry input before tr (QuoteVisit.next input.transferId s (.redisDel input.transferId) a) := by
  rcases h with hsent | ⟨hread, hleaves, hmay⟩
  · left
    cases a <;> simpa [QuoteVisit.next] using hsent
  · right
    rw [Leaves, hread] at hleaves
    cases a with
    | ok u =>
      refine ⟨by simpa [QuoteVisit.next] using hread, ?_, by simpa [QuoteVisit.next] using hmay⟩
      simp only [QuoteVisit.next, if_pos, Leaves, hread, List.mem_singleton]
      rintro value rfl
      exact .inr (.inr ⟨rfl, hmay⟩)
    | error e =>
      refine ⟨by simpa [QuoteVisit.next] using hread, ?_, by simpa [QuoteVisit.next] using hmay⟩
      simp only [QuoteVisit.next, if_pos, Leaves, hread, List.mem_cons]
      rintro value (rfl | hvalue)
      · exact .inr (.inr ⟨rfl, hmay⟩)
      · exact hleaves value hvalue

theorem keeps_auditAndThrow {α : Type} {phase : Audit.InvocationPhase}
    {content : Js.Date → FspiopException → AuditContent} {error : JsError} :
    (auditAndThrow input.transferId phase content error : OutboundProgram α).Keeps
      (quoteMonitor input.transferId) (InTry input before tr) := by
  have hpublish : ∀ message, (AuditTransactionPublisher.publish message).Keeps
      (quoteMonitor input.transferId) (InTry input before tr) := fun message =>
    (keeps_perform fun _ hs => ⟨trivial, fun _ => hs⟩).bind fun _ => keeps_lift _
  have hdelete : (RedisClient.delete input.transferId).Keeps (quoteMonitor input.transferId)
      (InTry input before tr) :=
    (keeps_perform fun _ hs => ⟨trivial, fun a => hs.delete a⟩).bind fun _ => keeps_lift _
  refine (keeps_perform fun _ hs => ⟨trivial, fun _ => hs⟩).bind fun occurredAt => ?_
  exact ((hpublish _).tryFinally (hdelete.tryFinally (keeps_throw _))).bind fun _ => keeps_throw _

theorem inTry_requestTransfer (before : List (Option TransferRequest)) {tr' : TransferRequest}
    {source destination : String} {body : TransfersPostRequest} (h : BeforeTry input tr s) :
    (requestTransfer settings input.transferId input.acceptQuote tr' source destination body).Obeys
      (quoteMonitor input.transferId) s
      fun s' result => result.isOk = false → InTry input before tr s' := by
  simp only [requestTransfer]
  split
  · rename_i hdeclined
    exact fun _ => .inr ⟨h.read, h.leaves, .inl (by simpa using hdeclined)⟩
  · refine ⟨trivial, fun date => ⟨trivial, ?_⟩⟩
    rintro (e | registered)
    · -- Nobody waits: the POST is not made.
      refine fun _ => .inr ⟨h.read, ?_, .inr rfl⟩
      have hleaves : Leaves input before s := h.leaves
      rw [Leaves, h.read] at hleaves
      change Leaves input before { s with unregistered := true }
      rw [Leaves, h.read]
      intro value hvalue
      exact (hleaves value hvalue).imp_right
        (Or.imp_right fun hnone => ⟨hnone.1, .inr rfl⟩)
    · refine ⟨trivial, fun posted => ?_⟩
      refine (keeps_sent input.transferId _ _ rfl).mono ?_
      exact fun s' result hs' _ => .inl hs'

theorem rejects_executeStored {source : String} {tr' : TransferRequest}
    (h : BeforeTry input tr s) : (executeStored settings input source tr').Obeys
      (quoteMonitor input.transferId) s (RejectsUnsent input before) := by
  simp only [executeStored]
  refine .afterLift (fun _ => h.rejects _) fun destination _ => ?_
  refine .afterLift (fun _ => h.rejects _) fun body _ => ?_
  refine .afterPerform trivial fun createdAt => ?_
  refine Obeys.afterLift (fun _ => h.rejects _) fun _ _ => ⟨trivial, ?_⟩
  rintro (e | audited)
  · exact h.rejects _
  · refine obeys_tryCatch.mpr ((inTry_requestTransfer before h).mono ?_)
    rintro s' (e | output) hs'
    · rw [onError_error]
      exact Obeys.mono (keeps_auditAndThrow s' (hs' rfl)) fun _ result hfinal =>
        hfinal.rejects result
    · exact fun hfailed => absurd hfailed (by simp [Except.isOk, Except.toBool])

/-- Storing the payer's identifier, whether or not the call fails. -/
theorem BeforeTry.store {stored : TransferRequest} (hstored : Stored input tr (some stored))
    (px : Option ℤ) (a : Except JsError Unit) :
    BeforeTry input tr (QuoteVisit.next input.transferId ⟨some tr, [some tr], false, false⟩
      (.redisSet input.transferId stored px) a) := by
  cases a with
  | ok u =>
    constructor
    · simp [QuoteVisit.next]
    · simp only [QuoteVisit.next, if_pos, List.mem_singleton]
      rintro _ rfl
      exact .inr hstored
  | error e =>
    constructor
    · simp [QuoteVisit.next]
    · simp only [QuoteVisit.next, if_pos, List.mem_cons, List.not_mem_nil, or_false]
      rintro _ (rfl | rfl)
      · exact .inr hstored
      · exact .inl rfl

theorem rejects_executeRead :
    (executeRead settings input tr).Obeys (quoteMonitor input.transferId)
      ⟨some tr, [some tr], false, false⟩ (RejectsUnsent input before) := by
  have hread : BeforeTry input tr ⟨some tr, [some tr], false, false⟩ :=
    ⟨rfl, fun value hvalue => .inl (List.mem_singleton.mp hvalue)⟩
  simp only [executeRead]
  split
  · exact hread.rejects _
  · rename_i htransfer
    refine .afterLift (fun _ => hread.rejects _) fun source hsource => ?_
    refine .afterLift (fun _ => hread.rejects _) fun _ hacts => ?_
    have hchecks : PassesPayerChecks input tr := ⟨by simpa using htransfer, source, hsource, hacts⟩
    cases hhome : input.homeTransactionId with
    | none => exact rejects_executeStored hread
    | some homeTransactionId =>
      have hstored : Stored input tr (some { tr with homeTransactionId := some homeTransactionId }) :=
        ⟨hchecks, homeTransactionId, hhome, rfl⟩
      refine ⟨trivial, ?_⟩
      rintro (e | written)
      · exact BeforeTry.rejects (BeforeTry.store hstored none (.error e)) _
      · exact rejects_executeStored (BeforeTry.store hstored none (.ok written))

/-- What an execution leaves, of what was cached before. -/
def visitOf (input : PutAcceptQuoteCommand.Input) (before : List (Option TransferRequest))
    (t : List (Event OutboundOp OutboundAnswer)) : QuoteVisit :=
  (quoteMonitor input.transferId).after ⟨none, before, false, false⟩ t

theorem rejects_executeLocked (settings : OutboundSettings) (input : PutAcceptQuoteCommand.Input)
    (before : List (Option TransferRequest)) :
    (executeLocked settings input).Obeys (quoteMonitor input.transferId)
      ⟨none, before, false, false⟩ (RejectsUnsent input before) := by
  rw [executeLocked_eq]
  refine ⟨trivial, ?_⟩
  rintro (e | _ | tr)
  · exact fun _ _ => rfl
  · exact fun _ _ => rfl
  · have hnext : (quoteMonitor input.transferId).next ⟨none, before, false, false⟩
        (.redisGet input.transferId) (.ok (some tr)) = ⟨some tr, [some tr], false, false⟩ :=
      if_pos rfl
    rw [hnext]
    exact rejects_executeRead

/-- A rejection before the transfer was requested leaves the transfer as it was read, up to the
payer's identifier, which is stored once the payer may act; it is gone when the payer declined or
nobody could wait. A later call that sends an identifier of its own sees no difference. -/
theorem rejected_leaves {t : List (Event OutboundOp OutboundAnswer)} {e : JsError}
    (h : (executeLocked settings input).Settles t (.error e))
    (hunsent : (visitOf input before t).sent = false) :
    Leaves input before (visitOf input before t) ∧
      ∀ (retry : PutAcceptQuoteCommand.Input) (own : String), retry.homeTransactionId = some own →
        ∀ (tr : TransferRequest) (stored : Option String),
          executeRead settings retry { tr with homeTransactionId := stored } =
            executeRead settings retry tr := by
  constructor
  · exact (rejects_executeLocked settings input before).settles h rfl hunsent
  · intro retry own hown tr stored
    exact executeRead_of_stored hown stored

/-- A call with an identifier of the payer, for a cached transfer without a quote. -/
def sampleInput : PutAcceptQuoteCommand.Input := ⟨"x", true, none, some "home"⟩

def sampleRejection :
    List (Event OutboundOp OutboundAnswer) × Except JsError PutAcceptQuoteCommand.Output :=
  (executeLocked sampleSettings sampleInput).run (fun _ op =>
    (respond (fun _ => false) sampleQuote sampleCallback
      (.initial "x" (some (sampleTransfer none))) op).1) []

theorem sampleRejection_spec : sampleRejection.2.isOk = false ∧
    visitOf sampleInput [] sampleRejection.1 = ⟨some (sampleTransfer none),
      [some { sampleTransfer none with homeTransactionId := some "home" }], false, false⟩ := by
  decide

theorem exists_sampleRejection : ∃ e,
    (executeLocked sampleSettings sampleInput).Settles sampleRejection.1 (.error e) := by
  have hsettles : (executeLocked sampleSettings sampleInput).Settles sampleRejection.1
      sampleRejection.2 := settles_run _ _
  have hrejected := sampleRejection_spec.1
  cases hresult : sampleRejection.2 with
  | ok output =>
    rw [hresult] at hrejected
    cases hrejected
  | error e =>
    rw [hresult] at hsettles
    exact ⟨e, hsettles⟩

theorem rejected_leaves_sample :
    Leaves sampleInput [] (visitOf sampleInput [] sampleRejection.1) := by
  obtain ⟨e, hsettles⟩ := exists_sampleRejection
  have hunsent : (visitOf sampleInput [] sampleRejection.1).sent = false := by
    rw [sampleRejection_spec.2]
  exact (rejected_leaves hsettles hunsent).1

/-- The quote is missing, and the payer's identifier has been stored all the same. -/
theorem not_rejected_unchanged : ¬ ∀ (input : PutAcceptQuoteCommand.Input)
    (before : List (Option TransferRequest)) (t : List (Event OutboundOp OutboundAnswer))
    (e : JsError), (executeLocked sampleSettings input).Settles t (.error e) →
      (visitOf input before t).sent = false →
        ∀ tr, (visitOf input before t).read = some tr →
          ∀ value ∈ (visitOf input before t).cached, value = some tr := by
  intro hall
  obtain ⟨e, hsettles⟩ := exists_sampleRejection
  have hrun := hall sampleInput [] _ e hsettles
  rw [sampleRejection_spec.2] at hrun
  have hsame := hrun rfl _ rfl _ (List.mem_singleton_self _)
  exact absurd (congrArg (Option.map (·.homeTransactionId)) hsame) (by decide)

end PutAcceptQuoteHandler
end Outbound
