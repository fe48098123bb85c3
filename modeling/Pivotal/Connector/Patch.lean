import Pivotal.Connector.Handlers

/-! The command of a `PATCH`: the wallet is told that the transfer is final. When that fails, an
error audit is to raise the dispute. -/
namespace Connector
open Fspiop Audit Async Async.Program

abbrev PatchContent := BaseContent TransfersIDPatchResponse TransfersIDPatchResponse String

abbrev PatchMessage := TransactionMessage PatchContent

structure FspClient.PatchTransfersInput where
  payerFsp : String
  payeeFsp : String
  transferId : String
  response : TransfersIDPatchResponse
  deriving DecidableEq

inductive PatchOp where
  | now
  | walletPatchTransfers (input : FspClient.PatchTransfersInput)
  | publish (message : PatchMessage)
  deriving DecidableEq

@[reducible] def PatchAnswer : PatchOp → Type
  | .now => Js.Date
  | .walletPatchTransfers _ => Except JsError Unit
  | .publish _ => Except JsError Unit

abbrev PatchProgram := Async.Program PatchOp PatchAnswer JsError

structure PerformPatchTransfersCommand.Input where
  correlationId : Option String
  payerFsp : String
  payeeFsp : String
  transferId : String
  response : TransfersIDPatchResponse
  deriving DecidableEq

namespace PerformPatchTransfersHandler

def publish (message : PatchMessage) : PatchProgram Unit := do
  lift (← perform (.publish message))

def auditContent (input : PerformPatchTransfersCommand.Input) (auditCorrelationId : String)
    (occurredAt : Js.Date) : PatchContent where
  correlationId := auditCorrelationId
  payerFsp := input.payerFsp
  payeeFsp := input.payeeFsp
  occurredAt := occurredAt

/-- The `try` block: the wallet and the audit of its answer. -/
def notifyWallet (input : PerformPatchTransfersCommand.Input) (auditCorrelationId : String) :
    PatchProgram Unit := do
  lift (← perform (.walletPatchTransfers
    ⟨input.payerFsp, input.payeeFsp, input.transferId, input.response⟩))
  let occurredAt ← perform .now
  publish (.ofResponse .patch .connector
    { auditContent input auditCorrelationId occurredAt with response := some input.response })

/-- The catch clause: only an error that passes for one of the wallet's client is audited. -/
def reportError (input : PerformPatchTransfersCommand.Input) (auditCorrelationId : String)
    (error : JsError) : PatchProgram Unit :=
  match AuditErrorConverter.toFspError error with
  | none => throw error
  | some patchError => do
    let occurredAt ← perform .now
    publish (.ofError .patch .connector
      { auditContent input auditCorrelationId occurredAt with error := some patchError })
    throw error

def execute (input : PerformPatchTransfersCommand.Input) : PatchProgram Unit := do
  let auditCorrelationId ← lift (resolveCorrelationId input.correlationId [some input.transferId])
  let createdAt ← perform .now
  publish (.ofRequest .patch .connector
    { auditContent input auditCorrelationId createdAt with request := some input.response })
  tryCatch (notifyWallet input auditCorrelationId) (reportError input auditCorrelationId)

end PerformPatchTransfersHandler

namespace ConnectorPatchTransfersListener

/-- What the listener does with the message of an execution. -/
inductive Settlement where
  | ack | nak
  deriving DecidableEq

def settlement : Except JsError Unit → Settlement
  | .ok _ => .ack
  | .error (.fspiop _) => .ack
  | .error _ => .nak

end ConnectorPatchTransfersListener

/-- The wallet call fails with such an error. -/
def walletFails (p : JsError → Bool) : Event PatchOp PatchAnswer → Bool
  | ⟨.walletPatchTransfers _, .error e⟩ => p e
  | _ => false

/-- The audit of the wallet's success fails with such an error. -/
def successAuditFails (p : JsError → Bool) : Event PatchOp PatchAnswer → Bool
  | ⟨.publish message, .error e⟩ => message.action = .response && p e
  | _ => false

/-- A Patch error audit of the transfer is published. -/
def publishesError (input : PerformPatchTransfersCommand.Input) : Event PatchOp PatchAnswer → Bool
  | ⟨.publish message, _⟩ => message.phase = .patch && message.action = .error &&
      resolveCorrelationId input.correlationId [some input.transferId] =
        .ok message.content.correlationId
  | _ => false

/-- The error passes for one of the wallet's client. -/
def isFspError (error : JsError) : Bool := (AuditErrorConverter.toFspError error).isSome

/-- A Patch error audit exactly for a failed wallet call. -/
def ReportsFailure (input : PerformPatchTransfersCommand.Input)
    (t : List (Event PatchOp PatchAnswer)) : Prop :=
  t.any (publishesError input) = true ↔ t.any (walletFails fun _ => true) = true

/-- The wallet fails only with errors that pass for those of its client, and the audit of its
success with none. -/
def ErrorsTold (t : List (Event PatchOp PatchAnswer)) : Prop :=
  t.any (walletFails fun e => !isFspError e) = false ∧ t.any (successAuditFails isFspError) = false

namespace PerformPatchTransfersHandler

variable {input : PerformPatchTransfersCommand.Input} {auditCorrelationId : String}
  {t : List (Event PatchOp PatchAnswer)}

theorem obeys_publish {message : PatchMessage} {Q : List (Event PatchOp PatchAnswer) →
    Except JsError Unit → Prop} (h : ∀ a, Q (t ++ [⟨.publish message, a⟩]) a) :
    (publish message).Obeys Monitor.trace t Q :=
  ⟨trivial, h⟩

/-- What an execution has recorded so far. -/
structure Record (input : PerformPatchTransfersCommand.Input)
    (t : List (Event PatchOp PatchAnswer)) (failed failedUntold misread reported : Bool) : Prop where
  failed : t.any (walletFails fun _ => true) = failed
  failedUntold : t.any (walletFails fun e => !isFspError e) = failedUntold
  misread : t.any (successAuditFails isFspError) = misread
  reported : t.any (publishesError input) = reported

/-- One more event; what is recorded after it is given apart, so that the trace stays as it is. -/
theorem Record.append {failed failedUntold misread reported failed' failedUntold' misread'
    reported' : Bool} {e : Event PatchOp PatchAnswer}
    (h : Record input t failed failedUntold misread reported)
    (hfailed : (failed || walletFails (fun _ => true) e) = failed')
    (hfailedUntold : (failedUntold || walletFails (fun e => !isFspError e) e) = failedUntold')
    (hmisread : (misread || successAuditFails isFspError e) = misread')
    (hreported : (reported || publishesError input e) = reported') :
    Record input (t ++ [e]) failed' failedUntold' misread' reported' := by
  obtain ⟨rfl, rfl, rfl, rfl⟩ := h
  subst hfailed hfailedUntold hmisread hreported
  constructor <;> simp [List.any_append]

theorem Record.now {failed failedUntold misread reported : Bool} (occurredAt : Js.Date)
    (h : Record input t failed failedUntold misread reported) :
    Record input (t ++ [⟨.now, occurredAt⟩]) failed failedUntold misread reported :=
  h.append (Bool.or_false _) (Bool.or_false _) (Bool.or_false _) (Bool.or_false _)

/-- The audits of the request and of an error are no audits of a success. -/
theorem successAuditFails_publish {message : PatchMessage} (hmessage : message.action ≠ .response)
    (p : JsError → Bool) (a : Except JsError Unit) :
    successAuditFails p ⟨.publish message, a⟩ = false := by
  cases a with
  | ok u => rfl
  | error e => simp [successAuditFails, hmessage]

/-- The catch clause adds the error audit exactly for an error that passes for the client's. -/
theorem obeys_reportError
    (hid : resolveCorrelationId input.correlationId [some input.transferId] = .ok auditCorrelationId)
    (error : JsError) {failed failedUntold misread : Bool}
    (h : Record input t failed failedUntold misread false) :
    (reportError input auditCorrelationId error).Obeys Monitor.trace t
      fun t' _ => Record input t' failed failedUntold misread (isFspError error) := by
  unfold reportError
  cases herror : AuditErrorConverter.toFspError error with
  | none =>
    have hreported : isFspError error = false := by simp [isFspError, herror]
    rw [hreported]
    exact h
  | some patchError =>
    have hreported : isFspError error = true := by simp [isFspError, herror]
    rw [hreported]
    refine .afterPerform trivial fun occurredAt => ?_
    rw [obeys_bind]
    apply obeys_publish
    intro a
    have hpublished (a : Except JsError Unit) : Record input (t ++ [⟨.now, occurredAt⟩] ++
        [⟨.publish (.ofError .patch .connector
          { auditContent input auditCorrelationId occurredAt with error := some patchError }), a⟩])
        failed failedUntold misread true := by
      apply (h.now occurredAt).append
      · exact Bool.or_false _
      · exact Bool.or_false _
      · rw [successAuditFails_publish (by simp [TransactionMessage.ofError]), Bool.or_false]
      · simp [publishesError, TransactionMessage.ofError, auditContent, hid]
    cases a with
    | error e => exact hpublished (.error e)
    | ok u => exact hpublished (.ok u)

/-- The `try` block fails with the error of the wallet or with that of the audit. -/
theorem obeys_notifyWallet (h : Record input t false false false false) :
    (notifyWallet input auditCorrelationId).Obeys Monitor.trace t fun t' r =>
      (r = .ok () ∧ Record input t' false false false false) ∨
      (∃ e, r = .error e ∧ Record input t' true (!isFspError e) false false) ∨
      ∃ e, r = .error e ∧ Record input t' false false (isFspError e) false := by
  refine .afterPerform trivial fun answer => ?_
  cases answer with
  | error e =>
    right
    left
    exact ⟨e, rfl, h.append rfl rfl rfl rfl⟩
  | ok u =>
    have hcall := h.append (e := ⟨.walletPatchTransfers
      ⟨input.payerFsp, input.payeeFsp, input.transferId, input.response⟩, .ok u⟩) rfl rfl rfl rfl
    refine .afterPerform trivial fun occurredAt => ?_
    apply obeys_publish
    intro a
    have hsilent : publishesError input ⟨.publish (.ofResponse .patch .connector
        { auditContent input auditCorrelationId occurredAt with response := some input.response }),
        a⟩ = false := by
      simp [publishesError, TransactionMessage.ofResponse]
    cases a with
    | error e =>
      right
      right
      have hmisread : successAuditFails isFspError ⟨.publish (.ofResponse .patch .connector
          { auditContent input auditCorrelationId occurredAt with
            response := some input.response }), .error e⟩ = isFspError e := by
        simp [successAuditFails, TransactionMessage.ofResponse]
      exact ⟨e, rfl, (hcall.now occurredAt).append rfl rfl hmisread hsilent⟩
    | ok u =>
      left
      exact ⟨rfl, (hcall.now occurredAt).append rfl rfl rfl hsilent⟩

/-- The failure of the wallet is reported exactly if every error that has to be told is. -/
def Told (input : PerformPatchTransfersCommand.Input) (t : List (Event PatchOp PatchAnswer)) :
    Prop :=
  ReportsFailure input t ↔ ErrorsTold t

theorem Record.told {failed failedUntold misread reported : Bool}
    (h : Record input t failed failedUntold misread reported)
    (hcases : (reported = true ↔ failed = true) ↔ failedUntold = false ∧ misread = false) :
    Told input t := by
  obtain ⟨rfl, rfl, rfl, rfl⟩ := h
  exact hcases

theorem obeys_execute : (execute input).Obeys Monitor.trace [] fun t _ => Told input t := by
  have hempty : Record input [] false false false false := ⟨rfl, rfl, rfl, rfl⟩
  unfold execute
  refine .afterLift (fun _ => hempty.told (by simp)) fun auditCorrelationId hid => ?_
  refine .afterPerform trivial fun createdAt => ?_
  rw [obeys_bind]
  apply obeys_publish
  intro a
  have hrecord : Record input ([] ++ [⟨.now, createdAt⟩] ++ [⟨.publish (.ofRequest .patch .connector
      { auditContent input auditCorrelationId createdAt with request := some input.response }), a⟩])
      false false false false := by
    apply (hempty.now createdAt).append rfl rfl
    · rw [successAuditFails_publish (by simp [TransactionMessage.ofRequest]), Bool.or_false]
    · simp [publishesError, TransactionMessage.ofRequest]
  cases a with
  | error e => exact hrecord.told (by simp)
  | ok u =>
    refine obeys_tryCatch.mpr ((obeys_notifyWallet hrecord).mono ?_)
    rintro t' r (⟨rfl, h⟩ | ⟨e, rfl, h⟩ | ⟨e, rfl, h⟩)
    · exact h.told (by simp)
    · refine (obeys_reportError hid e h).mono fun t'' _ h' => h'.told ?_
      cases isFspError e <;> simp
    · refine (obeys_reportError hid e h).mono fun t'' _ h' => h'.told ?_
      cases isFspError e <;> simp

end PerformPatchTransfersHandler

/-- An execution publishes a Patch error audit exactly when the wallet call fails, if and only if
the error of the wallet passes for one of its client and the error of the success audit does not. -/
theorem reports_failure_iff (input : PerformPatchTransfersCommand.Input)
    {t : List (Event PatchOp PatchAnswer)} {result : Except JsError Unit}
    (ht : (PerformPatchTransfersHandler.execute input).Settles t result) :
    ReportsFailure input t ↔ ErrorsTold t := by
  have htold := PerformPatchTransfersHandler.obeys_execute.settles ht
  rwa [Monitor.trace_after, List.nil_append] at htold

/-- The hub commits the transfer `t`. -/
def samplePatch : PerformPatchTransfersCommand.Input :=
  ⟨none, "a", "b", "t", ⟨"2023-11-14T22:28:20.000Z", .committed, none⟩⟩

def samplePatchContent : PatchContent where
  correlationId := "t"
  payerFsp := "a"
  payeeFsp := "b"
  occurredAt := 0

/-- The request of the sample is audited and the wallet refuses it. -/
def sampleRefusal (error : JsError) : List (Event PatchOp PatchAnswer) :=
  [⟨.now, 0⟩,
    ⟨.publish (.ofRequest .patch .connector
      { samplePatchContent with request := some samplePatch.response }), .ok ()⟩,
    ⟨.walletPatchTransfers ⟨"a", "b", "t", samplePatch.response⟩, .error error⟩]

theorem settles_refusal (error : JsError) {t : List (Event PatchOp PatchAnswer)}
    {result : Except JsError Unit}
    (hcatch : (PerformPatchTransfersHandler.reportError samplePatch "t" error).Settles t result) :
    (PerformPatchTransfersHandler.execute samplePatch).Settles (sampleRefusal error ++ t)
      result := by
  have hid : resolveCorrelationId samplePatch.correlationId [some samplePatch.transferId] =
      .ok "t" := rfl
  unfold PerformPatchTransfersHandler.execute
  rw [hid]
  refine settles_call_iff.mpr ⟨0, _, rfl, settles_call_iff.mpr ⟨.ok (), _, rfl, ?_⟩⟩
  exact settles_call_iff.mpr ⟨.error error, _, rfl, hcatch⟩

/-- A refusal in the words of the wallet's client is told. -/
theorem reports_failure_iff_sample : ∃ t result,
    (PerformPatchTransfersHandler.execute samplePatch).Settles t result ∧
      t.any (walletFails fun _ => true) = true ∧ ReportsFailure samplePatch t := by
  have hrun := settles_refusal (.fspClient ⟨"FSP_CLIENT_ERROR", "unknown transfer"⟩)
    (settles_call_iff.mpr ⟨0, _, rfl, settles_call_iff.mpr ⟨.ok (), _, rfl, .refl _⟩⟩)
  refine ⟨_, _, hrun, rfl, (reports_failure_iff samplePatch hrun).mpr ?_⟩
  constructor <;> decide +kernel

/-- A refusal as an FSPIOP exception is not told, and the message is done with. -/
theorem not_reports_failure : ¬ ∀ input t result,
    (PerformPatchTransfersHandler.execute input).Settles t result →
      ConnectorPatchTransfersListener.settlement result = .ack → ReportsFailure input t := by
  intro h
  have hrun := settles_refusal (reject FspiopErrors.payeeFspRejectedTransaction "no")
    (.refl _)
  have hreports := h _ _ _ hrun rfl
  have hfails := hreports.mpr rfl
  exact absurd hfails (by decide +kernel)

end Connector
