import Pivotal.Audit.Consumer
import Pivotal.Trust.SigningTenant

/-! Which messages the loops of the two consumers survive. -/
namespace Nats
open Async Async.Program Audit Trust

/-- Each loop goes through its messages, and settles each of them once, exactly where all of them
are safe and no handler throws an error that cannot be told. -/
theorem consumers_survive_iff {ν : Type} (audit : AuditTransactionConsumer ν)
    (signing : SigningTenantConsumer ν) :
    (∀ (messages : List Delivery) (t : List (ConsumerEvent (AuditCall ν) Failure))
      (r : Except Failure Unit), (consume audit.process messages).Settles t r →
        (Survives messages t r ↔ messages.all audit.isSafe = true ∧
          t.any (throws AuditTransactionConsumer.untold) = false)) ∧
      ∀ (messages : List Delivery) (t : List (ConsumerEvent PublishCall PublishFailure))
        (r : Except PublishFailure Unit), (consume signing.process messages).Settles t r →
          (Survives messages t r ↔ messages.all signing.isSafe = true ∧
            t.any (throws SigningTenantConsumer.untold) = false) := by
  constructor
  · intro messages t r ht
    exact survives_iff audit.obeys_process ht
  · intro messages t r ht
    exact survives_iff signing.obeys_process ht

def sampleAudit : AuditTransactionConsumer Unit := ⟨Js.Numbers.unit, fun _ => none, false⟩

def sampleSigning : SigningTenantConsumer Unit := ⟨Js.Numbers.unit⟩

/-- A delivery of a message. -/
def sampleDelivery (message : Js.Value Unit) (redeliveryCount : ℕ) : Delivery :=
  ⟨Js.Buffer.fromUtf8 (message.stringify Js.Numbers.unit), redeliveryCount⟩

/-- A message is read as it is after a round trip; no text of JSON begins with the mark. -/
theorem decode_sampleDelivery {message : Js.Value Unit} (redeliveryCount : ℕ)
    (hmark : (message.chars Js.Numbers.unit).head? ≠ some '\uFEFF') :
    decode Js.Numbers.unit (sampleDelivery message redeliveryCount).data =
      some (message.reread Js.Numbers.unit) := by
  have htext : textDecode (sampleDelivery message redeliveryCount).data =
      message.stringify Js.Numbers.unit := by
    unfold textDecode sampleDelivery
    rw [Js.Buffer.toUtf8_fromUtf8]
    split
    · rename_i hchars
      rw [Js.Value.stringify, String.toList_ofList] at hchars
      rw [hchars] at hmark
      exact absurd rfl hmark
    · exact String.ofList_toList
  unfold decode
  rw [htext]
  exact Js.Value.parse_stringify Js.Numbers.unit message

/-- The request of a patch, and the announcement of a tenant. -/
def samplePatch : Js.Value Unit :=
  .object [(Js.units "phase", .string (Js.units "PATCH")),
    (Js.units "action", .string (Js.units "REQUEST")), (Js.units "content", .object [])]

def sampleTenant : Js.Value Unit := .object [(Js.units "fspId", .string (Js.units "dfsp-a"))]

/-- The command of the request. -/
def samplePatchInput : AuditCommandInput Unit where
  phase := .patch
  action := .request
  fields := [("correlationId", none), ("payerFsp", none), ("payeeFsp", none), ("request", none)]
  gateway := none
  occurredAt := none

/-- What is neither known to be permanent, nor without a text. -/
def sampleTimeout : PublishFailure := ⟨true, false, true, some 408⟩

theorem process_true : sampleAudit.process (sampleDelivery (.bool true) 1) =
    settle (sampleDelivery (.bool true) 1) .term := by
  have hdecode : decode sampleAudit.numbers (sampleDelivery (.bool true) 1).data =
      some (.bool true) := decode_sampleDelivery 1 (by decide)
  unfold AuditTransactionConsumer.process
  rw [hdecode]
  rfl

theorem process_null : sampleAudit.process (sampleDelivery .null 1) = throw .plain := by
  have hdecode : decode sampleAudit.numbers (sampleDelivery .null 1).data = some .null :=
    decode_sampleDelivery 1 (by decide)
  unfold AuditTransactionConsumer.process
  rw [hdecode]

theorem decode_samplePatch (redeliveryCount : ℕ) :
    decode Js.Numbers.unit (sampleDelivery samplePatch redeliveryCount).data = some samplePatch :=
  decode_sampleDelivery redeliveryCount (by decide)

theorem decode_sampleTenant (redeliveryCount : ℕ) :
    decode Js.Numbers.unit (sampleDelivery sampleTenant redeliveryCount).data =
      some sampleTenant :=
  decode_sampleDelivery redeliveryCount (by decide)

/-- The request is dispatched to its command, and acknowledged after it. -/
theorem process_samplePatch (redeliveryCount : ℕ) :
    sampleAudit.process (sampleDelivery samplePatch redeliveryCount) =
      tryCatch (do
          call (.execute samplePatchInput)
          pure ()
          settle (sampleDelivery samplePatch redeliveryCount) .ack)
        (AuditTransactionConsumer.handleProcessingFailure
          (sampleDelivery samplePatch redeliveryCount) samplePatch) := by
  have hdecode : decode sampleAudit.numbers (sampleDelivery samplePatch redeliveryCount).data =
      some samplePatch := decode_samplePatch redeliveryCount
  unfold AuditTransactionConsumer.process
  rw [hdecode]
  rfl

/-- The tenant is published and enabled, and its announcement is acknowledged after that. -/
theorem signing_process_sampleTenant (redeliveryCount : ℕ) :
    sampleSigning.process (sampleDelivery sampleTenant redeliveryCount) =
      SigningTenantConsumer.publish (sampleDelivery sampleTenant redeliveryCount) "dfsp-a" := by
  have hdecode : decode sampleSigning.numbers (sampleDelivery sampleTenant redeliveryCount).data =
      some sampleTenant := decode_sampleTenant redeliveryCount
  unfold SigningTenantConsumer.process
  rw [hdecode]
  rfl

theorem signing_process_true : sampleSigning.process (sampleDelivery (.bool true) 1) =
    settle (sampleDelivery (.bool true) 1) .term := by
  have hdecode : decode sampleSigning.numbers (sampleDelivery (.bool true) 1).data =
      some (.bool true) := decode_sampleDelivery 1 (by decide)
  unfold SigningTenantConsumer.process
  rw [hdecode]
  rfl

/-- A message without a phase and a tenant is terminated by both; the next one is asked for again
when its handler fails, and acknowledged when it is delivered again. -/
theorem consumers_survive_iff_sample :
    Survives [sampleDelivery (.bool true) 1, sampleDelivery samplePatch 1,
          sampleDelivery samplePatch 2]
        [(⟨.settle (sampleDelivery (.bool true) 1) .term, ()⟩ :
            ConsumerEvent (AuditCall Unit) Failure),
          ⟨.call (.execute samplePatchInput), .error .plain⟩,
          ⟨.settle (sampleDelivery samplePatch 1) (.nak none), ()⟩,
          ⟨.call (.execute samplePatchInput), .ok ()⟩,
          ⟨.settle (sampleDelivery samplePatch 2) .ack, ()⟩]
        (.ok ()) ∧
      Survives [sampleDelivery (.bool true) 1, sampleDelivery sampleTenant 1,
          sampleDelivery sampleTenant 2]
        [(⟨.settle (sampleDelivery (.bool true) 1) .term, ()⟩ :
            ConsumerEvent PublishCall PublishFailure),
          ⟨.call (.publishAndEnable "dfsp-a"), .error sampleTimeout⟩,
          ⟨.settle (sampleDelivery sampleTenant 1) (.nak (some 5000)), ()⟩,
          ⟨.call (.publishAndEnable "dfsp-a"), .ok ()⟩,
          ⟨.settle (sampleDelivery sampleTenant 2) .ack, ()⟩]
        (.ok ()) := by
  constructor
  · refine ((consumers_survive_iff sampleAudit sampleSigning).1 _ _ _ ?_).mpr ⟨?_, rfl⟩
    · unfold consume
      rw [process_true]
      refine .call _ ?_
      unfold consume
      rw [process_samplePatch]
      refine .call _ (.call _ ?_)
      unfold consume
      rw [process_samplePatch]
      exact .call _ (.call _ (.refl _))
    · unfold AuditTransactionConsumer.isSafe
      simp only [List.all_cons, List.all_nil]
      rw [show decode sampleAudit.numbers (sampleDelivery (.bool true) 1).data =
          some (.bool true) from decode_sampleDelivery 1 (by decide),
        show decode sampleAudit.numbers (sampleDelivery samplePatch 1).data =
          some samplePatch from decode_samplePatch 1,
        show decode sampleAudit.numbers (sampleDelivery samplePatch 2).data =
          some samplePatch from decode_samplePatch 2]
      rfl
  · refine ((consumers_survive_iff sampleAudit sampleSigning).2 _ _ _ ?_).mpr ⟨?_, rfl⟩
    · unfold consume
      rw [signing_process_true]
      refine .call _ ?_
      unfold consume
      rw [signing_process_sampleTenant]
      refine .call _ (.call _ ?_)
      unfold consume
      rw [signing_process_sampleTenant]
      exact .call _ (.call _ (.refl _))
    · unfold SigningTenantConsumer.isSafe
      simp only [List.all_cons, List.all_nil]
      rw [show decode sampleSigning.numbers (sampleDelivery (.bool true) 1).data =
          some (.bool true) from decode_sampleDelivery 1 (by decide),
        show decode sampleSigning.numbers (sampleDelivery sampleTenant 1).data =
          some sampleTenant from decode_sampleTenant 1,
        show decode sampleSigning.numbers (sampleDelivery sampleTenant 2).data =
          some sampleTenant from decode_sampleTenant 2]
      rfl

/-- The loop over the audit stream is over at the message `null`, and the message behind it is not
settled. -/
theorem not_survives_null : ¬ ∀ (messages : List Delivery)
    (t : List (ConsumerEvent (AuditCall Unit) Failure)) (r : Except Failure Unit),
      (consume sampleAudit.process messages).Settles t r → Survives messages t r := by
  intro hsurvives
  have hsettles : (consume sampleAudit.process
      [sampleDelivery .null 1, sampleDelivery (.bool true) 1]).Settles [] (.error .plain) := by
    unfold consume
    rw [process_null]
    exact .refl _
  have hok := (hsurvives _ _ _ hsettles).1
  cases hok

end Nats
