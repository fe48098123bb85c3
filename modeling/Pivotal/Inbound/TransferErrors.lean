import Pivotal.Audit.TransactionMessage
import Pivotal.Fspiop.Signing
import Pivotal.Fspiop.Subscriber

/-! The endpoint for errors of a transfer, which fail the request that waits for its callback. -/
namespace Inbound
open Js Fspiop

/-- The error of a callback: what its body holds, or an error of the catalogue in its place. -/
inductive CallbackError (ν : Type) where
  | received (errorInformation : Value ν)
  | fallback (error : ErrorInformationObject)

structure HandlePutTransfersErrorInput (ν : Type) where
  correlationId : Option String
  payerFsp : String
  payeeFsp : String
  transferId : String
  error : CallbackError ν

namespace TransfersController

variable {ν : Type}

def headerValue (value : Option String) : String := value.getD ""

def optionalHeaderValue (value : Option String) : Option String :=
  let header := trim (headerValue value)
  if header = "" then none else some header

def fallbackError : ErrorInformationObject := FspiopErrors.internalServerError.toErrorObject none

/-- A member that is neither missing nor null. -/
def errorInformation (response : Option (Value ν)) : Option (Value ν) :=
  match response with
  | some (.object fields) =>
    match FspiopSignature.field fields "errorInformation" with
    | some .null => none
    | value => value
  | _ => none

def toErrorInformationObject (response : Option (Value ν)) : CallbackError ν :=
  match errorInformation response with
  | some value => .received value
  | none => .fallback fallbackError

def putTransfersError (transferId : String) (request : Request ν) :
    HandlePutTransfersErrorInput ν where
  correlationId := optionalHeaderValue (request.headers "traceparent")
  payerFsp := headerValue (request.headers FspiopHeaders.Names.fspiopDestination)
  payeeFsp := headerValue (request.headers FspiopHeaders.Names.fspiopSource)
  transferId := transferId
  error := toErrorInformationObject request.body

end TransfersController

def firstNonBlank (values : List (Option String)) : Option String :=
  values.findSome? fun value => (value.map trim).filter (· ≠ "")

def resolveGatewayCorrelationId (correlationId : Option String)
    (transactionIdentifiers : List (Option String)) : Except JsError String :=
  match firstNonBlank transactionIdentifiers with
  | some identifier => .ok identifier
  | none =>
    match firstNonBlank [correlationId] with
    | some traceCorrelationId => .ok traceCorrelationId
    | none => .error (reject FspiopErrors.missingMandatoryElement
        "traceparent correlationId or transaction identifier is required")

/-- A message for the subscribers of a subject. -/
structure Publication (ν : Type) where
  subject : String
  error : CallbackError ν

abbrev ErrorMessage (ν : Type) :=
  Audit.TransactionMessage (Audit.BaseContent Unit Unit (CallbackError ν))

namespace HandlePutTransfersErrorHandler

variable {ν : Type}

/-- What is published in the end. The audit message goes out first, and may fail to. -/
def execute (audit : ErrorMessage ν → Except JsError Unit) (now : Date)
    (input : HandlePutTransfersErrorInput ν) : Except JsError (Publication ν) := do
  let correlationId ← resolveGatewayCorrelationId input.correlationId [some input.transferId]
  audit (.ofError .transfers .inbound
    ⟨correlationId, input.payerFsp, input.payeeFsp, now, none, none, some input.error⟩)
  return ⟨FspiopPubSubSubjects.Transfers.forError input.payerFsp input.transferId, input.error⟩

end HandlePutTransfersErrorHandler

section Requests

variable {ν π κ ι Body : Type} [DecidableEq ι]

/-- What the body of a publication is read as by its subscriber. -/
def payload (read : Value ν → ErrorInformation) : CallbackError ν → Payload Body
  | .received value => .error ⟨some (read value)⟩
  | .fallback error => .error error

/-- A request to `PUT /transfers/{transferId}/error`, from the guard to the publication. -/
def receive (guard : FspInboundGuard ν π κ) (audit : ErrorMessage ν → Except JsError Unit)
    (counts : UnsignedAccepted) (now : Date) (transferId : String) (request : Request ν) :
    Except JsError (Publication ν) := do
  let _ ← guard.canActivate counts request
  HandlePutTransfersErrorHandler.execute audit now
    (TransfersController.putTransfersError transferId request)

/-- The request fails the transfer that waits under this identity. -/
def FailsWaiting (guard : FspInboundGuard ν π κ) (audit : ErrorMessage ν → Except JsError Unit)
    (read : Value ν → ErrorInformation) (counts : UnsignedAccepted) (now : Date)
    (transferId : String) (request : Request ν) (s : FspiopResponseSubscriber ι Body) (id : ι) :
    Prop :=
  ∃ publication, receive guard audit counts now transferId request = .ok publication ∧
    (s.waiters id).bind (·.outcome) = none ∧
    ∃ e, ((s.dispatch publication.subject (payload read publication.error) now).waiters id).bind
      (·.outcome) = some (.error e)

/-- Under the strictest policy a request without a signature is let through only when there is
nothing to sign; a transfer is failed by a body only if its source has signed that body. -/
theorem bodies_are_signed (ι Body : Type) [DecidableEq ι] (guard : FspInboundGuard ν π κ)
    (hjws : guard.useJws = true)
    (hrequire : ∀ source, guard.verifyMode source = .require) :
    (∀ counts request, request.headers FspiopHeaders.Names.fspiopSignature = none →
      guard.resolveBody request ≠ none → ∃ e, guard.canActivate counts request = .error e) ∧
    ∀ audit read counts now transferId request (s : FspiopResponseSubscriber ι Body) id,
      FailsWaiting guard audit read counts now transferId request s id →
      guard.resolveBody request ≠ none →
      ∃ source publicKey signature protectedHeader body,
        guard.Verified request source publicKey signature protectedHeader body := by
  have hadmits : ∀ {counts counts' b} {request : Request ν},
      guard.canActivate counts request = .ok (b, counts') →
      guard.resolveBody request ≠ none → ∃ source publicKey signature protectedHeader body,
        guard.Verified request source publicKey signature protectedHeader body := by
    intro counts counts' b request h hbody
    obtain ⟨-, hadmits⟩ := FspInboundGuard.admits_of_canActivate h
    cases hadmits with
    | disabled h => exact absurd h (by simp [hjws])
    | off source _ hmode => exact absurd hmode (by simp [hrequire])
    | bodyless _ h => exact absurd h hbody
    | unsigned source _ hmode => exact absurd hmode (by simp [hrequire])
    | signed source publicKey signature protectedHeader body h =>
      exact ⟨source, publicKey, signature, protectedHeader, body, h⟩
  constructor
  · intro counts request hunsigned hbody
    cases h : guard.canActivate counts request with
    | error e => exact ⟨e, rfl⟩
    | ok result =>
      obtain ⟨_, _, _, _, _, hverified⟩ := hadmits h hbody
      obtain ⟨raw, hraw, -⟩ := hverified.parsed
      rw [hunsigned] at hraw
      cases hraw
  · intro audit read counts now transferId request s id hfails hbody
    obtain ⟨publication, hreceive, -⟩ := hfails
    obtain ⟨result, hresult, -⟩ := bind_ok_iff.mp hreceive
    exact hadmits hresult hbody

end Requests

/-- A request of `dfsp2` about a transfer of `dfsp1`, without a signature. -/
def sampleRequest (body : Option (Value (List Char))) : Request (List Char) where
  method := "PUT"
  url := "/transfers/t1/error"
  headers name :=
    if name = "fspiop-source" then some "dfsp2"
    else if name = "fspiop-destination" then some "dfsp1"
    else none
  body := body

/-- The transfer of `dfsp1` that waits for its callback. -/
def sampleWaiting : FspiopResponseSubscriber ℕ Unit :=
  FspiopResponseSubscriber.initial.waitFor 0
    ⟨FspiopPubSubSubjects.Transfers.forSuccess "dfsp1" "t1",
      FspiopPubSubSubjects.Transfers.forError "dfsp1" "t1", none, 30000⟩ 0

def sampleBody : Value (List Char) := .object [(units "errorInformation", .object [])]

/-- The request with a body and the signature of `dfsp2`. -/
def sampleSigned (header : FspiopSignature.Header) : Request (List Char) :=
  { sampleRequest (some sampleBody) with
    headers := fun name =>
      if name = "fspiop-uri" then some "/transfers/t1/error"
      else if name = "fspiop-signature" then some (sampleInterceptor.headerText header)
      else (sampleRequest none).headers name }

theorem verified_sampleSigned : ∃ header signature protectedHeader body,
    sampleGuard.Verified (sampleSigned header) "dfsp2" "dfsp2" signature protectedHeader body := by
  have hsign : (FspiopSignature.sign sampleEngine sampleRsa "dfsp2"
      ⟨"PUT", "/transfers/t1/error", "dfsp2", some "dfsp1", none, none⟩
      "\x7b\"errorInformation\":\x7b\x7d\x7d").toOption.isSome = true := by
    decide +kernel
  obtain ⟨header, hsign⟩ := exists_ok hsign
  have hbody : sampleGuard.resolveBody ⟨"", "", fun _ => none, some sampleBody⟩ =
      some "\x7b\"errorInformation\":\x7b\x7d\x7d" := by
    decide +kernel
  have huri : FspiopUri.extract "/transfers/t1/error" = .ok "/transfers/t1/error" := by
    decide +kernel
  refine ⟨header, .string (units header.signature), .string (units header.protectedHeader),
    "\x7b\"errorInformation\":\x7b\x7d\x7d", ?_⟩
  apply sampleGuard.verified_of_sign sampleInterceptor rfl (sampleRsa_exact "dfsp2") hsign huri
    rfl rfl rfl rfl rfl
  · intro destination h
    cases h
    exact ⟨rfl, by decide +kernel⟩
  · rw [← hbody]
    exact FspInboundGuard.resolveBody_congr rfl
  · rfl

/-- With a body it is rejected; signed, it fails the transfer. -/
theorem bodies_are_signed_sample :
    (∃ e, sampleGuard.canActivate .empty (sampleRequest (some sampleBody)) = .error e) ∧
    ∃ header, FailsWaiting sampleGuard (fun _ => .ok ()) (fun _ => ⟨none, none, none⟩) .empty 0 "t1"
        (sampleSigned header) sampleWaiting 0 ∧
      ∃ source publicKey signature protectedHeader body,
        sampleGuard.Verified (sampleSigned header) source publicKey signature protectedHeader
          body := by
  have hbodies := bodies_are_signed ℕ Unit sampleGuard rfl fun _ => rfl
  obtain ⟨header, signature, protectedHeader, body, hverified⟩ := verified_sampleSigned
  have hfails : FailsWaiting sampleGuard (fun _ => .ok ()) (fun _ => ⟨none, none, none⟩) .empty 0
      "t1" (sampleSigned header) sampleWaiting 0 := by
    have haccepted := hverified.canActivate (by decide) .empty
    have hinput : TransfersController.putTransfersError "t1" (sampleSigned header) =
        ⟨none, "dfsp1", "dfsp2", "t1", .received (.object [])⟩ := by
      unfold TransfersController.putTransfersError
      congr 1
    refine ⟨⟨FspiopPubSubSubjects.Transfers.forError "dfsp1" "t1", .received (.object [])⟩, ?_, rfl,
      _, rfl⟩
    unfold receive
    rw [haccepted, hinput]
    rfl
  refine ⟨hbodies.1 _ _ (by decide +kernel) nofun, header, hfails, ?_⟩
  exact hbodies.2 _ _ _ _ _ _ _ _ hfails (by rw [hverified.resolved]; simp)

/-- With an empty object for a body it is let through and fails the transfer. -/
theorem not_bodies_are_signed :
    sampleGuard.canActivate .empty (sampleRequest (some (.object []))) = .ok (true, .empty) ∧
      FailsWaiting sampleGuard (fun _ => .ok ()) (fun _ => ⟨none, none, none⟩) .empty 0 "t1"
        (sampleRequest (some (.object []))) sampleWaiting 0 := by
  constructor
  · rfl
  · exact ⟨_, rfl, rfl, _, rfl⟩

end Inbound
