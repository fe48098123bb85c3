import Pivotal.Fspiop.Subscriber
import Pivotal.Outbound.SendMoney

/-! What becomes of the error body of another participant: the exception that is built of it where
it is received, and the exception that a handler throws in the end. -/
namespace Outbound
open Fspiop Audit Async Async.Program

/-- How an error body reaches a handler: in answer to the lookup of a party, in answer to a
request that follows, or as an error callback. -/
inductive Receipt where
  | lookup (status : ℕ)
  | request (status : ℕ)
  | callback

namespace Receipt

/-- The exception that is built of a body where it is received. -/
def received : Receipt → ErrorInformation → Except JsError FspiopException
  | .lookup status, info | .request status, info =>
    .ok (toFspiopException (.axios ⟨status, ⟨some info⟩⟩))
  | .callback, info =>
    FspiopResponseSubscriber.toFspiopException (.error ⟨some info⟩ : Payload Unit)

/-- What reaches the catch clause of `execute`. The lookup throws the answer as it is. -/
def caught (info : ErrorInformation) (e : FspiopException) : Receipt → JsError
  | .lookup status => .axios ⟨status, ⟨some info⟩⟩
  | .request _ | .callback => .fspiop e

/-- The code in place of one that is not known. -/
def fallback : Receipt → ErrorDefinition
  | .lookup _ | .request _ => FspiopErrors.communicationError
  | .callback => FspiopErrors.genericServerError

/-- What a handler throws renders `code`, and `description` beside it or, as the value of an
extension without a key, beneath the description that the catalogue has for the code. -/
def Tells (info : ErrorInformation) (e : FspiopException) (code : ErrorCode)
    (description : String) (r : Receipt) : Prop :=
  let thrown := (toFspiopException (r.caught info e)).toErrorObject
  match r with
  | .lookup _ => thrown = ⟨some ⟨some code, some description, info.extensionList⟩⟩
  | .request _ | .callback =>
    ∃ definition extensions, FspiopErrors.find code = some definition ∧
      ⟨some "", some description⟩ ∈ extensions ∧
      thrown = ⟨some ⟨some code, some definition.description, some ⟨some extensions⟩⟩⟩

end Receipt

/-! What the handlers throw. -/

section Throws

variable {σ : Type} {error : JsError} {s : σ}

/-- What the innermost `finally` throws is thrown, whatever happens before. -/
theorem throws_finally {Op : Type} {Answer : Op → Type} {ε β : Type} {M : Monitor Op Answer σ}
    (hM : ∀ s op, M.allows s op) (audit : Program Op Answer ε Unit)
    (delete : Program Op Answer ε Unit) (e : ε) (next : Unit → Program Op Answer ε β) :
    (audit.tryFinally (delete.tryFinally (throw e)) >>= next).Obeys M s fun _ result =>
      result = .error e := by
  rw [obeys_bind, obeys_tryFinally]
  refine (obeys_of_allows hM audit s).mono fun s' audited _ => ?_
  rw [obeys_tryFinally]
  exact (obeys_of_allows hM delete s').mono fun s'' deleted _ => rfl

theorem sendOrCancel_throws {M : Monitor OutboundOp OutboundAnswer σ}
    (hM : ∀ s op, M.allows s op) {subject : String} {send : OutboundProgram Unit}
    (hsend : send.Obeys M s fun _ result => result = .error error) :
    (sendOrCancel subject send).Obeys M s fun _ result =>
      result = .error (.fspiop (toFspiopException error)) := by
  rw [sendOrCancel, obeys_tryCatch]
  refine hsend.mono ?_
  rintro s' _ rfl
  exact ⟨hM _ _, fun _ => rfl⟩

theorem auditAndThrow_throws {α : Type} {M : Monitor OutboundOp OutboundAnswer σ}
    (hM : ∀ s op, M.allows s op) (id : String) (phase : InvocationPhase)
    (content : Js.Date → FspiopException → AuditContent) :
    (auditAndThrow id phase content error : OutboundProgram α).Obeys M s fun _ result =>
      result = .error (.fspiop (toFspiopException error)) := by
  rw [auditAndThrow]
  exact ⟨hM _ _, fun date => throws_finally hM _ _ _ _⟩

theorem PostSendMoneyHandler.auditAndThrow_throws {M : Monitor SendMoneyOp SendMoneyAnswer σ}
    (hM : ∀ s op, M.allows s op) (id source destination : String) (request : SendMoneyRequest) :
    (auditAndThrow id source destination request error).Obeys M s fun _ result =>
      result = .error (.fspiop (toFspiopException error)) := by
  rw [auditAndThrow]
  exact ⟨hM _ _, fun date => throws_finally hM _ _ _ _⟩

end Throws

theorem find_code {code : ErrorCode} {definition : ErrorDefinition}
    (h : FspiopErrors.find code = some definition) : definition.errorType.code = code := by
  simpa using List.find?_some h

/-- A definition that is not found by its code is not in place of another. -/
theorem find_getD {code : ErrorCode} {fallback : ErrorDefinition}
    (hfallback : FspiopErrors.find fallback.errorType.code = some fallback) :
    FspiopErrors.find ((FspiopErrors.find code).getD fallback).errorType.code =
      some ((FspiopErrors.find code).getD fallback) := by
  cases h : FspiopErrors.find code with
  | none => exact hfallback
  | some definition =>
    rw [Option.getD_some, find_code h]
    exact h

/-- An exception is translated into that of the catalogue, its description below it. -/
theorem toFspiopException_fspiop {e : FspiopException} {definition : ErrorDefinition}
    (h : FspiopErrors.find e.errorDefinition.errorType.code = some definition) :
    (toFspiopException (.fspiop e)).toErrorObject =
      ⟨some ⟨some definition.errorType.code, some definition.description,
        some ⟨some [⟨some "", some e.errorDefinition.description⟩]⟩⟩⟩ := by
  have hnone : FspiopErrorTranslator.withTransactionId e.extensionList none
      e.errorDefinition.description = none := rfl
  rw [toFspiopException, FspiopErrorTranslator.toFspiopException, FspiopException.normalize]
  · dsimp only
    rw [hnone, h]
    rfl
  · simp

namespace Receipt

theorem find_fallback (r : Receipt) :
    FspiopErrors.find r.fallback.errorType.code = some r.fallback := by
  cases r with
  | lookup | request | callback => rfl

theorem received_eq (r : Receipt) (code : ErrorCode) (description : String)
    (extensionList : Option ExtensionList) :
    ∃ text, r.received ⟨some code, some description, extensionList⟩ =
        .ok ⟨⟨((FspiopErrors.find code).getD r.fallback).errorType, text⟩, text, extensionList⟩ ∧
      (Js.trim description ≠ "" → text = description) := by
  have hblank : Js.trim description ≠ "" → Js.blank (some description) = false :=
    fun h => decide_eq_false h
  have hkept : ∀ fallback, Js.trim description ≠ "" →
      FspiopException.firstNonBlank (some description) fallback = description :=
    fun fallback h => if_neg h
  cases r with
  | lookup | request =>
    refine ⟨_, rfl, fun h => ?_⟩
    simp only [Option.bind_some, hblank h, Bool.false_eq_true, if_false, Option.getD_some]
    exact hkept _ h
  | callback => exact ⟨_, rfl, hkept _⟩

/-- The exception that is built of a body renders its code where the catalogue has it, its
description where it is not blank, and its extensions. What the handler throws renders the code
too, and the description there or in an extension. -/
theorem translation_carries (r : Receipt) (code : ErrorCode) (description : String)
    (extensionList : Option ExtensionList) :
    ∃ (e : FspiopException) (code' : ErrorCode) (description' : String),
      r.received ⟨some code, some description, extensionList⟩ = .ok e ∧
      e.toErrorObject = ⟨some ⟨some code', some description', extensionList⟩⟩ ∧
      ((FspiopErrors.find code).isSome = true → code' = code) ∧
      (FspiopErrors.find code = none → code' = r.fallback.errorType.code) ∧
      (Js.trim description ≠ "" → description' = description) ∧
      r.Tells ⟨some code, some description, extensionList⟩ e code' description' := by
  obtain ⟨text, hreceived, htext⟩ := received_eq r code description extensionList
  set definition := (FspiopErrors.find code).getD r.fallback with hdefinition
  have hfound : FspiopErrors.find definition.errorType.code = some definition :=
    find_getD r.find_fallback
  refine ⟨⟨⟨definition.errorType, text⟩, text, extensionList⟩, definition.errorType.code, text,
    hreceived, rfl, fun h => ?_, fun h => ?_, htext, ?_⟩
  · obtain ⟨known, hknown⟩ := Option.isSome_iff_exists.mp h
    rw [hdefinition, hknown]
    exact find_code hknown
  · rw [hdefinition, h]
    rfl
  · cases r with
    | lookup status =>
      rw [received, Except.ok.injEq] at hreceived
      show (toFspiopException (.axios ⟨status, _⟩)).toErrorObject = _
      rw [hreceived]
      rfl
    | request | callback =>
      refine ⟨definition, [⟨some "", some text⟩], hfound, List.mem_singleton_self _, ?_⟩
      exact toFspiopException_fspiop (e := ⟨⟨definition.errorType, text⟩, text, extensionList⟩)
        hfound

/-- A refusal as another participant words it. -/
def refusal (code : ErrorCode) : ErrorInformation :=
  ⟨some code, some "Account closed.", some ⟨some [⟨some "branch", some "12"⟩]⟩⟩

def samplePartyNotFound : ErrorCode := FspiopErrors.partyNotFound.errorType.code

def sampleUnknown : ErrorCode := ⟨"9999", by decide⟩

theorem translation_carries_sample :
    (∃ e : FspiopException, Receipt.callback.received (refusal samplePartyNotFound) = .ok e ∧
      e.toErrorObject = ⟨some (refusal samplePartyNotFound)⟩ ∧
      Receipt.callback.Tells (refusal samplePartyNotFound) e samplePartyNotFound
        "Account closed.") ∧
    ∃ e : FspiopException, (Receipt.lookup 400).received (refusal sampleUnknown) = .ok e ∧
      e.toErrorObject = ⟨some (refusal FspiopErrors.communicationError.errorType.code)⟩ := by
  constructor
  · obtain ⟨e, code, description, hreceived, hrendered, hcode, -, hdescription, htells⟩ :=
      translation_carries .callback samplePartyNotFound "Account closed."
        (some ⟨some [⟨some "branch", some "12"⟩]⟩)
    obtain rfl := hcode (by decide)
    obtain rfl := hdescription (by decide)
    exact ⟨e, hreceived, hrendered, htells⟩
  · obtain ⟨e, code, description, hreceived, hrendered, -, hcode, hdescription, -⟩ :=
      translation_carries (.lookup 400) sampleUnknown "Account closed."
        (some ⟨some [⟨some "branch", some "12"⟩]⟩)
    obtain rfl := hcode (by decide)
    obtain rfl := hdescription (by decide)
    exact ⟨e, hreceived, hrendered⟩

/-- A code that the catalogue does not have is replaced, and the description of an error callback
gives way to the catalogue's own. -/
theorem translation_loses :
    (∃ e : FspiopException, (Receipt.lookup 400).received (refusal sampleUnknown) = .ok e ∧
      ((toFspiopException (Receipt.caught (refusal sampleUnknown) e (.lookup 400))).toErrorObject
        ).errorInformation.bind (·.errorCode) =
          some FspiopErrors.communicationError.errorType.code) ∧
    ∃ e : FspiopException, Receipt.callback.received (refusal samplePartyNotFound) = .ok e ∧
      ((toFspiopException (Receipt.caught (refusal samplePartyNotFound) e .callback)).toErrorObject
        ).errorInformation.bind (·.errorDescription) =
          some "Provided party identifier not found." :=
  ⟨⟨_, rfl, by decide⟩, _, rfl, by decide⟩

end Receipt
end Outbound
