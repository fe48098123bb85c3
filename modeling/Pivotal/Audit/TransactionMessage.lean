import Pivotal.Fspiop.Dto
import Pivotal.Js.Date

/-! The messages published to the audit stream. -/
namespace Audit

inductive InvocationPhase where
  | parties | quotes | transfers | patch
  deriving DecidableEq

inductive InvocationAction where
  | request | response | error | resolved
  deriving DecidableEq

inductive InvocationGateway where
  | outbound | inbound | connector
  deriving DecidableEq

structure TransactionMessage (Content : Type) where
  phase : InvocationPhase
  action : InvocationAction
  gateway : InvocationGateway
  content : Content
  deriving DecidableEq

/-- The fields that every content shares; `request`, `response` and `error` are `unknown`
in the source and differ between publishers. -/
structure BaseContent (Request Response Error : Type) where
  correlationId : String
  payerFsp : String
  payeeFsp : String
  occurredAt : Js.Date
  request : Option Request := none
  response : Option Response := none
  error : Option Error := none
  deriving DecidableEq

namespace TransactionMessage

variable {Content : Type}

def ofRequest (phase : InvocationPhase) (gateway : InvocationGateway) (content : Content) :
    TransactionMessage Content := ⟨phase, .request, gateway, content⟩

def ofResponse (phase : InvocationPhase) (gateway : InvocationGateway) (content : Content) :
    TransactionMessage Content := ⟨phase, .response, gateway, content⟩

def ofError (phase : InvocationPhase) (gateway : InvocationGateway) (content : Content) :
    TransactionMessage Content := ⟨phase, .error, gateway, content⟩

end TransactionMessage
end Audit
