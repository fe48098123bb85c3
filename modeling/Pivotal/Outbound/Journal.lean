import Pivotal.Outbound.System

/-! What an execution has done so far, read off its answered calls, and the discipline
that both handlers follow: every access to the cached transfer and to the hub is made
between the acquisition and the release of the lock, in a fixed order. -/
namespace Outbound
open Fspiop Audit Async Async.Program

/-- The calls that touch neither the cached transfer nor its lock, the hub or the audit stream. -/
def OutboundOp.quiet : OutboundOp → Bool
  | .now | .randomUUID | .redisIncrementScript _ _ | .waitFor _ _ | .cancel _
  | .quotesCallback _ | .transfersCallback _ => true
  | _ => false

structure Journal where
  job : OutboundJob
  token : Option String
  released : Bool
  loaded : Option TransferRequest
  quotePosted : Bool
  transferPosted : Bool
  stored : Option QuotesIDPutResponse
  completed : Bool
  deriving DecidableEq

namespace Journal

/-- The record of an execution that has made no call. -/
def initial (job : OutboundJob) : Journal := ⟨job, none, false, none, false, false, none, false⟩

/-- Between the acquisition of the lock and the release call. -/
def InSection (r : Journal) : Prop := r.token.isSome ∧ r.released = false

instance (r : Journal) : Decidable r.InSection := inferInstanceAs (Decidable (_ ∧ _))

/-- A success audit that follows a stored quote completes an `acceptParty`. -/
def completes (r : Journal) (message : AuditMessage) : Bool :=
  message.action = .response && r.stored.isSome

def afterSetNx (r : Journal) (token : String) : Except JsError Bool → Journal
  | .ok true => { r with token := some token }
  | _ => r

def afterGet (r : Journal) : Except JsError (Option TransferRequest) → Journal
  | .ok (some transferRequest) => { r with loaded := some transferRequest }
  | _ => r

def afterSet (r : Journal) (value : TransferRequest) (answer : Except JsError Unit) : Journal :=
  { r with stored := if answer.isOk && r.quotePosted then value.quotes else r.stored }

def afterPublish (r : Journal) (message : AuditMessage) : Except JsError Unit → Journal
  | .ok _ => if r.completes message then { r with completed := true } else r
  | .error _ => r

def next (r : Journal) : (op : OutboundOp) → OutboundAnswer op → Journal
  | .redisSetNx _ token _, a => r.afterSetNx token a
  | .redisReleaseScript _ _, _ => { r with released := true }
  | .redisGet _, a => r.afterGet a
  | .redisSet _ value _, a => r.afterSet value a
  | .publish message, a => r.afterPublish message a
  | .postQuotes _ _ _, _ => { r with quotePosted := true }
  | .postTransfers _ _ _, _ => { r with transferPosted := true }
  | .now, _ => r
  | .randomUUID, _ => r
  | .redisDel _, _ => r
  | .redisIncrementScript _ _, _ => r
  | .waitFor _ _, _ => r
  | .cancel _, _ => r
  | .quotesCallback _, _ => r
  | .transfersCallback _, _ => r

/-- The body carries the amount, packet, condition and expiration of the quote. -/
def Carries (body : TransfersPostRequest) (quote : QuotesIDPutResponse) : Prop :=
  body.amount = quote.transferAmount ∧ body.ilpPacket = some quote.ilpPacket ∧
    body.condition = some quote.condition ∧ body.expiration = some quote.expiration

/-- The cached transfer is written back before anything is sent, with its quote and its
transfer unchanged, or after the quote callback, with a quote. -/
def MayStore (r : Journal) (value : TransferRequest) : Prop :=
  (∃ tr, r.loaded = some tr ∧ value.quotes = tr.quotes ∧ value.transfer = tr.transfer ∧
      r.quotePosted = false ∧ r.transferPosted = false) ∨
    (r.quotePosted = true ∧ r.stored = none ∧ value.quotes.isSome ∧ value.transfer = none)

def MayRequestQuote (r : Journal) : Prop :=
  r.quotePosted = false ∧ (∃ input, r.job = .acceptParty input) ∧
    ∃ tr, r.loaded = some tr ∧ tr.quotes = none

def MayRequestTransfer (r : Journal) (body : TransfersPostRequest) : Prop :=
  r.transferPosted = false ∧ (∃ input, r.job = .acceptQuote input) ∧
    ∃ tr quote, r.loaded = some tr ∧ tr.transfer = none ∧ tr.quotes = some quote ∧
      Carries body quote

def allows (transferId : String) (r : Journal) : OutboundOp → Prop
  | .redisSetNx lockKey _ _ => r = initial r.job ∧ lockKey = RedisClient.lockKey transferId
  | .redisReleaseScript lockKey token =>
    r.InSection ∧ r.token = some token ∧ lockKey = RedisClient.lockKey transferId
  | .redisGet key => r.InSection ∧ key = transferId ∧ r = { initial r.job with token := r.token }
  | .redisSet key value _ => r.InSection ∧ key = transferId ∧ r.MayStore value
  | .redisDel key => r.InSection ∧ key = transferId
  | .publish message => r.InSection ∧ (r.completes message = true → r.completed = false)
  | .postQuotes _ _ _ => r.InSection ∧ r.MayRequestQuote
  | .postTransfers _ _ body => r.InSection ∧ r.MayRequestTransfer body
  | .now => r.released = false
  | .randomUUID => r.released = false
  | .redisIncrementScript _ _ => r.released = false
  | .waitFor _ _ => r.released = false
  | .cancel _ => r.released = false
  | .quotesCallback _ => r.released = false
  | .transfersCallback _ => r.released = false

/-- A completed `acceptParty` hands the stored quote to its caller. -/
def Settled (r : Journal) (result : Except JsError OutboundOutput) : Prop :=
  r.completed = true → ∃ output, result = .ok (.acceptParty output) ∧
    r.stored = some output.callback

end Journal

def journal (transferId : String) : Monitor OutboundOp OutboundAnswer Journal where
  next := Journal.next
  allows := Journal.allows transferId

namespace Journal

@[simp] theorem afterSet_inSection (r : Journal) (value : TransferRequest)
    (answer : Except JsError Unit) : (r.afterSet value answer).InSection ↔ r.InSection := Iff.rfl

theorem afterSet_unposted {r : Journal} (h : r.quotePosted = false) (value : TransferRequest)
    (answer : Except JsError Unit) : r.afterSet value answer = r := by
  have hand : (answer.isOk && r.quotePosted) = false := by rw [h, Bool.and_false]
  simp only [afterSet, hand, Bool.false_eq_true, if_false]

theorem allows_quiet {transferId : String} {r : Journal} {op : OutboundOp} (h : op.quiet = true) :
    r.allows transferId op ↔ r.released = false := by
  cases op <;> first | rfl | simp [OutboundOp.quiet] at h

theorem unreleased_of_allows {transferId : String} {r : Journal} {op : OutboundOp}
    (h : r.allows transferId op) : r.released = false := by
  cases op with
  | redisSetNx lockKey token px =>
    rw [h.1]
    rfl
  | redisReleaseScript lockKey token => exact h.1.2
  | redisGet key => exact h.1.2
  | redisSet key value px => exact h.1.2
  | redisDel key => exact h.1.2
  | publish message => exact h.1.2
  | postQuotes url headers body => exact h.1.2
  | postTransfers url headers body => exact h.1.2
  | _ => exact h

theorem next_quiet (r : Journal) {op : OutboundOp} (h : op.quiet = true)
    (a : OutboundAnswer op) : r.next op a = r := by
  cases op <;> first | rfl | simp [OutboundOp.quiet] at h

end Journal

@[simp] theorem journal_next (transferId : String) : (journal transferId).next = Journal.next := rfl

@[simp] theorem journal_allows (transferId : String) :
    (journal transferId).allows = Journal.allows transferId := rfl

end Outbound
