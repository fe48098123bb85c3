import Pivotal.Async.Pool
import Pivotal.Outbound.Handlers

/-! Any number of accept executions for one transfer, on any replicas, over one Redis
and one hub. A call may be answered by an error whether or not it took effect, keys
expire at any moment, and a process may be lost between any two calls. A delay is a
process that other steps overtake: what a call does to the shared state is done at the
step that makes it. Transfers, locks and counters are kept apart, as their keys are. -/
namespace Outbound
open Fspiop Audit

structure Shared where
  transfers : String → Option TransferRequest
  locks : String → Option String
  counters : String → ℤ
  quotesSent : List QuotesPostRequest
  transfersSent : List TransfersPostRequest

namespace Shared

/-- One cached transfer, no lock, and nothing sent to the hub. -/
def initial (transferId : String) (cached : Option TransferRequest) : Shared where
  transfers := Function.update (fun _ => none) transferId cached
  locks := fun _ => none
  counters := fun _ => 0
  quotesSent := []
  transfersSent := []

def setTransfer (s : Shared) (key : String) (value : Option TransferRequest) : Shared :=
  { s with transfers := Function.update s.transfers key value }

def setLock (s : Shared) (lockKey : String) (value : Option String) : Shared :=
  { s with locks := Function.update s.locks lockKey value }

def setCounter (s : Shared) (key : String) (value : ℤ) : Shared :=
  { s with counters := Function.update s.counters key value }

/-- The release script: delete the lock if it still holds the token. -/
def unlock (s : Shared) (lockKey token : String) : Shared :=
  if s.locks lockKey = some token then s.setLock lockKey none else s

def sendQuotes (s : Shared) (body : QuotesPostRequest) : Shared :=
  { s with quotesSent := s.quotesSent ++ [body] }

def sendTransfers (s : Shared) (body : TransfersPostRequest) : Shared :=
  { s with transfersSent := s.transfersSent ++ [body] }

@[simp] theorem setTransfer_transfers (s : Shared) (key : String)
    (value : Option TransferRequest) : (s.setTransfer key value).transfers key = value := by
  simp [setTransfer]

@[simp] theorem setTransfer_locks (s : Shared) (key : String) (value : Option TransferRequest) :
    (s.setTransfer key value).locks = s.locks := rfl

@[simp] theorem setTransfer_quotesSent (s : Shared) (key : String)
    (value : Option TransferRequest) : (s.setTransfer key value).quotesSent = s.quotesSent := rfl

@[simp] theorem setTransfer_transfersSent (s : Shared) (key : String)
    (value : Option TransferRequest) :
    (s.setTransfer key value).transfersSent = s.transfersSent := rfl

@[simp] theorem setLock_transfers (s : Shared) (lockKey : String) (value : Option String) :
    (s.setLock lockKey value).transfers = s.transfers := rfl

@[simp] theorem setLock_quotesSent (s : Shared) (lockKey : String) (value : Option String) :
    (s.setLock lockKey value).quotesSent = s.quotesSent := rfl

@[simp] theorem setLock_transfersSent (s : Shared) (lockKey : String) (value : Option String) :
    (s.setLock lockKey value).transfersSent = s.transfersSent := rfl

@[simp] theorem unlock_transfers (s : Shared) (lockKey token : String) :
    (s.unlock lockKey token).transfers = s.transfers := by
  simp only [unlock]
  split <;> rfl

@[simp] theorem unlock_quotesSent (s : Shared) (lockKey token : String) :
    (s.unlock lockKey token).quotesSent = s.quotesSent := by
  simp only [unlock]
  split <;> rfl

@[simp] theorem unlock_transfersSent (s : Shared) (lockKey token : String) :
    (s.unlock lockKey token).transfersSent = s.transfersSent := by
  simp only [unlock]
  split <;> rfl

end Shared

/-- A call that took effect, or one that failed with or without its effect. -/
def applies {α : Type} (answer : Except JsError α) (s next s' : Shared) : Prop :=
  match answer with
  | .ok _ => s' = next
  | .error _ => s' = s ∨ s' = next

theorem applies_cases {α : Type} {answer : Except JsError α} {s next s' : Shared}
    (h : applies answer s next s') : s' = s ∧ (∃ e, answer = .error e) ∨ s' = next := by
  cases answer with
  | error e =>
    rcases h with h | h
    · exact .inl ⟨h, e, rfl⟩
    · exact .inr h
  | ok a => exact .inr h

/-- What one call answers and does to the shared state. -/
def performs (s : Shared) : (op : OutboundOp) → OutboundAnswer op → Shared → Prop
  | .now, _, s' => s' = s
  | .randomUUID, _, s' => s' = s
  | .redisGet key, a, s' => s' = s ∧ ∀ value, a = .ok value → value = s.transfers key
  | .redisSet key value _, a, s' => applies a s (s.setTransfer key (some value)) s'
  | .redisDel key, a, s' => applies a s (s.setTransfer key none) s'
  | .redisSetNx lockKey token _, a, s' =>
    if s.locks lockKey = none then
      a ≠ .ok false ∧ applies a s (s.setLock lockKey (some token)) s'
    else a ≠ .ok true ∧ s' = s
  | .redisReleaseScript lockKey token, a, s' => applies a s (s.unlock lockKey token) s'
  | .redisIncrementScript key _, a, s' =>
    (∀ count, a = .ok count → count = s.counters key + 1) ∧
      applies a s (s.setCounter key (s.counters key + 1)) s'
  | .publish _, _, s' => s' = s
  | .waitFor _ _, _, s' => s' = s
  | .cancel _, _, s' => s' = s
  | .quotesCallback _, _, s' => s' = s
  | .transfersCallback _, _, s' => s' = s
  | .postQuotes _ _ body, a, s' => applies a s (s.sendQuotes body) s'
  | .postTransfers _ _ body, a, s' => applies a s (s.sendTransfers body) s'

/-- The error of a lost connection. -/
def outage : JsError := .ofMessage "Socket closed unexpectedly"

/-- One way for the world to answer: the calls in `fails` are lost without effect, every
other call succeeds, and the hub answers with the given callbacks. -/
def respond (fails : OutboundOp → Bool) (quote : QuotesIDPutResponse)
    (transfer : TransfersIDPutResponse) (s : Shared) : (op : OutboundOp) → OutboundAnswer op × Shared
  | .now => (0, s)
  | .randomUUID => ("token", s)
  | .redisGet key =>
    if fails (.redisGet key) then (.error outage, s) else (.ok (s.transfers key), s)
  | .redisSet key value px =>
    if fails (.redisSet key value px) then (.error outage, s)
    else (.ok (), s.setTransfer key (some value))
  | .redisDel key =>
    if fails (.redisDel key) then (.error outage, s) else (.ok (), s.setTransfer key none)
  | .redisSetNx lockKey token px =>
    if fails (.redisSetNx lockKey token px) then (.error outage, s)
    else if s.locks lockKey = none then (.ok true, s.setLock lockKey (some token))
    else (.ok false, s)
  | .redisReleaseScript lockKey token =>
    if fails (.redisReleaseScript lockKey token) then (.error outage, s)
    else (.ok (), s.unlock lockKey token)
  | .redisIncrementScript key px =>
    if fails (.redisIncrementScript key px) then (.error outage, s)
    else (.ok (s.counters key + 1), s.setCounter key (s.counters key + 1))
  | .publish message => (if fails (.publish message) then .error outage else .ok (), s)
  | .waitFor successSubject errorSubject =>
    (if fails (.waitFor successSubject errorSubject) then .error outage else .ok (), s)
  | .cancel _ => (.pending, s)
  | .quotesCallback successSubject =>
    (if fails (.quotesCallback successSubject) then .error outage else .ok quote, s)
  | .transfersCallback successSubject =>
    (if fails (.transfersCallback successSubject) then .error outage else .ok transfer, s)
  | .postQuotes url headers body =>
    if fails (.postQuotes url headers body) then (.error outage, s) else (.ok (), s.sendQuotes body)
  | .postTransfers url headers body =>
    if fails (.postTransfers url headers body) then (.error outage, s)
    else (.ok (), s.sendTransfers body)

theorem performs_respond (fails : OutboundOp → Bool) (quote : QuotesIDPutResponse)
    (transfer : TransfersIDPutResponse) (s : Shared) (op : OutboundOp) :
    performs s op (respond fails quote transfer s op).1 (respond fails quote transfer s op).2 := by
  cases op <;> simp only [respond, performs] <;> (repeat' split) <;> simp_all [applies]

/-! Sample data for concrete runs. -/

def sampleSettings : OutboundSettings where
  redisCacheItemTimeoutMs := 0
  quotesUrl := "q"
  transfersUrl := "t"
  amountDecimalPlaces := 2
  checkPayerFeeAsMandatory := false
  suspiciousTxnMonitoringEnabled := false
  suspiciousTxnWindowMinutes := 0
  suspiciousTxnThreshold := 0
  suspiciousTxnMatchingFields := []

def sampleParty (fspId : String) : Party where
  partyIdInfo := some ⟨some .msisdn, "1", none, some fspId, none⟩
  merchantClassificationCode := none
  name := none
  supportedCurrencies := none

def sampleFspParty : FspParty where
  type := none
  idType := some .msisdn
  idValue := "1"
  idSubValue := none
  displayName := none
  firstName := none
  middleName := none
  lastName := none
  dateOfBirth := none
  merchantClassificationCode := none
  fspId := none
  extensionList := none

def sampleQuote : QuotesIDPutResponse where
  transferAmount := some ⟨"USD", "1"⟩
  payeeReceiveAmount := none
  payeeFspFee := some ⟨"USD", "0"⟩
  payeeFspCommission := none
  expiration := "e"
  ilpPacket := "p"
  condition := "c"
  extensionList := none

def sampleCallback : TransfersIDPutResponse := ⟨some "f", none, .committed, none⟩

def sampleTransfer (quotes : Option QuotesIDPutResponse) : TransferRequest where
  payer := some (sampleParty "a")
  payee := some (sampleParty "b")
  quotes := quotes
  transfer := none
  transferId := "x"
  homeTransactionId := none
  initiatedTimestamp := ""
  fromParty := sampleFspParty
  toParty := sampleFspParty
  amountType := .send
  currency := "USD"
  amount := "1"
  transactionType := .transfer
  subScenario := none
  note := none
  supportedCurrencies := none

/-- One key expires. -/
def expires (s s' : Shared) : Prop :=
  ∃ key, s' = s.setTransfer key none ∨ s' = s.setLock key none ∨ s' = s.setCounter key 0

inductive OutboundJob where
  | acceptParty (input : PutAcceptPartyCommand.Input)
  | acceptQuote (input : PutAcceptQuoteCommand.Input)
  deriving DecidableEq

def OutboundJob.transferId : OutboundJob → String
  | .acceptParty input => input.transferId
  | .acceptQuote input => input.transferId

inductive OutboundOutput where
  | acceptParty (output : PutAcceptPartyCommand.Output)
  | acceptQuote (output : PutAcceptQuoteCommand.Output)
  deriving DecidableEq

/-- The executions of one transfer. -/
abbrev JobOf (transferId : String) := {job : OutboundJob // job.transferId = transferId}

def sampleAcceptQuote : JobOf "x" := ⟨.acceptQuote ⟨"x", true, none, none⟩, rfl⟩

def OutboundJob.execute (settings : OutboundSettings) :
    OutboundJob → OutboundProgram OutboundOutput
  | .acceptParty input => do return .acceptParty (← PutAcceptPartyHandler.execute settings input)
  | .acceptQuote input => do return .acceptQuote (← PutAcceptQuoteHandler.execute settings input)

def outbound (settings : OutboundSettings) (transferId : String) :
    Async.System OutboundOp OutboundAnswer JsError OutboundOutput (JobOf transferId) Shared where
  entry job := job.val.execute settings
  perform := performs
  background := expires

end Outbound
