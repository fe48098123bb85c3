import Pivotal.Audit.TransactionMessage
import Pivotal.Nats.Consumer

/-! The consumer of the audit stream: what it dispatches of a message, and what becomes of the
message when that fails. -/
namespace Audit
open Async Async.Program Nats

/-- What a command throws, as far as the consumer looks at it: whether its message can be read and
written, and the numbers of the database. -/
structure Failure where
  told : Bool
  driverErrno : Option ℤ
  errno : Option ℤ
  deriving DecidableEq

/-- An error of the language or of the consumer itself. -/
def Failure.plain : Failure := ⟨true, none, none⟩

/-- The command of a phase and an action, with the fields that it is given of the content. -/
structure AuditCommandInput (ν : Type) where
  phase : InvocationPhase
  action : InvocationAction
  fields : List (String × Option (Js.Value ν))
  gateway : Option (Js.Value ν)
  /-- Nothing for `null`, and within it nothing for an invalid date. -/
  occurredAt : Option (Option Js.Date)

inductive AuditCall (ν : Type) where
  | execute (input : AuditCommandInput ν)
  | patchResolved (transferId : String) (occurredAt : Js.Date)
  | liveStats (correlationId : Js.Value ν)

abbrev AuditProgram (ν α : Type) := ConsumerProgram (AuditCall ν) Failure α

/-- `dateOf value` is `new Date(value)` of what has a text, with nothing for an invalid date. -/
structure AuditTransactionConsumer (ν : Type) where
  numbers : Js.Numbers ν
  dateOf : Js.Value ν → Option Js.Date
  liveStats : Bool

namespace AuditTransactionConsumer

def maxDeliveryAttempts : ℕ := 5

def permanentDbErrnos : List ℤ := [1048, 1264, 1265, 1366, 1406]

def isPermanentDbError (error : Failure) : Bool :=
  ((error.driverErrno.or error.errno).map permanentDbErrnos.contains).getD false

variable {ν : Type}

def toPhase : Option (Js.Value ν) → Option InvocationPhase
  | some (.string s) =>
    if s = Js.units "PARTIES" then some .parties
    else if s = Js.units "QUOTES" then some .quotes
    else if s = Js.units "TRANSFERS" then some .transfers
    else if s = Js.units "PATCH" then some .patch
    else none
  | _ => none

def toAction : Option (Js.Value ν) → Option InvocationAction
  | some (.string s) =>
    if s = Js.units "REQUEST" then some .request
    else if s = Js.units "RESPONSE" then some .response
    else if s = Js.units "ERROR" then some .error
    else if s = Js.units "RESOLVED" then some .resolved
    else none
  | _ => none

/-- The value, unless it is null. -/
def nonNull : Option (Js.Value ν) → Option (Js.Value ν)
  | some .null => none
  | value => value

/-- `String(value)`, which may throw; an absent value has a text. -/
def requireText (value : Option (Js.Value ν)) : Except Failure Unit :=
  if value.all hasText then .ok () else .error .plain

/-- The fields that a command reads with `?? null`. -/
def optionalFields : InvocationPhase → InvocationAction → List String
  | .parties, .request => ["payerIdType", "payerId", "payerSubId", "payeeIdType", "payeeId",
      "payeeSubId", "transactionInitiatorType", "transactionType", "subScenario", "request",
      "payerHomeTransactionId", "quotingCurrency", "quotingAmount", "amountType"]
  | .parties, .response => ["payerIdType", "payerId", "payerSubId", "payeeIdType", "payeeId",
      "payeeSubId", "response"]
  | .parties, .error => ["payerIdType", "payerId", "payerSubId", "payeeIdType", "payeeId",
      "payeeSubId", "error"]
  | .quotes, .request => ["request"]
  | .quotes, .response => ["request", "response"]
  | .quotes, .error => ["request", "error"]
  | .transfers, .request => ["request"]
  | .transfers, .response => ["request", "response"]
  | .transfers, .error => ["request", "error"]
  | .patch, .request => ["request"]
  | .patch, .response => ["response", "homeTransactionId"]
  | .patch, .error => ["error"]
  | _, .resolved => []

variable (consumer : AuditTransactionConsumer ν)

/-- Nothing for `null`; a value without a text makes no date. -/
def toOccurredAt (value : Option (Js.Value ν)) : Except Failure (Option (Option Js.Date)) :=
  match nonNull value with
  | none => .ok none
  | some value => if hasText value then .ok (some (consumer.dateOf value)) else .error .plain

/-- `content.name`, which throws where there is no content. -/
def readContent (content : Option (Js.Value ν)) : Except Failure (Js.Value ν) :=
  match nonNull content with
  | none => .error .plain
  | some content => .ok content

def toInput (phase : InvocationPhase) (action : InvocationAction) (message : Js.Value ν) :
    Except Failure (AuditCommandInput ν) := do
  let content ← readContent (property message "content")
  let occurredAt ← consumer.toOccurredAt (property content "occurredAt")
  return {
    phase := phase
    action := action
    fields := ["correlationId", "payerFsp", "payeeFsp"].map (fun name =>
        (name, property content name)) ++
      (optionalFields phase action).map fun name => (name, nonNull (property content name))
    gateway := property message "gateway"
    occurredAt := occurredAt }

def executeAudit (phase : InvocationPhase) (action : InvocationAction) (message : Js.Value ν) :
    AuditProgram ν Unit := do
  call (.execute (← lift (consumer.toInput phase action message)))

/-- `throw new Error(…)` with the action, whose text may throw before. -/
def unsupportedAction (message : Js.Value ν) : AuditProgram ν Unit := do
  lift (requireText (property message "action"))
  throw .plain

/-- What is missing or invalid is ignored. -/
def dispatchPatchResolved (content : Option (Js.Value ν)) : AuditProgram ν Unit :=
  match nonNull content with
  | none => pure ()
  | some content =>
    match property content "correlationId" with
    | some (.string correlationId) => do
      let transferId := Js.trim (Js.ofUnits correlationId)
      if transferId = "" then return
      let occurredAt ← lift (consumer.toOccurredAt (property content "occurredAt"))
      match occurredAt.join with
      | none => return
      | some occurredAt => call (.patchResolved transferId occurredAt)
    | _ => pure ()

/-- Only the connector resolves. -/
def dispatchResolved (message : Js.Value ν) : AuditProgram ν Unit := do
  lift (requireText (property message "gateway"))
  match property message "gateway" with
  | some (.string gateway) =>
    if gateway = Js.units "CONNECTOR" then
      consumer.dispatchPatchResolved (property message "content")
    else return
  | _ => return

/-- Only a patch is resolved. -/
def dispatch (phase : InvocationPhase) (message : Js.Value ν) : AuditProgram ν Unit :=
  match toAction (property message "action") with
  | none => unsupportedAction message
  | some .resolved =>
    if phase = .patch then consumer.dispatchResolved message else unsupportedAction message
  | some action => consumer.executeAudit phase action message

def recordLiveStats (message : Js.Value ν) : AuditProgram ν Unit :=
  if consumer.liveStats then
    match (nonNull (property message "content")).bind fun content =>
        nonNull (property content "correlationId") with
    | none => pure ()
    | some correlationId => call (.liveStats correlationId)
  else pure ()

/-- The texts of what is logged are made before the message is settled. -/
def handleProcessingFailure (msg : Delivery) (message : Js.Value ν) (error : Failure) :
    AuditProgram ν Unit := do
  if isPermanentDbError error || maxDeliveryAttempts ≤ msg.redeliveryCount then
    lift (requireText (property message "action"))
    if !error.told then throw .plain
    settle msg .term
  else
    if !error.told then throw .plain
    settle msg (.nak none)

/-- What becomes of a message that is not null. -/
def processMessage (msg : Delivery) (message : Js.Value ν) : AuditProgram ν Unit :=
  match toPhase (property message "phase") with
  | none => do
    lift (requireText (property message "phase"))
    settle msg .term
  | some phase =>
    tryCatch (do
        consumer.dispatch phase message
        consumer.recordLiveStats message
        settle msg .ack)
      (handleProcessingFailure msg message)

/-- The body of the loop. -/
def process (msg : Delivery) : AuditProgram ν Unit :=
  match decode consumer.numbers msg.data with
  | none => throw .plain
  | some .null => throw .plain
  | some message => consumer.processMessage msg message

def isSafeMessage (msg : Delivery) (message : Js.Value ν) : Bool :=
  match toPhase (property message "phase") with
  | none => (property message "phase").all hasText
  | some _ => (property message "action").all hasText || msg.redeliveryCount < maxDeliveryAttempts

/-- Nothing is thrown outside of the `try` because of the message: it is JSON and not null, a phase
that is unknown has a text, and so has the action where the attempts have come to their end. -/
def isSafe (msg : Delivery) : Bool :=
  match decode consumer.numbers msg.data with
  | none => false
  | some .null => false
  | some message => isSafeMessage msg message

/-- An error whose message cannot be read or written. -/
def untold (error : Failure) : Bool := !error.told

/-- A program that settles nothing: what it throws is recorded, if it cannot be told. -/
def Quiet {α : Type} (p : AuditProgram ν α) : Prop :=
  ∀ s, p.Obeys (accounts untold) s fun s' r =>
    (∃ a, r = .ok a ∧ s' = s) ∨ ∃ e, r = .error e ∧ s' = (s.1, s.2 || untold e)

section Quiet

variable {α β : Type}

theorem quiet_pure (a : α) : Quiet (pure a : AuditProgram ν α) := by
  intro s
  exact .inl ⟨a, rfl, rfl⟩

theorem quiet_throw : Quiet (throw .plain : AuditProgram ν α) := by
  intro s
  exact .inr ⟨.plain, rfl, by simp [untold, Failure.plain]⟩

theorem quiet_lift {x : Except Failure α} (hx : ∀ e, x = .error e → e = .plain) :
    Quiet (lift x : AuditProgram ν α) := by
  intro s
  cases x with
  | ok a => exact .inl ⟨a, rfl, rfl⟩
  | error e =>
    obtain rfl := hx e rfl
    exact .inr ⟨.plain, rfl, by simp [untold, Failure.plain]⟩

theorem quiet_call (request : AuditCall ν) : Quiet (call request) := by
  intro s
  exact obeys_call_handler (.inl ⟨(), rfl, rfl⟩) fun e => .inr ⟨e, rfl, rfl⟩

theorem quiet_bind {p : AuditProgram ν α} {f : α → AuditProgram ν β} (hp : Quiet p)
    (hf : ∀ a, Quiet (f a)) : Quiet (p >>= f) := by
  intro s
  rw [obeys_bind]
  refine (hp s).mono ?_
  rintro s' r (⟨a, rfl, rfl⟩ | ⟨e, rfl, rfl⟩)
  · exact hf a s'
  · exact .inr ⟨e, rfl, rfl⟩

end Quiet

theorem requireText_error {value : Option (Js.Value ν)} {e : Failure}
    (h : requireText value = .error e) : e = .plain := by
  unfold requireText at h
  split at h <;> cases h
  rfl

theorem toOccurredAt_error {value : Option (Js.Value ν)} {e : Failure}
    (h : consumer.toOccurredAt value = .error e) : e = .plain := by
  unfold toOccurredAt at h
  split at h
  · cases h
  · split at h <;> cases h
    rfl

theorem toInput_error {phase : InvocationPhase} {action : InvocationAction} {message : Js.Value ν}
    {e : Failure} (h : consumer.toInput phase action message = .error e) : e = .plain := by
  unfold toInput readContent at h
  cases hcontent : nonNull (property message "content") with
  | none =>
    rw [hcontent] at h
    cases h
    rfl
  | some content =>
    cases hdate : consumer.toOccurredAt (property content "occurredAt") with
    | ok date =>
      simp only [hcontent, bind, Except.bind, hdate] at h
      cases h
    | error e' =>
      simp only [hcontent, bind, Except.bind, hdate] at h
      cases h
      exact consumer.toOccurredAt_error hdate

theorem quiet_dispatchPatchResolved (content : Option (Js.Value ν)) :
    Quiet (consumer.dispatchPatchResolved content) := by
  unfold dispatchPatchResolved
  split
  · exact quiet_pure ()
  · rename_i content
    split
    · dsimp only
      split
      · exact quiet_pure ()
      · apply quiet_bind (quiet_lift fun _ => consumer.toOccurredAt_error)
        intro occurredAt
        split
        · exact quiet_pure ()
        · exact quiet_call _
    · exact quiet_pure ()

theorem quiet_dispatchResolved (message : Js.Value ν) :
    Quiet (consumer.dispatchResolved message) := by
  unfold dispatchResolved
  apply quiet_bind (quiet_lift fun _ => requireText_error)
  intro _
  split
  · split
    · exact consumer.quiet_dispatchPatchResolved _
    · exact quiet_pure ()
  · exact quiet_pure ()

theorem quiet_unsupportedAction (message : Js.Value ν) : Quiet (unsupportedAction message) :=
  quiet_bind (quiet_lift fun _ => requireText_error) fun _ => quiet_throw

theorem quiet_dispatch (phase : InvocationPhase) (message : Js.Value ν) :
    Quiet (consumer.dispatch phase message) := by
  unfold dispatch
  split
  · exact quiet_unsupportedAction message
  · split
    · exact consumer.quiet_dispatchResolved message
    · exact quiet_unsupportedAction message
  · apply quiet_bind (quiet_lift fun _ => consumer.toInput_error)
    intro input
    exact quiet_call _

theorem quiet_recordLiveStats (message : Js.Value ν) :
    Quiet (consumer.recordLiveStats message) := by
  unfold recordLiveStats
  split
  · split
    · exact quiet_pure ()
    · exact quiet_call _
  · exact quiet_pure ()

theorem toAction_of_not_hasText {action : Option (Js.Value ν)}
    (h : action.all hasText = false) : toAction action = none := by
  cases action with
  | none => cases h
  | some value =>
    cases value with
    | string s =>
      rw [Option.all_some, hasText_string] at h
      cases h
    | _ => rfl

/-- A message whose action has no text fails in the dispatch. -/
theorem dispatch_of_not_hasText (phase : InvocationPhase) {message : Js.Value ν}
    (h : (property message "action").all hasText = false) :
    consumer.dispatch phase message = throw .plain := by
  have htext : requireText (property message "action") = .error .plain := by
    simp [requireText, h]
  unfold dispatch
  rw [toAction_of_not_hasText h]
  dsimp only
  unfold unsupportedAction
  rw [htext]
  rfl

/-- The catch clause settles the message, unless it throws itself. -/
theorem obeys_handleProcessingFailure (msg : Delivery) (message : Js.Value ν) (error : Failure)
    (s : List Delivery × Bool) :
    (handleProcessingFailure msg message error).Obeys (accounts untold) s fun s' r =>
      (r = .ok () ∧ error.told = true ∧ s' = (s.1 ++ [msg], s.2) ∧
        ((property message "action").all hasText = true ∨
          (isPermanentDbError error || maxDeliveryAttempts ≤ msg.redeliveryCount) = false)) ∨
        ∃ e, r = .error e ∧ s' = s ∧ (error.told = false ∨
          (property message "action").all hasText = false ∧
            (isPermanentDbError error || maxDeliveryAttempts ≤ msg.redeliveryCount) = true) := by
  unfold handleProcessingFailure
  cases hterm : isPermanentDbError error || decide (maxDeliveryAttempts ≤ msg.redeliveryCount) with
  | true =>
    rw [if_pos rfl]
    cases htext : (property message "action").all hasText with
    | false =>
      have hrequire : requireText (property message "action") = .error .plain := by
        simp [requireText, htext]
      rw [hrequire]
      change _ ∨ _
      right
      exact ⟨.plain, rfl, rfl, .inr ⟨rfl, rfl⟩⟩
    | true =>
      have hrequire : requireText (property message "action") = .ok () := by
        simp [requireText, htext]
      rw [hrequire]
      cases htold : error.told with
      | false =>
        change _ ∨ _
        right
        exact ⟨.plain, rfl, rfl, .inl rfl⟩
      | true => exact obeys_settle_message (.inl ⟨rfl, rfl, rfl, .inl rfl⟩)
  | false =>
    rw [if_neg (by simp)]
    cases htold : error.told with
    | false =>
      change _ ∨ _
      right
      exact ⟨.plain, rfl, rfl, .inl rfl⟩
    | true => exact obeys_settle_message (.inl ⟨rfl, rfl, rfl, .inr rfl⟩)

/-- The `try` block settles the message, or it throws before. -/
theorem obeys_attempt (msg : Delivery) (phase : InvocationPhase) (message : Js.Value ν)
    (s : List Delivery × Bool) :
    (do
      consumer.dispatch phase message
      consumer.recordLiveStats message
      settle msg .ack : AuditProgram ν Unit).Obeys (accounts untold) s fun s' r =>
        (r = .ok () ∧ (property message "action").all hasText = true ∧
          s' = (s.1 ++ [msg], s.2)) ∨
        ∃ e, r = .error e ∧ s' = (s.1, s.2 || untold e) ∧
          ((property message "action").all hasText = false → e = .plain) := by
  cases htext : (property message "action").all hasText with
  | false =>
    rw [consumer.dispatch_of_not_hasText phase htext]
    change _ ∨ _
    right
    exact ⟨.plain, rfl, by simp [untold, Failure.plain], fun _ => rfl⟩
  | true =>
    have hnever (e : Failure) : true = false → e = .plain := fun h => Bool.noConfusion h
    rw [obeys_bind]
    refine (consumer.quiet_dispatch phase message s).mono ?_
    rintro s' r (⟨_, rfl, rfl⟩ | ⟨e, rfl, rfl⟩)
    · rw [onOk_ok, obeys_bind]
      refine (consumer.quiet_recordLiveStats message s').mono ?_
      rintro s'' r (⟨_, rfl, rfl⟩ | ⟨e, rfl, rfl⟩)
      · exact obeys_settle_message (.inl ⟨rfl, rfl, rfl⟩)
      · exact .inr ⟨e, rfl, rfl, hnever e⟩
    · exact .inr ⟨e, rfl, rfl, hnever e⟩

theorem obeys_processMessage {msg : Delivery} {message : Js.Value ν}
    (hsafe : consumer.isSafe msg = isSafeMessage msg message) (s : List Delivery × Bool) :
    (consumer.processMessage msg message).Obeys (accounts untold) s
      (Accounts consumer.isSafe msg s) := by
  unfold processMessage
  unfold Accounts
  rw [hsafe]
  unfold isSafeMessage
  cases hphase : toPhase (property message "phase") with
  | none =>
    cases htext : (property message "phase").all hasText with
    | false =>
      have hrequire : requireText (property message "phase") = .error .plain := by
        simp [requireText, htext]
      dsimp only
      rw [hrequire]
      exact .inr ⟨.plain, rfl, .inl rfl⟩
    | true =>
      have hrequire : requireText (property message "phase") = .ok () := by
        simp [requireText, htext]
      dsimp only
      rw [hrequire]
      exact obeys_settle_message (.inl ⟨rfl, rfl, rfl⟩)
  | some phase =>
    dsimp only
    rw [obeys_tryCatch]
    refine (consumer.obeys_attempt msg phase message s).mono ?_
    rintro s' r (⟨rfl, htext, rfl⟩ | ⟨e, rfl, rfl, hplain⟩)
    · left
      exact ⟨rfl, by simp [htext], rfl⟩
    · refine (obeys_handleProcessingFailure msg message e _).mono ?_
      rintro s'' r (⟨rfl, htold, rfl, hlogged⟩ | ⟨e', rfl, rfl, htold | ⟨htext, hterm⟩⟩)
      · left
        refine ⟨rfl, ?_, by simp [untold, htold]⟩
        cases htext : (property message "action").all hasText with
        | true => rfl
        | false =>
          rw [htext, hplain htext] at hlogged
          simpa [isPermanentDbError, Failure.plain] using hlogged
      · right
        exact ⟨e', rfl, .inr (by simp [untold, htold])⟩
      · right
        rw [hplain htext] at hterm
        refine ⟨e', rfl, .inl ?_⟩
        rw [htext]
        simpa [isPermanentDbError, Failure.plain] using hterm

/-- The body settles a message that is safe, unless a handler throws what cannot be told. -/
theorem obeys_process (msg : Delivery) (s : List Delivery × Bool) :
    (consumer.process msg).Obeys (accounts untold) s (Accounts consumer.isSafe msg s) := by
  have hdef : consumer.isSafe msg = match decode consumer.numbers msg.data with
      | none => false
      | some .null => false
      | some message => isSafeMessage msg message := rfl
  unfold process
  cases hdecode : decode consumer.numbers msg.data with
  | none =>
    rw [hdecode] at hdef
    exact .inr ⟨.plain, rfl, .inl hdef⟩
  | some message =>
    rw [hdecode] at hdef
    cases message with
    | null => exact .inr ⟨.plain, rfl, .inl hdef⟩
    | _ => exact consumer.obeys_processMessage hdef s

end AuditTransactionConsumer
end Audit
