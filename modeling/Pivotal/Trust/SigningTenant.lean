import Pivotal.Js.Text
import Pivotal.Nats.Consumer

/-! The consumer of the announcements of signing tenants, and its response to a publication that
fails: it gives up, or it asks for the message again after a while. -/
namespace Trust
open Async Async.Program Nats

/-- What a publication throws, as far as the consumer looks at it: whether its text can be read and
written, and what it is an instance of. Another status than none is that of an answer of MCM. -/
structure PublishFailure where
  told : Bool
  isPermanentPublishError : Bool
  isMcmException : Bool
  status : Option ℤ
  deriving DecidableEq

/-- An error of the language. -/
def PublishFailure.plain : PublishFailure := ⟨true, false, false, none⟩

inductive PublishCall where
  | publishAndEnable (fspId : String)
  deriving DecidableEq

abbrev SigningTenantProgram (α : Type) := ConsumerProgram PublishCall PublishFailure α

structure SigningTenantConsumer (ν : Type) where
  numbers : Js.Numbers ν

namespace SigningTenantConsumer

def baseBackoffMs : ℕ := 5000

def maxBackoffMs : ℕ := 5 * 60000

/-- The exponent is of what was delivered before. -/
def backoffMs (redeliveryCount : ℕ) : ℕ :=
  let exponent := redeliveryCount - 1
  min (baseBackoffMs * 2 ^ min exponent 20) maxBackoffMs

/-- The delay is never less than that of the first attempt, and never more than the greatest. -/
theorem backoffMs_bounds (redeliveryCount : ℕ) :
    baseBackoffMs ≤ backoffMs redeliveryCount ∧ backoffMs redeliveryCount ≤ maxBackoffMs := by
  have hpow : 1 ≤ 2 ^ min (redeliveryCount - 1) 20 := Nat.one_le_two_pow
  constructor
  · apply le_min
    · exact Nat.le_mul_of_pos_right baseBackoffMs hpow
    · decide
  · exact min_le_right _ _

/-- The delay only grows with the attempts. -/
theorem backoffMs_mono : Monotone backoffMs := by
  intro m n hmn
  have hexponent : min (m - 1) 20 ≤ min (n - 1) 20 := by omega
  have hpow : 2 ^ min (m - 1) 20 ≤ 2 ^ min (n - 1) 20 := Nat.pow_le_pow_right (by omega) hexponent
  exact min_le_min_right _ (Nat.mul_le_mul_left baseBackoffMs hpow)

def isPermanent (error : PublishFailure) : Bool :=
  if error.isPermanentPublishError then true
  else match error.isMcmException, error.status with
    | true, some status => 400 ≤ status && status < 500 && status ≠ 408 && status ≠ 429
    | _, _ => false

variable {ν : Type}

/-- `value?.trim()`, which throws for what is neither missing nor a string. -/
def trimmed : Option (Js.Value ν) → Except PublishFailure (Option String)
  | none => .ok none
  | some .null => .ok none
  | some (.string s) => .ok (some (Js.trim (Js.ofUnits s)))
  | some _ => .error .plain

/-- The texts of what is logged are made before the message is settled. -/
def handlePublishFailure (msg : Delivery) (error : PublishFailure) : SigningTenantProgram Unit := do
  if !error.told then throw .plain
  if isPermanent error then settle msg .term
  else settle msg (.nak (some (backoffMs msg.redeliveryCount)))

def publish (msg : Delivery) (fspId : String) : SigningTenantProgram Unit :=
  tryCatch (do
      call (.publishAndEnable fspId)
      settle msg .ack)
    (handlePublishFailure msg)

/-- What becomes of a message that is JSON. -/
def processMessage (msg : Delivery) (message : Js.Value ν) : SigningTenantProgram Unit := do
  let fspId ← lift (trimmed (property message "fspId"))
  match fspId with
  | none => settle msg .term
  | some fspId => if fspId.length = 0 then settle msg .term else publish msg fspId

variable (consumer : SigningTenantConsumer ν)

/-- The body of the loop. -/
def process (msg : Delivery) : SigningTenantProgram Unit :=
  match decode consumer.numbers msg.data with
  | none => throw .plain
  | some message => processMessage msg message

/-- The message is JSON, and the tenant that it names is missing or a string. -/
def isSafe (msg : Delivery) : Bool :=
  match decode consumer.numbers msg.data with
  | none => false
  | some message =>
    match property message "fspId" with
    | none => true
    | some .null => true
    | some (.string _) => true
    | some _ => false

/-- An error whose text cannot be read or written. -/
def untold (error : PublishFailure) : Bool := !error.told

theorem trimmed_isOk (value : Option (Js.Value ν)) :
    (trimmed value).isOk = match value with
      | none => true
      | some .null => true
      | some (.string _) => true
      | some _ => false := by
  cases value with
  | none => rfl
  | some value => cases value <;> rfl

/-- The publication is acknowledged, or its failure is settled, unless it cannot be told. -/
theorem obeys_publish (msg : Delivery) (fspId : String) (s : List Delivery × Bool) :
    (publish msg fspId).Obeys (accounts untold) s fun s' r =>
      (r = .ok () ∧ s' = (s.1 ++ [msg], s.2)) ∨ ∃ e, r = .error e ∧ s'.2 = true := by
  unfold publish
  rw [obeys_tryCatch, obeys_bind]
  apply obeys_call_handler
  · exact obeys_settle_message (.inl ⟨rfl, rfl⟩)
  · intro e
    rw [onOk_error, obeys_done, onError_error]
    unfold handlePublishFailure
    cases htold : e.told with
    | false =>
      right
      exact ⟨.plain, rfl, by simp [untold, htold]⟩
    | true =>
      have hkept : (s.1, s.2 || untold e) = s := by simp [untold, htold]
      rw [hkept]
      cases hpermanent : isPermanent e with
      | true => exact obeys_settle_message (.inl ⟨rfl, rfl⟩)
      | false => exact obeys_settle_message (.inl ⟨rfl, rfl⟩)

/-- The body settles a message that is safe, unless a publication throws what cannot be told. -/
theorem obeys_process (msg : Delivery) (s : List Delivery × Bool) :
    (consumer.process msg).Obeys (accounts untold) s (Accounts consumer.isSafe msg s) := by
  have hdef : consumer.isSafe msg = match decode consumer.numbers msg.data with
      | none => false
      | some message => (trimmed (property message "fspId")).isOk := by
    unfold isSafe
    cases decode consumer.numbers msg.data with
    | none => rfl
    | some message => exact (trimmed_isOk _).symm
  unfold process
  cases hdecode : decode consumer.numbers msg.data with
  | none =>
    rw [hdecode] at hdef
    exact .inr ⟨.plain, rfl, .inl hdef⟩
  | some message =>
    rw [hdecode] at hdef
    dsimp only at hdef ⊢
    unfold processMessage
    rw [obeys_bind, obeys_lift]
    cases htrimmed : trimmed (property message "fspId") with
    | error e =>
      rw [htrimmed] at hdef
      exact .inr ⟨e, rfl, .inl hdef⟩
    | ok fspId =>
      rw [htrimmed] at hdef
      rw [onOk_ok]
      cases fspId with
      | none => exact obeys_settle_message (.inl ⟨rfl, hdef, rfl⟩)
      | some fspId =>
        dsimp only
        split
        · exact obeys_settle_message (.inl ⟨rfl, hdef, rfl⟩)
        · refine (obeys_publish msg fspId s).mono ?_
          intro s' r hpublished
          rcases hpublished with ⟨rfl, rfl⟩ | ⟨e, rfl, hthrown⟩
          · left
            exact ⟨rfl, hdef, rfl⟩
          · right
            exact ⟨e, rfl, .inr hthrown⟩

end SigningTenantConsumer
end Trust
