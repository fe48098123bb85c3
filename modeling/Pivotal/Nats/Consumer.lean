import Pivotal.Async.Program
import Pivotal.Js.Buffer
import Pivotal.Js.RoundTrip

/-! The loop of a consumer over the messages that are delivered to it, and the values of JSON that
the messages are. A loop is over when its body throws. -/
namespace Nats
open Async Async.Program

/-- A message of a stream. The first delivery of it has the count 1. -/
structure Delivery where
  data : Js.Buffer
  redeliveryCount : ℕ
  deriving DecidableEq

inductive Settlement where
  | ack
  | nak (delayMs : Option ℕ)
  | term
  deriving DecidableEq

/-- The calls of a consumer: those to its handlers, and the settlements of its messages. -/
inductive ConsumerOp (κ : Type) where
  | call (request : κ)
  | settle (msg : Delivery) (settlement : Settlement)

/-- A handler may throw. -/
@[reducible] def ConsumerAnswer (κ ε : Type) : ConsumerOp κ → Type
  | .call _ => Except ε Unit
  | .settle _ _ => Unit

abbrev ConsumerProgram (κ ε α : Type) := Async.Program (ConsumerOp κ) (ConsumerAnswer κ ε) ε α

abbrev ConsumerEvent (κ ε : Type) := Event (ConsumerOp κ) (ConsumerAnswer κ ε)

section Loop

variable {κ ε : Type}

/-- Await a handler. -/
def call (request : κ) : ConsumerProgram κ ε Unit := do
  lift (← perform (.call request))

def settle (msg : Delivery) (settlement : Settlement) : ConsumerProgram κ ε Unit :=
  perform (ConsumerOp.settle msg settlement)

/-- `for await (const msg of messages)` -/
def consume (body : Delivery → ConsumerProgram κ ε Unit) :
    List Delivery → ConsumerProgram κ ε Unit
  | [] => pure ()
  | msg :: messages => do
    body msg
    consume body messages

/-- The message that is settled. -/
def settled? : ConsumerEvent κ ε → Option Delivery
  | ⟨.settle msg _, _⟩ => some msg
  | ⟨.call _, _⟩ => none

/-- A handler throws such an error. -/
def throws (p : ε → Bool) : ConsumerEvent κ ε → Bool
  | ⟨.call _, .error e⟩ => p e
  | ⟨.call _, .ok _⟩ => false
  | ⟨.settle _ _, _⟩ => false

/-- The loop has gone through all of the messages, and each was settled once and in its turn. -/
def Survives (messages : List Delivery) (t : List (ConsumerEvent κ ε)) (r : Except ε Unit) : Prop :=
  r = .ok () ∧ t.filterMap settled? = messages

/-- Records what was settled, and whether a handler has thrown an error with the property. -/
def accounts (p : ε → Bool) :
    Monitor (ConsumerOp κ) (ConsumerAnswer κ ε) (List Delivery × Bool) where
  next s op a := (s.1 ++ (settled? ⟨op, a⟩).toList, s.2 || throws p ⟨op, a⟩)
  allows _ _ := True

theorem accounts_after (p : ε → Bool) (s : List Delivery × Bool) (t : List (ConsumerEvent κ ε)) :
    (accounts p).after s t = (s.1 ++ t.filterMap settled?, s.2 || t.any (throws p)) := by
  induction t generalizing s with
  | nil => simp
  | cons e t ih =>
    rw [Monitor.after_cons, ih]
    cases he : settled? e <;> simp [accounts, he, Bool.or_assoc]

variable {p : ε → Bool} {s : List Delivery × Bool}

/-- What the body makes of a message: it settles it, unless it throws, which it does for a message
that is not safe and for an error with the property. -/
def Accounts (safe : Delivery → Bool) (msg : Delivery) (s s' : List Delivery × Bool)
    (r : Except ε Unit) : Prop :=
  (r = .ok () ∧ safe msg = true ∧ s' = (s.1 ++ [msg], s.2)) ∨
    ∃ e, r = .error e ∧ (safe msg = false ∨ s'.2 = true)

theorem obeys_call_handler {request : κ} {Q : List Delivery × Bool → Except ε Unit → Prop}
    (hok : Q s (.ok ())) (herror : ∀ e, Q (s.1, s.2 || p e) (.error e)) :
    (call request).Obeys (accounts p) s Q := by
  refine ⟨trivial, fun a => ?_⟩
  cases a with
  | ok u =>
    show Q (s.1 ++ [], s.2 || false) (.ok ())
    rw [List.append_nil, Bool.or_false]
    exact hok
  | error e =>
    show Q (s.1 ++ [], s.2 || p e) (.error e)
    rw [List.append_nil]
    exact herror e

theorem obeys_settle_message {msg : Delivery} {settlement : Settlement}
    {Q : List Delivery × Bool → Except ε Unit → Prop} (h : Q (s.1 ++ [msg], s.2) (.ok ())) :
    (settle msg settlement : ConsumerProgram κ ε Unit).Obeys (accounts p) s Q := by
  refine obeys_perform.mpr ⟨trivial, fun a => ?_⟩
  show Q (s.1 ++ [msg], s.2 || false) (.ok ())
  rw [Bool.or_false]
  exact h

/-- What the loop makes of the messages, by what the body makes of each. -/
theorem obeys_consume {body : Delivery → ConsumerProgram κ ε Unit} {safe : Delivery → Bool}
    (hbody : ∀ msg s, (body msg).Obeys (accounts p) s (Accounts safe msg s))
    (messages : List Delivery) (s : List Delivery × Bool) :
    (consume body messages).Obeys (accounts p) s fun s' r =>
      (r = .ok () ∧ messages.all safe = true ∧ s' = (s.1 ++ messages, s.2)) ∨
        ∃ e, r = .error e ∧ (messages.all safe = false ∨ s'.2 = true) := by
  induction messages generalizing s with
  | nil =>
    left
    exact ⟨rfl, rfl, by simp⟩
  | cons msg messages ih =>
    unfold consume
    rw [obeys_bind]
    refine (hbody msg s).mono ?_
    rintro s' r (⟨rfl, hsafe, rfl⟩ | ⟨e, rfl, hcause⟩)
    · refine (ih (s.1 ++ [msg], s.2)).mono ?_
      rintro s'' r (⟨rfl, hall, rfl⟩ | ⟨e, rfl, hcause⟩)
      · left
        exact ⟨rfl, by simp [hsafe, hall], by simp⟩
      · right
        refine ⟨e, rfl, hcause.imp_left fun hall => ?_⟩
        simp [hsafe, hall]
    · right
      refine ⟨e, rfl, hcause.imp_left fun hsafe => ?_⟩
      simp [hsafe]

/-- The loop survives exactly the messages that are safe, with no error of the property thrown. -/
theorem survives_iff {body : Delivery → ConsumerProgram κ ε Unit} {safe : Delivery → Bool}
    (hbody : ∀ msg s, (body msg).Obeys (accounts p) s (Accounts safe msg s))
    {messages : List Delivery} {t : List (ConsumerEvent κ ε)} {r : Except ε Unit}
    (ht : (consume body messages).Settles t r) :
    Survives messages t r ↔ messages.all safe = true ∧ t.any (throws p) = false := by
  have haccounts := (obeys_consume hbody messages ([], false)).settles ht
  rw [accounts_after] at haccounts
  simp only [List.nil_append, Bool.false_or, Prod.mk.injEq] at haccounts
  unfold Survives
  rcases haccounts with ⟨rfl, hall, hsettled, hthrows⟩ | ⟨e, rfl, hcause⟩
  · simp [hall, hsettled, hthrows]
  · constructor
    · rintro ⟨hok, -⟩
      cases hok
    · rintro ⟨hall, hthrows⟩
      rcases hcause with hunsafe | hthrown
      · rw [hall] at hunsafe
        cases hunsafe
      · rw [hthrows] at hthrown
        cases hthrown

end Loop

section Codec

variable {ν : Type}

/-- The text of bytes, less the mark of their order. -/
def textDecode (data : Js.Buffer) : String :=
  match data.toUtf8.toList with
  | '\uFEFF' :: cs => String.ofList cs
  | cs => String.ofList cs

/-- The JSON codec, with nothing where it throws. -/
def decode (numbers : Js.Numbers ν) (data : Js.Buffer) : Option (Js.Value ν) :=
  Js.Value.parse numbers (textDecode data)

/-- A property of a value that is not null; only an object has properties of its own. -/
def property (value : Js.Value ν) (name : String) : Option (Js.Value ν) :=
  match value with
  | .object fields => (fields.find? fun field => field.1 = Js.units name).map Prod.snd
  | _ => none

mutual

/-- `String(value)` returns: it does not for an object whose `toString` is replaced by a value. -/
def hasText : Js.Value ν → Bool
  | .object fields => fields.all fun field => field.1 ≠ Js.units "toString"
  | .array items => haveText items
  | _ => true

def haveText : List (Js.Value ν) → Bool
  | [] => true
  | item :: items => hasText item && haveText items

end

@[simp] theorem hasText_string (s : Js.Units) : hasText (.string s : Js.Value ν) = true := by
  simp [hasText]

end Codec
end Nats
