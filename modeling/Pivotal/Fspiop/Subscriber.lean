import Mathlib.Logic.Function.Basic
import Pivotal.Fspiop.Subjects
import Pivotal.Js.Date
import Pivotal.Js.Map

/-! The subscriber that hands each callback to the request waiting for it. Its methods are
synchronous, and one call reads the clock once. -/
namespace Fspiop

/-- What a message decodes to: nothing, the body of a success callback, or an error body. -/
inductive Payload (Body : Type) where
  | null
  | success (body : Body)
  | error (body : ErrorInformationObject)
  deriving DecidableEq

/-- Reading the property throws on `null`; a success body does not have it. -/
def Payload.errorInformation {Body : Type} : Payload Body → Except JsError (Option ErrorInformation)
  | .null => .error .typeError
  | .success _ => .ok none
  | .error body => .ok body.errorInformation

/-- The arguments of `waitFor`. -/
structure WaitFor where
  successSubject : String
  errorSubject : String
  hubErrorSubject : Option String
  timeoutMs : ℕ
  deriving DecidableEq

def WaitFor.subjects (w : WaitFor) : List String :=
  w.successSubject :: w.errorSubject :: w.hubErrorSubject.toList

/-- A promise that `waitFor` returned: whether its timer is live, and how it settled. -/
structure Waiter (Body : Type) extends WaitFor where
  timer : Bool
  outcome : Option (Except JsError (Payload Body))
  deriving DecidableEq

structure RecentEntry (Body : Type) where
  subject : String
  payload : Payload Body
  expiresAt : Js.Date
  deriving DecidableEq

/-- `pending` refers to the waiters by their identity; several keys may refer to one. -/
structure FspiopResponseSubscriber (ι Body : Type) where
  pending : Js.Map String ι
  recent : Js.Map String (RecentEntry Body)
  waiters : ι → Option (Waiter Body)

namespace FspiopResponseSubscriber
open FspiopPubSubSubjects

variable {ι Body : Type}

def defaultTimeoutMs : ℕ := 30000

def recentCacheTtlMs : ℤ := 60000

def recentCacheMaxEntries : ℕ := 2000

def toFspiopException (body : Payload Body) : Except JsError FspiopException := do
  let info ← body.errorInformation
  let code := (info.bind (·.errorCode)).getD .empty
  let desc := (info.bind (·.errorDescription)).getD "Unknown FSPIOP error."
  let errorDef := (FspiopErrors.find code).getD FspiopErrors.genericServerError
  return FspiopException.ofMessage errorDef desc (info.bind (·.extensionList))

def timedOut (w : WaitFor) : JsError :=
  reject FspiopErrors.serverTimedOut ("No FSPIOP callback received on '" ++ w.successSubject ++
    "' within " ++ toString w.timeoutMs ++ "ms.")

/-- A subscriber that has just started. -/
def initial : FspiopResponseSubscriber ι Body := ⟨.empty, .empty, fun _ => none⟩

def evictExpiredRecent (s : FspiopResponseSubscriber ι Body) (now : Js.Date) :
    FspiopResponseSubscriber ι Body :=
  { s with recent := s.recent.filter fun _ entry => now < entry.expiresAt }

def addToRecent (s : FspiopResponseSubscriber ι Body) (subject : String) (payload : Payload Body)
    (now : Js.Date) : FspiopResponseSubscriber ι Body :=
  let s := s.evictExpiredRecent now
  let recent :=
    if recentCacheMaxEntries ≤ s.recent.size then
      match s.recent.firstKey with
      | some oldestKey => s.recent.delete oldestKey
      | none => s.recent
    else s.recent
  { s with recent := recent.set subject ⟨subject, payload, now + recentCacheTtlMs⟩ }

/-- The first candidate that is cached, as the cached key, its entry and the matched subject. -/
def findCandidate (recent : Js.Map String (RecentEntry Body)) (candidates : List String) :
    Option (String × RecentEntry Body × String) :=
  candidates.findSome? fun subject => (recent.get subject).map fun entry => (subject, entry, subject)

/-- The first cached subject that is a candidate when addressed to any payee. -/
def findAnyPayee (recent : Js.Map String (RecentEntry Body)) (candidates : List String) :
    Option (String × RecentEntry Body × String) :=
  recent.entries.findSome? fun e => match Parties.toAnyPayeeSubject e.1 with
    | some anyPayeeSubject =>
      if anyPayeeSubject ∈ candidates then some (e.1, e.2, anyPayeeSubject) else none
    | none => none

def takeFromRecent (s : FspiopResponseSubscriber ι Body) (candidates : List String)
    (now : Js.Date) : Option (RecentEntry Body × String) × FspiopResponseSubscriber ι Body :=
  let s := s.evictExpiredRecent now
  match findCandidate s.recent candidates with
  | some (subject, entry, matchedSubject) =>
    (some (entry, matchedSubject), { s with recent := s.recent.delete subject })
  | none =>
    match findAnyPayee s.recent candidates with
    | some (subject, entry, matchedSubject) =>
      (some (entry, matchedSubject), { s with recent := s.recent.delete subject })
    | none => (none, s)

/-- What a cached reply settles a new waiter with. An error body that cannot be read makes the
call itself throw, which its caller sees as a rejection. -/
def recentOutcome (args : WaitFor) (matchedSubject : String) (payload : Payload Body) :
    Except JsError (Payload Body) :=
  if matchedSubject = args.successSubject then .ok payload
  else match toFspiopException payload with
    | .ok e => .error (.fspiop e)
    | .error e => .error e

variable [DecidableEq ι]

def setWaiter (s : FspiopResponseSubscriber ι Body) (id : ι) (w : Waiter Body) :
    FspiopResponseSubscriber ι Body :=
  { s with waiters := Function.update s.waiters id (some w) }

/-- A promise settles once. -/
def settle (s : FspiopResponseSubscriber ι Body) (id : ι)
    (result : Except JsError (Payload Body)) : FspiopResponseSubscriber ι Body :=
  match s.waiters id with
  | some w => s.setWaiter id { w with outcome := w.outcome <|> some result }
  | none => s

/-- Remove whatever waiter is registered under the subject, and clear its timer. -/
def cancel (s : FspiopResponseSubscriber ι Body) (successSubject : String) :
    FspiopResponseSubscriber ι Body :=
  match s.pending.get successSubject with
  | none => s
  | some id =>
    match s.waiters id with
    | none => s
    | some entry =>
      { s.setWaiter id { entry with timer := false } with
        pending := entry.subjects.foldl Js.Map.delete s.pending }

def waitFor (s : FspiopResponseSubscriber ι Body) (id : ι) (args : WaitFor) (now : Js.Date) :
    FspiopResponseSubscriber ι Body :=
  match s.takeFromRecent args.subjects now with
  | (some (entry, matchedSubject), s) =>
    let outcome := recentOutcome args matchedSubject entry.payload
    s.setWaiter id { args with timer := false, outcome := some outcome }
  | (none, s) =>
    { s.setWaiter id { args with timer := true, outcome := none } with
      pending := args.subjects.foldl (fun m subject => m.set subject id) s.pending }

/-- The subject under which a message is looked up: its own, or the one of any payee. -/
def matchedSubject (s : FspiopResponseSubscriber ι Body) (subject : String) : String :=
  match s.pending.get subject with
  | some _ => subject
  | none => (Parties.toAnyPayeeSubject subject).getD subject

/-- What is thrown in here is logged by the loop that calls it, and the message is done. -/
def dispatch (s : FspiopResponseSubscriber ι Body) (subject : String) (payload : Payload Body)
    (now : Js.Date) : FspiopResponseSubscriber ι Body :=
  let matchedSubject := s.matchedSubject subject
  match s.pending.get matchedSubject with
  | none => s.addToRecent subject payload now
  | some id =>
    match s.waiters id with
    | none => s
    | some entry =>
      let isSuccess := matchedSubject = entry.successSubject
      let s := s.cancel entry.successSubject
      if isSuccess then s.settle id (.ok payload)
      else match toFspiopException payload with
        | .ok e => s.settle id (.error (.fspiop e))
        | .error _ => s

/-- The callback of a waiter's timer, which has fired and is live no longer. -/
def fire (s : FspiopResponseSubscriber ι Body) (id : ι) (w : Waiter Body) :
    FspiopResponseSubscriber ι Body :=
  ((s.setWaiter id { w with timer := false }).cancel w.successSubject).settle id
    (.error (timedOut w.toWaitFor))

end FspiopResponseSubscriber
end Fspiop
