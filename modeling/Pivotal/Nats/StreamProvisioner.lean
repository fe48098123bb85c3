import Mathlib.Data.List.Infix
import Pivotal.Async.Pool
import Pivotal.Js.Text
import Pivotal.Nats.Subject

/-! The streams of a JetStream account, and a caller that looks up the stream of a subject, creates
one where there is none, and brings the limits of the stream of its own name in line. -/
namespace Nats
open Async.Program (perform)

inductive RetentionPolicy where
  | limits | interest | workqueue
  deriving DecidableEq

inductive DiscardPolicy where
  | old | new
  deriving DecidableEq

inductive StorageType where
  | file | memory
  deriving DecidableEq

/-- What may be changed of a stream. -/
structure Limits where
  maxAge : ℤ
  maxBytes : ℤ
  discard : DiscardPolicy
  deriving DecidableEq

structure StreamConfig where
  name : String
  subjects : List String
  retention : RetentionPolicy
  storage : StorageType
  limits : Limits
  deriving DecidableEq

def StreamConfig.owns (config : StreamConfig) (subject : String) : Bool :=
  config.subjects.any fun filter => subjectMatches filter subject

/-- An error of the client, known by its message. -/
structure NatsError where
  message : Option String
  deriving DecidableEq

namespace StreamProvisioner

def unlimited : ℤ := -1

def nanosPerMs : ℤ := 1000000

inductive EnforceOutcome where
  | updated | inSync | absent | failed
  deriving DecidableEq

def messageIncludes (error : NatsError) (needle : String) : Bool :=
  error.message.any fun message => decide (needle.toList <:+: (Js.toLowerCase message).toList)

def isNoStreamMatchesSubjectError (error : NatsError) : Bool :=
  messageIncludes error "no stream matches subject"

def isStreamAlreadyExistsError (error : NatsError) : Bool :=
  messageIncludes error "stream name already in use"

def isStreamNotFoundError (error : NatsError) : Bool := messageIncludes error "stream not found"

structure StreamLimits where
  name : String
  streamSubject : String
  maxAgeMs : ℤ
  maxBytes : Option ℤ
  deriving DecidableEq

def toNanos (ms : ℤ) : ℤ := ms * nanosPerMs

def StreamLimits.desired (limits : StreamLimits) : Limits :=
  ⟨toNanos limits.maxAgeMs, limits.maxBytes.getD unlimited, .old⟩

/-- The requests of the caller, and the arrival of their answers. -/
inductive Op where
  | find (subject : String)
  | info (name : String)
  | update (name : String) (limits : Limits)
  | add (config : StreamConfig)
  | arrive
  deriving DecidableEq

@[reducible] def Answer : Op → Type
  | .find _ => Except NatsError String
  | .info _ => Except NatsError StreamConfig
  | .update _ _ => Except NatsError Unit
  | .add _ => Except NatsError Unit
  | .arrive => Unit

abbrev Calls := Async.Program Op Answer NatsError

/-- What the server answers takes its time to arrive. -/
def request (op : Op) : Calls (Answer op) := do
  let answer ← perform op
  perform Op.arrive
  return answer

def enforceStreamLimits (limits : StreamLimits) : Calls EnforceOutcome := do
  match ← request (.info limits.name) with
  | .error error => return if isStreamNotFoundError error then .absent else .failed
  | .ok current =>
    if current.limits = limits.desired then
      return .inSync
    match ← request (.update limits.name limits.desired) with
    | .ok _ => return .updated
    | .error _ => return .failed

/-- The stream of the subject after it has been created, here or by another. -/
def reresolve (findSubject : String) (limits : StreamLimits) : Calls String := do
  match ← request (.find findSubject) with
  | .ok resolved =>
    let _ ← enforceStreamLimits limits
    return resolved
  | .error _ => return limits.name

def resolveStreamWithLimits (findSubject : String) (limits : StreamLimits) : Calls String := do
  match ← request (.find findSubject) with
  | .ok existing =>
    let _ ← enforceStreamLimits limits
    return existing
  | .error error =>
    if !isNoStreamMatchesSubjectError error then
      throw error
    match ← request (.add ⟨limits.name, [limits.streamSubject], .limits, .file, limits.desired⟩) with
    | .ok _ => reresolve findSubject limits
    | .error error =>
      if !isStreamAlreadyExistsError error then
        throw error
      reresolve findSubject limits

structure Resolve where
  findSubject : String
  limits : StreamLimits
  deriving DecidableEq

end StreamProvisioner

open StreamProvisioner

/-- The streams of an account. -/
abbrev Streams := List StreamConfig

namespace Streams

/-- No two streams have one name, or own one subject. -/
def Separate (s : Streams) : Prop := s.Pairwise fun a b =>
  a.name ≠ b.name ∧ ∀ subject, ¬ (a.owns subject = true ∧ b.owns subject = true)

def owners (s : Streams) (subject : String) : Streams := s.filter fun config => config.owns subject

/-- Other limits for the stream of a name. -/
def setLimits (s : Streams) (name : String) (limits : Limits) : Streams :=
  s.map fun config => if config.name = name then { config with limits := limits } else config

/-- A stream may be added whose name is free, and that owns no subject of another. -/
def Adds (s : Streams) (config : StreamConfig) (s' : Streams) : Prop :=
  s' = config :: s ∧ Separate s'

/-- What a request is answered and does. The messages that the caller goes by are given only where
they are true, and any request may fail with another one, before or after it is done. A stream that
exists as it is to be added is added again. -/
def Performs (s : Streams) : (op : Op) → Answer op → Streams → Prop
  | .find subject, .ok name, s' => (∃ config, s.owners subject = [config] ∧ config.name = name) ∧ s' = s
  | .find subject, .error error, s' =>
    (isNoStreamMatchesSubjectError error = true → (s.owners subject).length ≠ 1) ∧ s' = s
  | .info name, .ok config, s' => config ∈ s ∧ config.name = name ∧ s' = s
  | .info name, .error error, s' =>
    (isStreamNotFoundError error = true → ∀ config ∈ s, config.name ≠ name) ∧ s' = s
  | .update name limits, .ok _, s' => (∃ config ∈ s, config.name = name) ∧
    s' = s.setLimits name limits
  | .update name limits, .error _, s' => s' = s ∨ s' = s.setLimits name limits
  | .add config, .ok _, s' => s.Adds config s' ∨ config ∈ s ∧ s' = s
  | .add config, .error error, s' =>
    isStreamAlreadyExistsError error = true ∧ (∃ other ∈ s, other.name = config.name) ∧ s' = s ∨
      isStreamAlreadyExistsError error = false ∧ (s' = s ∨ s.Adds config s')
  | .arrive, _, s' => s' = s

end Streams

/-- Any number of callers, and others that create streams of their own. -/
def resolvers : Async.System Op Answer NatsError String Resolve Streams where
  entry call := resolveStreamWithLimits call.findSubject call.limits
  perform := Streams.Performs
  background s s' := ∃ config, s.Adds config s'

end Nats
