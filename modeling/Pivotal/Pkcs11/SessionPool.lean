import Pivotal.Async.Pool
import Pivotal.Async.Write
import Pivotal.Fspiop.Errors

/-! The sessions on a PKCS#11 device: a pool of them under one login, or one at a time under the
login of a tenant. -/
namespace Pkcs11
open Async (Config System Written)
open Async.Program (lift perform)
open Fspiop (JsError)

structure Settings where
  modulePath : String
  tokenLabel : String
  poolSize : ℕ
  deriving DecidableEq

/-- A crypto user's credential. -/
structure Credential where
  username : String
  password : String
  deriving DecidableEq

/-- `user:password`, or the password alone where there is no user. -/
def pin (username password : String) : String :=
  if (Js.trim username).isEmpty then password else s!"{Js.trim username}:{password}"

/-- The fields of the pool, with the promises that its callers wait for. Those of a session are
numbered in the order they are made, and `handed` are the ones that are resolved. Those of the
queue of tenants are numbered as well, and `tenantLogin` is the last one. -/
structure SessionPool where
  available : List ℕ
  waiting : List ℕ
  nextWaiting : ℕ
  handed : List (ℕ × ℕ)
  started : Bool
  hasStandingLogin : Bool
  slot : Option ℕ
  resolvedLabel : String
  tenantLogin : ℕ
  released : List ℕ
  deriving DecidableEq

namespace SessionPool

/-- Before `start`. The queue of tenants begins with a promise that is resolved. -/
def new : SessionPool := ⟨[], [], 0, [], false, false, none, "", 0, [0]⟩

/-- How a device answers to `start`: the labels of its tokens, how its library loads, how it logs
in, and what each session opened in turn is. -/
structure Device where
  tokens : List String
  load : Except JsError Unit
  login : String → Except JsError Unit
  openSession : ℕ → Except JsError ℕ

def error (message : String) : JsError := .plain ⟨"Error", message, none, none⟩

/-- The slot of the token to work on, and its label. -/
def findSlot (settings : Settings) (tokens : List String) : Except JsError (ℕ × String) :=
  let wanted := Js.trim settings.tokenLabel
  if wanted.isEmpty then
    match tokens with
    | [label] => .ok (0, Js.trim label)
    | _ => .error (error
        (s!"{tokens.length} PKCS#11 tokens are present in {settings.modulePath} and no " ++
        "token label is configured. Set one, or this workload cannot tell which token it " ++
        "was given."))
  else
    match tokens.findIdx? fun label => Js.trim label = wanted with
    | some slot => .ok (slot, wanted)
    | none => .error (error
        (s!"No PKCS#11 token labelled '{wanted}' among {tokens.length} slot(s) in " ++
        s!"{settings.modulePath}."))

/-- The sessions after the first one, as long as they open. -/
def openSessions (device : Device) : ℕ → ℕ → SessionPool → Except JsError Unit × SessionPool
  | 0, _, pool => (.ok (), pool)
  | n + 1, i, pool =>
    match device.openSession i with
    | .error e => (.error e, pool)
    | .ok session =>
      openSessions device n (i + 1) { pool with available := pool.available ++ [session] }

def start (settings : Settings) (device : Device) (credential : Option Credential)
    (pool : SessionPool) : Except JsError Unit × SessionPool :=
  if pool.started then (.ok (), pool)
  else
    match device.load with
    | .error e => (.error e, pool)
    | .ok _ =>
      match findSlot settings device.tokens with
      | .error e => (.error e, pool)
      | .ok (slot, label) =>
        let pool := { pool with slot := some slot, resolvedLabel := label, started := true }
        match credential with
        | none => (.ok (), pool)
        | some credential =>
          match device.openSession 0 with
          | .error e => (.error e, pool)
          | .ok first =>
            match device.login (pin credential.username credential.password) with
            | .error e => (.error e, pool)
            | .ok _ => openSessions device (settings.poolSize - 1) 1
                { pool with hasStandingLogin := true, available := pool.available ++ [first] }

/-- `acquire` up to its `await`: a free session, or a promise of one. -/
def acquire (pool : SessionPool) : (ℕ ⊕ ℕ) × SessionPool :=
  match pool.available.getLast? with
  | some free => (.inl free, { pool with available := pool.available.dropLast })
  | none => (.inr pool.nextWaiting, { pool with
      waiting := pool.waiting ++ [pool.nextWaiting]
      nextWaiting := pool.nextWaiting + 1 })

def release (session : ℕ) (pool : SessionPool) : SessionPool :=
  match pool.waiting with
  | next :: waiting => { pool with waiting := waiting, handed := (next, session) :: pool.handed }
  | [] => { pool with available := pool.available ++ [session] }

/-- The promise of the call before, and the one of this call. -/
def queue (pool : SessionPool) : (ℕ × ℕ) × SessionPool :=
  ((pool.tenantLogin, pool.tenantLogin + 1), { pool with tenantLogin := pool.tenantLogin + 1 })

def releaseTurn (turn : ℕ) (pool : SessionPool) : SessionPool :=
  { pool with released := turn :: pool.released }

end SessionPool

/-- What the calls do at the pool and at the device. `session` and `turn` wait for a promise. -/
inductive PoolOp where
  | status
  | acquire
  | session (promise : ℕ)
  | work (session : ℕ)
  | release (session : ℕ)
  | queue
  | turn (promise : ℕ)
  | openSession
  | login (session : ℕ) (pin : String)
  | logout (session : ℕ)
  | closeSession (session : ℕ)
  | releaseTurn (promise : ℕ)
  deriving DecidableEq

@[reducible] def PoolAnswer : PoolOp → Type
  | .status => Bool × Bool
  | .acquire => ℕ ⊕ ℕ
  | .session _ => ℕ
  | .work _ => Except JsError Unit
  | .release _ => Unit
  | .queue => ℕ × ℕ
  | .turn _ => Unit
  | .openSession => Except JsError ℕ
  | .login _ _ => Written JsError Unit
  | .logout _ => Written JsError Unit
  | .closeSession _ => Written JsError Unit
  | .releaseTurn _ => Unit

abbrev PoolProgram := Async.Program PoolOp PoolAnswer JsError

namespace SessionPool

def notStarted : JsError := error "PKCS#11 session pool was not started."

def noIdentity : JsError := error
  ("Cannot sign: this process has no standing identity on the device. It was started " ++
    "for provisioning, which authenticates as a tenant per operation.")

def standingLogin : JsError := error
  ("Cannot authenticate as a tenant: this process holds a standing login, and a " ++
    "second login would replace it for every session already using it.")

def awaitSession : PoolProgram ℕ := do
  let free ← perform PoolOp.acquire
  match (free : ℕ ⊕ ℕ) with
  | .inl free => return free
  | .inr promise => perform (PoolOp.session promise)

/-- Runs the work on a session that is held for its duration. -/
def withSession : PoolProgram Unit := do
  let status ← perform PoolOp.status
  if !status.1 then
    throw notStarted
  if !status.2 then
    throw noIdentity
  let session ← awaitSession
  (do lift (← perform (PoolOp.work session))).tryFinally (perform (PoolOp.release session))

/-- A failure of the device that is passed over. -/
def ignore (op : PoolOp) : PoolProgram Unit := do let _ ← perform op

/-- Runs the work under the login of a tenant, in a session that is open, and ends the turn. -/
def underLogin (credential : Credential) (session own : ℕ) : PoolProgram Unit :=
  (do
    let login ← perform (PoolOp.login session (pin credential.username credential.password))
    lift (Written.toExcept login)
    lift (← perform (PoolOp.work session))).tryFinally (do
    ignore (.logout session)
    ignore (.closeSession session)
    perform (PoolOp.releaseTurn own))

/-- Waits for the call before, and opens a session. This is not yet inside the `try`. -/
def withTenantLogin (credential : Credential) : PoolProgram Unit := do
  let status ← perform PoolOp.status
  if !status.1 then
    throw notStarted
  if status.2 then
    throw standingLogin
  let turns ← perform PoolOp.queue
  perform (PoolOp.turn turns.1)
  let session ← lift (← perform PoolOp.openSession)
  underLogin credential session turns.2

end SessionPool

inductive PoolJob where
  | withSession
  | withTenantLogin (credential : Credential)
  deriving DecidableEq

def PoolJob.execute : PoolJob → PoolProgram Unit
  | .withSession => SessionPool.withSession
  | .withTenantLogin credential => SessionPool.withTenantLogin credential

/-- The pool beside the device: who is logged in, and the sessions that are open. -/
structure Token where
  pool : SessionPool
  login : Option String
  sessions : List ℕ
  deriving DecidableEq

namespace Token

def withPool (s : Token) (pool : SessionPool) : Token := { s with pool := pool }

def withLogin (s : Token) (login : Option String) : Token := { s with login := login }

/-- A closed session; the last one takes the login with it. -/
def close (s : Token) (session : ℕ) : Token where
  pool := s.pool
  login := if s.sessions.erase session = [] then none else s.login
  sessions := s.sessions.erase session

/-- What one call answers and does. A call of the device may fail, whether it is done or not. Over
another login a login may fail, or replace it. -/
def performs (s : Token) : (op : PoolOp) → PoolAnswer op → Token → Prop
  | .status, a, s' => a = (s.pool.started, s.pool.hasStandingLogin) ∧ s' = s
  | .acquire, a, s' => a = s.pool.acquire.1 ∧ s' = s.withPool s.pool.acquire.2
  | .session promise, a, s' => s.pool.handed.lookup promise = some a ∧ s' = s
  | .work _, _, s' => s' = s
  | .release session, _, s' => s' = s.withPool (s.pool.release session)
  | .queue, a, s' => a = s.pool.queue.1 ∧ s' = s.withPool s.pool.queue.2
  | .turn promise, _, s' => promise ∈ s.pool.released ∧ s' = s
  | .openSession, a, s' =>
    match a with
    | .ok session => session ∉ s.sessions ∧ s' = { s with sessions := session :: s.sessions }
    | .error _ => s' = s
  | .login _ pin, a, s' => s' = a.applies s (s.withLogin (some pin))
  | .logout _, a, s' => s' = a.applies s (s.withLogin none)
  | .closeSession session, a, s' => s' = a.applies s (s.close session)
  | .releaseTurn promise, _, s' => s' = s.withPool (s.pool.releaseTurn promise)

/-- Whether a call can be answered now. -/
def Ready (s : Token) : PoolOp → Prop
  | .session promise => (s.pool.handed.lookup promise).isSome
  | .turn promise => promise ∈ s.pool.released
  | .openSession => 0 ∉ s.sessions
  | _ => True

instance (s : Token) : (op : PoolOp) → Decidable (s.Ready op)
  | .session promise => inferInstanceAs (Decidable ((s.pool.handed.lookup promise).isSome = true))
  | .turn promise => inferInstanceAs (Decidable (promise ∈ s.pool.released))
  | .openSession => inferInstanceAs (Decidable (0 ∉ s.sessions))
  | .status | .acquire | .work _ | .release _ | .queue | .login _ _ | .logout _
  | .closeSession _ | .releaseTurn _ => .isTrue trivial

/-- A device that does what it is asked, or opens no session. -/
def respond (opens : Bool) (s : Token) : (op : PoolOp) → PoolAnswer op × Token
  | .status => ((s.pool.started, s.pool.hasStandingLogin), s)
  | .acquire => (s.pool.acquire.1, s.withPool s.pool.acquire.2)
  | .session promise => ((s.pool.handed.lookup promise).getD 0, s)
  | .work _ => (.ok (), s)
  | .release session => ((), s.withPool (s.pool.release session))
  | .queue => (s.pool.queue.1, s.withPool s.pool.queue.2)
  | .turn _ => ((), s)
  | .openSession =>
    if opens then (.ok 0, { s with sessions := 0 :: s.sessions })
    else (.error (SessionPool.error "CKR_SESSION_COUNT"), s)
  | .login _ pin => (.done (), s.withLogin (some pin))
  | .logout _ => (.done (), s.withLogin none)
  | .closeSession session => (.done (), s.close session)
  | .releaseTurn promise => ((), s.withPool (s.pool.releaseTurn promise))

theorem performs_respond {opens : Bool} {s : Token} {op : PoolOp} (h : s.Ready op) :
    s.performs op (s.respond opens op).1 (s.respond opens op).2 := by
  cases op with
  | session promise =>
    obtain ⟨x, hx⟩ := Option.isSome_iff_exists.mp h
    exact ⟨by simp [respond, hx], rfl⟩
  | turn promise => exact ⟨h, rfl⟩
  | openSession =>
    cases opens with
    | true => exact ⟨h, rfl⟩
    | false => exact rfl
  | status | acquire | queue => exact ⟨rfl, rfl⟩
  | _ => exact rfl

end Token

/-- Any number of calls of either kind, on one token. -/
def sessions : System PoolOp PoolAnswer JsError Unit PoolJob Token where
  entry := PoolJob.execute
  perform := Token.performs
  background _ _ := False

abbrev Sessions (ι : Type) := Config ι PoolOp PoolAnswer JsError Unit PoolJob Token

namespace Sessions

variable {ι : Type}

/-- What a call is waiting for. -/
def awaits (c : Sessions ι) (i : ι) : Option PoolOp := (c.process i).bind fun p => p.program.awaits

def Settled (c : Sessions ι) (i : ι) : Prop :=
  ∃ p, c.process i = some p ∧ p.program.result.isSome

/-- What a call has been answered. -/
def Answered (c : Sessions ι) (i : ι) (op : PoolOp) (a : PoolAnswer op) : Prop :=
  ∃ p, c.process i = some p ∧ ⟨op, a⟩ ∈ p.trace

theorem awaits_eq_some {c : Sessions ι} {i : ι} {op : PoolOp} (h : c.awaits i = some op) :
    ∃ job t resume, c.process i = some ⟨job, t, .call op resume⟩ := by
  obtain ⟨⟨job, t, p⟩, hp, hawaits⟩ := Option.bind_eq_some_iff.mp h
  cases p with
  | done r => cases hawaits
  | call op' resume =>
    cases hawaits
    exact ⟨job, t, resume, hp⟩

variable [DecidableEq ι]

/-- A call is made. -/
def begin (c : Sessions ι) (i : ι) (job : PoolJob) : Sessions ι :=
  c.put i (some ⟨job, [], job.execute⟩)

theorem reaches_begin {c₀ c : Sessions ι} (h : sessions.Reaches System.NoCrash c₀ c) {i : ι}
    (job : PoolJob) (hi : c.process i = none) :
    sessions.Reaches System.NoCrash c₀ (c.begin i job) :=
  h.tail (System.noCrash_start i job) (.start job hi)

/-- A call goes on while it does not have to wait. -/
theorem reaches_advance {c₀ c : Sessions ι} (h : sessions.Reaches System.NoCrash c₀ c) (opens : Bool)
    (i : ι) (n : ℕ) (hready : ∀ p, c.process i = some p →
      p.program.AdvanceAll (Token.respond opens) (fun s e => s.Ready e.op) n c.shared) :
    sessions.Reaches System.NoCrash c₀ (c.advance (Token.respond opens) i n) :=
  h.advanceWhere i (fun _ _ hop => Token.performs_respond hop)
    (fun _ e _ _ => System.noCrash_call i e) n hready

end Sessions

section Sample

def sampleSettings : Settings := ⟨"/usr/lib/softhsm/libsofthsm2.so", "", 1⟩

def sampleDevice : SessionPool.Device where
  tokens := ["pivotal"]
  load := .ok ()
  login := fun _ => .ok ()
  openSession := fun i => .ok i

end Sample

end Pkcs11
