import Pivotal.Async.Interpret
import Pivotal.Vault.VaultClient

/-! The token that all calls of one client share: how it is checked, replaced and dropped between
what the calls await, and which token every request carries. -/
namespace Vault
open Async (Written)
open Async.Program (comesTo_call comesTo_done comesTo_perform lift mapError_bind perform ComesTo)
open Fspiop (JsError)

inductive VaultAuthMethod where
  | kubernetes | token
  deriving DecidableEq

namespace Tokens

structure Settings where
  role : String
  kvMount : String
  authMethod : VaultAuthMethod
  /-- Only read when tokens are supplied. -/
  token : String

structure SignRequest where
  mount : String
  role : String
  csrPem : String
  commonName : String
  ttl : Option String
  deriving DecidableEq

structure SignedCertificate where
  certificatePem : String
  caChainPem : Option String
  serialNumber : String
  expiration : Option ℤ
  deriving DecidableEq

/-- The requests that carry a token. -/
inductive Request where
  | mounts
  | get (path : String)
  | post (path : String) (data : Fields)
  | sign (request : SignRequest)
  deriving DecidableEq

structure MountReply where
  status : ℕ
  version : Option String

structure SignReply where
  status : ℕ
  certificate : Option String
  caChain : Option (List String)
  issuingCa : Option String
  serialNumber : Option String
  expiration : Option ℤ

@[reducible] def Reply : Request → Type
  | .mounts => MountReply
  | .get _ => Response
  | .post _ _ => Response
  | .sign _ => SignReply

def status : {request : Request} → Reply request → ℕ
  | .mounts, reply => reply.status
  | .get _, reply => reply.status
  | .post _ _, reply => reply.status
  | .sign _, reply => reply.status

structure LoginReply where
  clientToken : Option String
  leaseDuration : Option ℤ
  deriving DecidableEq

/-- What Vault answers to a request that reaches it, and the place of the request in its audit
log. -/
structure Audited (α : Type) where
  entry : ℕ
  reply : α

/-- How `currentToken` goes on: with the token, or after a login, which is over at once with a
supplied token. -/
inductive Checked where
  | usable (token : String)
  | supplied
  | login
  deriving DecidableEq

/-- What a call does between two awaits, and what it awaits. `check` is the start of `currentToken`,
after the token has been dropped where Vault has rejected it; `resume` is its end, after a login;
`store` is the end of a login. -/
inductive Op where
  | check (rejected : Bool)
  | beginLogin
  | readServiceAccountToken
  | postLogin (jwt : String)
  | store (token : String) (leaseDuration : Option ℤ)
  | resume
  | send (request : Request) (token : Option String)
  | invalidateToken
  | kvVersionAccepted
  | acceptKvVersion
  deriving DecidableEq

@[reducible] def Answer : Op → Type
  | .check _ => Checked
  | .beginLogin => Option String
  | .readServiceAccountToken => Except JsError String
  | .postLogin _ => Except JsError LoginReply
  | .store _ _ => Unit
  | .resume => Option String
  | .send request _ => Except JsError (Audited (Reply request))
  | .invalidateToken => Unit
  | .kvVersionAccepted => Bool
  | .acceptKvVersion => Unit

/-- What a call may throw. -/
inductive Thrown where
  | refused (message : String)
  | other (e : JsError)
  deriving DecidableEq

abbrev Calls := Async.Program Op Answer Thrown

/-- Await a call that may fail. -/
def ask {α : Type} (answer : Except JsError α) : Calls α := .lift (answer.mapError .other)

/-- What a login does once it has to ask Vault. -/
def finishLogin : Calls String := do
  let jwt ← ask (← perform Op.readServiceAccountToken)
  let reply ← ask (← perform (Op.postLogin jwt))
  match reply.clientToken with
  | none => throw (.other (VaultClient.error "Vault login returned no client_token."))
  | some token =>
    if token = "" then
      throw (.other (VaultClient.error "Vault login returned no client_token."))
    perform (Op.store token reply.leaseDuration)
    return token

def login : Calls String := do
  match ← perform Op.beginLogin with
  | some token => return token
  | none => finishLogin

def currentToken (rejected : Bool) : Calls (Option String) := do
  match ← perform (Op.check rejected) with
  | .usable token => return some token
  | .supplied => perform Op.resume
  | .login =>
    let _ ← finishLogin
    perform Op.resume

def send (request : Request) (token : Option String) : Calls (Reply request) := do
  let audited ← ask (← perform (Op.send request token))
  return audited.reply

variable (settings : Settings)

/-- A request that is sent again, once, when its token is rejected. -/
def authenticated (describe : String) (request : Request) : Calls (Reply request) := do
  let first ← send request (← currentToken false)
  if !VaultClient.isTokenRejection (status first) then
    return first
  let second ← send request (← currentToken true)
  if VaultClient.isTokenRejection (status second) then
    throw (.refused
      (s!"{describe} was refused by Vault with status {status second} using a freshly " ++
      "issued token. This is the role's policy, not an expired credential — check that " ++
      s!"'{settings.role}' grants the path."))
  return second

/-- The `try` block of `mountVersion`. -/
def readMountVersion : Calls (Option String) := do
  let response ← send .mounts (← currentToken false)
  return if response.status ≥ 200 ∧ response.status < 300 then response.version else none

/-- What the mount table says of the mount, if it can be read. -/
def mountVersion : Calls (Option String) := tryCatch readMountVersion fun _ => return none

def assertKvVersionTwo : Calls Unit := do
  if ← perform Op.kvVersionAccepted then
    return
  let version ← mountVersion
  if version.any (· ≠ "2") then
    throw (.other (VaultClient.error
      ("Vault mount '" ++ settings.kvMount ++ "' is KV version " ++ version.getD "" ++
      "; this client " ++
      "speaks version 2. On a version 1 mount every read and write lands at a literal " ++
      "'data/' path that no vault kv command addresses, so keys written by hand and " ++
      "keys written by this service never meet. Mount a KV v2 engine and point " ++
      "VAULT_KV_MOUNT at it.")))
  perform Op.acceptKvVersion

def readKvField (path field : String) : Calls (Option String) := do
  assertKvVersionTwo settings
  let response ← authenticated settings s!"Reading '{field}' from Vault path '{path}'" (.get path)
  if response.status = 404 then
    return none
  return (response.data.bind fun fields => fields.get field).filter (· ≠ "")

def readKv (path : String) : Calls Fields := do
  let response ← authenticated settings s!"Reading Vault path '{path}'" (.get path)
  if response.status = 404 then
    return Js.Map.empty
  return response.data.getD Js.Map.empty

def writeKvField (command : WriteKvField) : Calls Unit := do
  assertKvVersionTwo settings
  let existing ← readKv settings command.path
  let response ← authenticated settings
    s!"Writing '{command.field}' to Vault path '{command.path}'"
    (.post command.path (existing.set command.field command.value))
  if response.status ≥ 400 then
    throw (.other (VaultClient.error
      (s!"Writing '{command.field}' to Vault path '{command.path}' failed with " ++
      s!"status {response.status}.")))

def signCertificate (request : SignRequest) : Calls SignedCertificate := do
  let response ← authenticated settings
    (s!"Signing a certificate for '{request.commonName}' on " ++
      s!"'{request.mount}/sign/{request.role}'") (.sign request)
  if response.status = 404 then
    throw (.other (VaultClient.error
      s!"Vault has no PKI role '{request.role}' on mount '{request.mount}'."))
  match response.certificate.filter (· ≠ "") with
  | none =>
    throw (.other (VaultClient.error "Vault signed the request but returned no certificate."))
  | some certificate =>
    let chain := response.caChain.getD response.issuingCa.toList
    return ⟨certificate, if chain.isEmpty then none else some ("\n".intercalate chain),
      response.serialNumber.getD "", response.expiration.map (· * 1000)⟩

/-- The calls of the client that touch its token. -/
inductive VaultCall where
  | readKvField (path field : String)
  | writeKvField (command : WriteKvField)
  | signCertificate (request : SignRequest)
  | login
  | invalidateToken
  deriving DecidableEq

def VaultCall.entry : VaultCall → Calls Unit
  | .readKvField path field => do
    let _ ← Tokens.readKvField settings path field
  | .writeKvField command => Tokens.writeKvField settings command
  | .signCertificate request => do
    let _ ← Tokens.signCertificate settings request
  | .login => do
    let _ ← Tokens.login
  | .invalidateToken => perform Op.invalidateToken

/-- What all calls of a client share. -/
structure Client where
  token : Option String
  tokenExpiresAt : Option ℤ
  kvVersionAccepted : Bool
  deriving DecidableEq

def renewalMarginMs : ℤ := 60000

def Client.spent (client : Client) (now : ℤ) : Bool :=
  client.tokenExpiresAt.any fun expiry => now ≥ expiry - renewalMarginMs

inductive AuditEntry where
  | issued (token : String)
  | answered (token : Option String) (status : ℕ)
  deriving DecidableEq

/-- The client, the clock and Vault's audit log, with the tokens that completed logins have returned
and those that authenticated requests were sent with. -/
structure World where
  client : Client
  now : ℤ
  audit : List AuditEntry
  returned : List String
  sent : List (Option String)
  deriving DecidableEq

namespace World

def initial (now : ℤ) : World := ⟨⟨none, none, false⟩, now, [], [], []⟩

def invalidateToken (w : World) : World :=
  { w with client := { w.client with token := none, tokenExpiresAt := none } }

/-- A login returns a token, which the client keeps. -/
def complete (w : World) (token : String) (tokenExpiresAt : Option ℤ) : World :=
  { w with
    client := { w.client with token := some token, tokenExpiresAt := tokenExpiresAt }
    returned := token :: w.returned }

def expiry (w : World) : Option ℤ → ℤ
  | some leaseSeconds => if leaseSeconds > 0 then w.now + leaseSeconds * 1000
    else w.now + renewalMarginMs
  | none => w.now + renewalMarginMs

/-- The start of a login. -/
def beginLogin (w : World) : Option String × World :=
  match settings.authMethod with
  | .token => (some settings.token, w.complete settings.token none)
  | .kubernetes => (none, w)

def renew (w : World) : Checked × World :=
  match w.beginLogin settings with
  | (some _, w') => (.supplied, w')
  | (none, w') => (.login, w')

def check (w : World) (rejected : Bool) : Checked × World :=
  let w := if rejected then w.invalidateToken else w
  match w.client.token with
  | none => w.renew settings
  | some token => if w.client.spent w.now then w.renew settings else (.usable token, w)

def log (w : World) (entry : AuditEntry) : World := { w with audit := w.audit ++ [entry] }

/-- What a login request leaves in the audit log. -/
def logLogin (w : World) : Option String → World
  | some token => w.log (.issued token)
  | none => w

def logSend (w : World) (token : Option String) : World := { w with sent := token :: w.sent }

/-- What one call answers and does. Vault may issue any token and answer any request in any way; a
request may fail, before or after Vault has seen it. -/
def Performs (w : World) : (op : Op) → Answer op → World → Prop
  | .check rejected, checked, w' => (checked, w') = w.check settings rejected
  | .beginLogin, token, w' => (token, w') = w.beginLogin settings
  | .readServiceAccountToken, _, w' => w' = w
  | .postLogin _, .ok reply, w' => w' = w.logLogin reply.clientToken
  | .postLogin _, .error _, w' => ∃ token, w' = w.logLogin token
  | .store token leaseDuration, _, w' => w' = w.complete token (w.expiry leaseDuration)
  | .resume, token, w' => token = w.client.token ∧ w' = w
  | .send _ token, .ok audited, w' => audited.entry = w.audit.length ∧
    w' = (w.logSend token).log (.answered token (status audited.reply))
  | .send _ token, .error _, w' => w' = w.logSend token ∨
    ∃ status, w' = (w.logSend token).log (.answered token status)
  | .invalidateToken, _, w' => w' = w.invalidateToken
  | .kvVersionAccepted, accepted, w' => accepted = w.client.kvVersionAccepted ∧ w' = w
  | .acceptKvVersion, _, w' => w' = { w with client := { w.client with kvVersionAccepted := true } }

/-- The clock may show anything later. -/
def Passes (w w' : World) : Prop := ∃ now, w' = { w with now := now }

end World

/-- Any number of calls of one client. -/
def client : Async.System Op Answer Thrown Unit VaultCall World where
  entry := VaultCall.entry settings
  perform := World.Performs settings
  background := World.Passes

/-! A write, with what it does with the token. -/

/-- What a caller sees of what is thrown. -/
def Thrown.toError : Thrown → JsError
  | .refused message => VaultClient.error message
  | .other e => e

/-- A request that fails may have been carried out. -/
def toWritten : Except JsError Response → Written JsError Response
  | .ok response => .done response
  | .error e => .lost e

/-- The token that the next request carries, and whether Vault has rejected the one before. -/
structure Held where
  token : Option String
  rejected : Bool

/-- What a write does at the client and at Vault, by what it does with the token. -/
def carried (held : Held) : (op : VaultOp) → Async.Program Op Answer JsError (VaultAnswer op × Held)
  | .kvVersionAccepted => .call .kvVersionAccepted fun a => .done (.ok (a, held))
  | .mountVersion => (readMountVersion.mapError Thrown.toError).settle fun r =>
    .done (.ok (r.toOption.join, held))
  | .acceptKvVersion => .call .acceptKvVersion fun a => .done (.ok (a, held))
  | .currentToken => ((currentToken held.rejected).mapError Thrown.toError).settle fun r =>
    .done (.ok (r.map fun _ => (), ⟨r.toOption.join, false⟩))
  | .invalidateToken => .done (.ok ((), ⟨held.token, true⟩))
  | .get path => ((send (.get path) held.token).mapError Thrown.toError).settle fun r =>
    .done (.ok (r, held))
  | .post path data => ((send (.post path data) held.token).mapError Thrown.toError).settle fun r =>
    .done (.ok (toWritten r, held))

/-- Vault has not rejected the token since it was checked. -/
def Held.Fresh (held : Held) : Prop := held.rejected = false

/-- A request, by what is sent with the token that is held. -/
def Sends (send : VaultProgram Response)
    (q : Option String → Async.Program Op Answer JsError Response) : Prop :=
  ∀ (β : Type) (f : Except JsError Response → VaultProgram β) (held : Held),
    (send.settle f).interpret carried held =
      (q held.token).settle fun r => (f r).interpret carried held

theorem sends_get (path : String) : Sends (VaultClient.sendGet path) fun token =>
    (send (.get path) token).mapError Thrown.toError := by
  intro β f held
  change ((_ : Async.Program Op Answer JsError Response).settle _).settle _ = _
  rw [Async.Program.settle_settle]
  rfl

theorem sends_post (path : String) (data : Fields) : Sends (VaultClient.sendPost path data)
    fun token => (send (.post path data) token).mapError Thrown.toError := by
  intro β f held
  change ((_ : Async.Program Op Answer JsError Response).settle _).settle _ = _
  rw [Async.Program.settle_settle]
  congr 1
  funext r
  cases r <;> rfl

variable {p : VaultProgram Response}
  {q : Option String → Async.Program Op Answer JsError Response}

theorem Sends.after (h : Sends p q) (held : Held) {β : Type}
    {f : Except JsError Response → VaultProgram β}
    {g : Except JsError Response → Async.Program Op Answer JsError β}
    (hfg : ∀ r held, held.Fresh → (f r).interpret carried held = g r) :
    (((do lift (← perform .currentToken); p) : VaultProgram Response).settle f).interpret
      carried held = ((currentToken held.rejected).mapError Thrown.toError >>= q).settle g := by
  change ((_ : Async.Program Op Answer JsError _).settle _).settle _ = _
  rw [Async.Program.settle_settle]
  change _ = ((_ : Async.Program Op Answer JsError _).settle _).settle _
  rw [Async.Program.settle_settle]
  congr 1
  funext r
  rcases r with e | token
  · exact hfg _ _ rfl
  · have hsend := h β f ⟨token, false⟩
    rw [show (fun r => (f r).interpret carried ⟨token, false⟩) = g from
      funext fun r => hfg r _ rfl] at hsend
    exact hsend

/-- The settings of a client of which only writes are looked at. -/
def Settings.toVaultSettings : VaultSettings := ⟨settings.kvMount, settings.role⟩

theorem Sends.first (h : Sends p q) {α : Type} {f : Response → VaultProgram α}
    {g : Response → Async.Program Op Answer JsError α}
    (hfg : ∀ response, ComesTo carried Held.Fresh (f response) (g response)) :
    ComesTo carried Held.Fresh
      (do
        lift (← perform .currentToken)
        f (← p))
      (do g (← q (← (currentToken false).mapError Thrown.toError))) := by
  have hsend : ComesTo carried Held.Fresh (do lift (← perform .currentToken); p)
      ((currentToken false).mapError Thrown.toError >>= q) := by
    intro β f g hfg held hheld
    rw [h.after held hfg, hheld]
  simpa only [Async.Program.bind_bind] using hsend.bind hfg

theorem Sends.second (h : Sends p q) {α : Type} {f : Response → VaultProgram α}
    {g : Response → Async.Program Op Answer JsError α}
    (hfg : ∀ response, ComesTo carried Held.Fresh (f response) (g response)) :
    ComesTo carried Held.Fresh
      (do
        perform VaultOp.invalidateToken
        lift (← perform .currentToken)
        f (← p))
      (do g (← q (← (currentToken true).mapError Thrown.toError))) := by
  have hsend : ComesTo carried Held.Fresh
      (do perform VaultOp.invalidateToken; lift (← perform .currentToken); p)
      ((currentToken true).mapError Thrown.toError >>= q) := by
    intro β f g hfg held hheld
    exact h.after ⟨held.token, true⟩ hfg
  simpa only [Async.Program.bind_bind] using hsend.bind hfg

theorem Sends.authenticated (h : Sends p q) (describe : String) :
    ComesTo carried Held.Fresh (VaultClient.authenticated settings.toVaultSettings describe p)
      (do
        let first ← q (← (currentToken false).mapError Thrown.toError)
        if !VaultClient.isTokenRejection first.status then
          return first
        let second ← q (← (currentToken true).mapError Thrown.toError)
        if VaultClient.isTokenRejection second.status then
          throw (VaultClient.error
            (s!"{describe} was refused by Vault with status {second.status} using a freshly " ++
            "issued token. This is the role's policy, not an expired credential — check that " ++
            s!"'{settings.role}' grants the path."))
        return second) := by
  refine h.first fun first => ?_
  split
  · exact comesTo_done _
  refine h.second fun second => ?_
  split
  · exact comesTo_done _
  · exact comesTo_done _

variable (request : Request)

theorem mapError_authenticated (describe : String) :
    (authenticated settings describe request).mapError Thrown.toError = (do
      let first ← (send request (← (currentToken false).mapError Thrown.toError)).mapError
        Thrown.toError
      if !VaultClient.isTokenRejection (status first) then
        return first
      let second ← (send request (← (currentToken true).mapError Thrown.toError)).mapError
        Thrown.toError
      if VaultClient.isTokenRejection (status second) then
        throw (VaultClient.error
          (s!"{describe} was refused by Vault with status {status second} using a freshly " ++
          "issued token. This is the role's policy, not an expired credential — check that " ++
          s!"'{settings.role}' grants the path."))
      return second) := by
  simp only [authenticated, mapError_bind]
  congr 1
  funext token
  congr 1
  funext first
  split
  · rfl
  simp only [mapError_bind]
  congr 1
  funext token
  congr 1
  funext second
  split <;> rfl

theorem comesTo_get (describe path : String) :
    ComesTo carried Held.Fresh
      (VaultClient.authenticated settings.toVaultSettings describe (VaultClient.sendGet path))
      ((authenticated settings describe (.get path)).mapError Thrown.toError) := by
  rw [mapError_authenticated]
  exact (sends_get path).authenticated settings describe

theorem comesTo_post (describe path : String) (data : Fields) :
    ComesTo carried Held.Fresh
      (VaultClient.authenticated settings.toVaultSettings describe (VaultClient.sendPost path data))
      ((authenticated settings describe (.post path data)).mapError Thrown.toError) := by
  rw [mapError_authenticated]
  exact (sends_post path data).authenticated settings describe

/-- A mount table that cannot be read says nothing. -/
theorem mapError_mountVersion : mountVersion.mapError Thrown.toError =
    (readMountVersion.mapError Thrown.toError).settle fun r => .done (.ok r.toOption.join) := by
  unfold mountVersion
  generalize readMountVersion = p
  induction p with
  | done r => cases r <;> rfl
  | call op resume ih => exact congrArg (Async.Program.call op) (funext ih)

theorem comesTo_assertKvVersionTwo :
    ComesTo carried Held.Fresh (VaultClient.assertKvVersionTwo settings.toVaultSettings)
      ((assertKvVersionTwo settings).mapError Thrown.toError) := by
  refine comesTo_perform id (fun _ _ => rfl) ?_
  rintro (_ | _)
  · change ComesTo carried Held.Fresh _ ((mountVersion >>= _).mapError Thrown.toError)
    rw [mapError_bind, mapError_mountVersion]
    change ComesTo carried Held.Fresh _ ((Async.Program.settle _ _).settle _)
    rw [Async.Program.settle_settle]
    refine comesTo_call (fun r => r.toOption.join) (fun held _ => held) (fun _ _ => rfl)
      (fun _ _ hheld => hheld) fun r => ?_
    simp only [Async.Program.settle, Async.Program.onOk_ok]
    split
    · exact comesTo_done _
    · exact comesTo_perform id (fun _ _ => rfl) fun _ => comesTo_done _
  · exact comesTo_done _

theorem comesTo_readKv (path : String) :
    ComesTo carried Held.Fresh (VaultClient.readKv settings.toVaultSettings path)
      ((readKv settings path).mapError Thrown.toError) := by
  unfold readKv
  rw [mapError_bind]
  refine (comesTo_get settings _ path).bind fun response => ?_
  split <;> exact comesTo_done _

/-- A write is the write of the client, with what it does with the token. -/
theorem interpret_writeKvField (command : WriteKvField) {held : Held} (hheld : held.Fresh) :
    (VaultClient.writeKvField settings.toVaultSettings command).interpret carried held =
      (writeKvField settings command).mapError Thrown.toError := by
  refine ComesTo.interpret (R := Held.Fresh) ?_ hheld
  unfold writeKvField
  simp only [mapError_bind]
  refine (comesTo_assertKvVersionTwo settings).bind fun _ => ?_
  refine (comesTo_readKv settings _).bind fun existing => ?_
  refine (comesTo_post settings _ _ _).bind fun response => ?_
  split <;> exact comesTo_done _

end Tokens
end Vault
