import Pivotal.Trust.Components

/-! The schedulers that publish and fetch signing keys, and the commands of an operator, as
programs over the calls they await. -/
namespace Trust
open Async.Program (lift perform)
open Fspiop (FspiopVerifyMode JsError)
open Participant (ParticipantKey ParticipantKeyRole)

namespace JwsKeyPublishScheduler

/-- The counts of a pass. -/
structure Result where
  tenants : ℕ
  published : ℕ
  alreadyCorrect : ℕ
  activated : ℕ
  diverged : ℕ
  failed : ℕ
  deriving DecidableEq

/-- PEMs differ harmlessly in white space. -/
def samePem (left right : String) : Bool :=
  left.toList.filter (fun c => !Js.isWhiteSpace c) = right.toList.filter fun c => !Js.isWhiteSpace c

/-- `registrar?.ensureRegistered(fspId)`. -/
def ensureRegistered (registrar : Bool) (fspId : String) : TrustProgram Unit := do
  if registrar then
    lift (← perform (.ensureRegistered fspId))

/-- `(await mcm.getJwsKey(fspId).catch(() => null))?.publicKey`. -/
def storedKey (fspId : String) : TrustProgram (Option String) :=
  tryCatch (do
    let stored ← McmAxios.getJwsKey fspId
    return stored.publicKey) fun _ => return none

/-- Whether signing was switched on. -/
def activate (key : ParticipantKey) : TrustProgram Bool := do
  if key.jwsSignActivatedAt.isSome then
    return false
  let activatedAt ← perform .now
  let _ ← ParticipantKeyRepository.save
    { key with jwsSignActivatedAt := some activatedAt, jwsSignEnabled := true }
  return !key.jwsSignEnabled

/-- The key of a row that is a tenant of this deployment. -/
def tenantKey (key : ParticipantKey) : Option String :=
  if key.role = .self then key.jwsPublicKey else none

/-- The operator's rotation, which replaces what the Connection Manager holds. -/
def publish (fspId : String) : TrustProgram Unit := do
  let key ← ParticipantKeyRepository.findByFspId fspId .write
  let some publicKey := key.bind tenantKey
    | throw (permanentPublishError s!"No self-role public key held for '{fspId}'.")
  let _ ← McmAxios.publishAndVerifyJwsKey fspId publicKey

variable (registrar : Bool)

def publishAndEnable (fspId : String) : TrustProgram Unit := do
  let some key ← ParticipantKeyRepository.findByFspId fspId .write
    | throw (permanentPublishError s!"No self-role public key held for '{fspId}'.")
  let some publicKey := tenantKey key
    | throw (permanentPublishError s!"No self-role public key held for '{fspId}'.")
  ensureRegistered registrar fspId
  let stored ← storedKey fspId
  if Js.blank stored then
    let _ ← McmAxios.publishAndVerifyJwsKey fspId publicKey
  else if !samePem (stored.getD "") publicKey then
    throw (permanentPublishError
      (s!"MCM holds a different signing key for '{fspId}' than Pivotal does. " ++
        "Resolve this deliberately rather than by republishing."))
  let _ ← activate key

/-- What a pass finds out about one tenant before it may switch signing on. -/
inductive Checked where
  | published | alreadyCorrect | diverged
  deriving DecidableEq

def check (fspId publicKey : String) : TrustProgram Checked := do
  ensureRegistered registrar fspId
  let stored ← storedKey fspId
  if Js.blank stored then
    let _ ← McmAxios.publishAndVerifyJwsKey fspId publicKey
    return .published
  else if samePem (stored.getD "") publicKey then
    return .alreadyCorrect
  else
    return .diverged

/-- One turn of the loop. A count that was made before a failure stays. -/
def reconcileTenant (result : Result) (tenant : ParticipantKey) (publicKey : String) :
    TrustProgram Result := do
  let enable (result : Result) : TrustProgram Result :=
    tryCatch (do
      if ← activate tenant then
        return { result with activated := result.activated + 1 }
      return result) fun _ => return { result with failed := result.failed + 1 }
  let checked ← tryCatch (do return some (← check registrar tenant.fspId publicKey))
    fun _ => return none
  match checked with
  | none => return { result with failed := result.failed + 1 }
  | some .diverged => return { result with diverged := result.diverged + 1 }
  | some .published => enable { result with published := result.published + 1 }
  | some .alreadyCorrect => enable { result with alreadyCorrect := result.alreadyCorrect + 1 }

def reconcileTenants : Result → List ParticipantKey → TrustProgram Result
  | result, [] => return result
  | result, tenant :: rest => do
    let result ← match tenantKey tenant with
      | some publicKey => reconcileTenant registrar result tenant publicKey
      | none => pure result
    reconcileTenants result rest

def reconcile : TrustProgram Result := do
  let keys ← ParticipantKeyRepository.findAll .write
  let tenants := keys.filter fun key => (tenantKey key).isSome
  reconcileTenants registrar ⟨tenants.length, 0, 0, 0, 0, 0⟩ tenants

end JwsKeyPublishScheduler

namespace PeerJwsSyncScheduler

structure Result where
  total : ℕ
  created : ℕ
  updated : ℕ
  unchanged : ℕ
  skippedSelf : ℕ
  deriving DecidableEq

/-- A row for a peer that is new. -/
def newPeer (fspId publicKey : String) : ParticipantKey where
  id := 0
  fspId := fspId
  role := .peer
  jwsPublicKey := some publicKey
  jwsPrivateKey := none
  jwsSignEnabled := false
  jwsSignActivatedAt := none
  jwsVerifyMode := "off"

def syncEntry (result : Result) (fspId publicKey : String) : TrustProgram Result := do
  let existing ← ParticipantKeyRepository.findByFspId fspId .read
  match existing with
  | none =>
    let _ ← ParticipantKeyRepository.save (newPeer fspId publicKey)
    return { result with created := result.created + 1 }
  | some existing =>
    if existing.role = .self then
      return { result with skippedSelf := result.skippedSelf + 1 }
    if existing.jwsPublicKey = some publicKey then
      return { result with unchanged := result.unchanged + 1 }
    let _ ← ParticipantKeyRepository.save { existing with jwsPublicKey := some publicKey }
    return { result with updated := result.updated + 1 }

def syncEntries : Result → List JwsCert → TrustProgram Result
  | result, [] => return result
  | result, entry :: rest => do
    let result ← match entry.publicKey with
      | some publicKey =>
        if Js.blank entry.dfspId then pure result
        else syncEntry result (entry.dfspId.getD "") publicKey
      | none => pure result
    syncEntries result rest

def sync : TrustProgram Result := do
  let entries ← McmAxios.listAllJwsKeys
  syncEntries ⟨entries.length, 0, 0, 0, 0⟩ entries

end PeerJwsSyncScheduler

namespace UpdateJwsPolicyCommand

structure Input where
  fspId : String
  jwsSignEnabled : Option Bool
  jwsVerifyMode : Option FspiopVerifyMode
  deriving DecidableEq

structure Output where
  fspId : String
  jwsSignEnabled : Bool
  jwsVerifyMode : FspiopVerifyMode
  deriving DecidableEq

end UpdateJwsPolicyCommand

namespace UpdateJwsPolicyHandler

/-- The row with the switches moved as they are given. -/
def moved (input : UpdateJwsPolicyCommand.Input) (existing : ParticipantKey) : ParticipantKey :=
  { existing with
    jwsSignEnabled := input.jwsSignEnabled.getD existing.jwsSignEnabled
    jwsVerifyMode := (input.jwsVerifyMode.map FspiopVerifyMode.value).getD existing.jwsVerifyMode }

/-- That signing has been on at least once is recorded. -/
def stamped (entity : ParticipantKey) : TrustProgram ParticipantKey := do
  if entity.jwsSignEnabled && entity.jwsSignActivatedAt.isNone then
    let activatedAt ← perform .now
    return { entity with jwsSignActivatedAt := some activatedAt }
  return entity

def execute (input : UpdateJwsPolicyCommand.Input) :
    TrustProgram UpdateJwsPolicyCommand.Output := do
  let fspId := Js.trim input.fspId
  let some existing ← ParticipantKeyRepository.findByFspId fspId .write
    | throw (pivotalException "PARTICIPANT_KEY_NOT_FOUND"
        s!"No key record exists for participant '{fspId}'.")
  if input.jwsSignEnabled = some true ∧ existing.role ≠ .self then
    throw (pivotalException "PARTICIPANT_NOT_SIGNING_TENANT"
      s!"'{fspId}' is a peer, not a tenant this deployment signs for.")
  if input.jwsSignEnabled = some true ∧ Js.blank existing.jwsPublicKey then
    throw (pivotalException "PARTICIPANT_KEY_MISSING"
      s!"'{fspId}' has no signing key. Provision one before enabling signing.")
  let entity ← stamped (moved input existing)
  let saved ← ParticipantKeyRepository.save entity
  return ⟨saved.fspId, saved.jwsSignEnabled, FspiopVerifyMode.parse (some saved.jwsVerifyMode) .off⟩

end UpdateJwsPolicyHandler

namespace AddSigningKeysCommand

structure Input where
  name : String
  jwsPublicKey : String
  jwsPrivateKey : Option String
  deriving DecidableEq

end AddSigningKeysCommand

namespace AddSigningKeysHandler

/-- The row that is saved for the given keys. -/
def entity (input : AddSigningKeysCommand.Input) (existing : Option ParticipantKey) :
    ParticipantKey where
  id := (existing.map ParticipantKey.id).getD 0
  fspId := input.name
  role := (existing.map ParticipantKey.role).getD
    (if Js.blank input.jwsPrivateKey then .peer else .self)
  jwsPublicKey := some input.jwsPublicKey
  jwsPrivateKey := input.jwsPrivateKey
  jwsSignEnabled := (existing.map ParticipantKey.jwsSignEnabled).getD false
  jwsSignActivatedAt := existing.bind ParticipantKey.jwsSignActivatedAt
  jwsVerifyMode := (existing.map ParticipantKey.jwsVerifyMode).getD FspiopVerifyMode.off.value

/-- The identifier of the row. -/
def execute (input : AddSigningKeysCommand.Input) : TrustProgram ℕ := do
  let existing ← ParticipantKeyRepository.findByFspId input.name .write
  let saved ← ParticipantKeyRepository.save (entity input existing)
  return saved.id

end AddSigningKeysHandler

end Trust
