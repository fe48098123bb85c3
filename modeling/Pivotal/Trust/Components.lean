import Pivotal.Async.Write
import Pivotal.Async.Program
import Pivotal.Fspiop.Errors
import Pivotal.Participant.Keys

/-! What the commands and the schedulers that provision signing keys await: the registry, the
Connection Manager, Vault and the central ledger. -/
namespace Trust
open Async (Written)
open Async.Program (lift perform)
open Fspiop (FspiopVerifyMode JsError)
open Participant (ParticipantKey ParticipantKeyRole)

inductive DbTarget where
  | read | write
  deriving DecidableEq

/-- A row of `participant`. -/
structure ParticipantEntity where
  id : ℕ
  name : String
  accessPublicKey : String
  deriving DecidableEq

def ParticipantEntity.withId (id : ℕ) (entity : ParticipantEntity) : ParticipantEntity :=
  { entity with id := id }

/-- What the Connection Manager answers of the key of a DFSP. -/
structure JwsCert where
  dfspId : Option String
  publicKey : Option String
  deriving DecidableEq

/-- The two halves of a key, as they are written. -/
structure RsaKeyPair where
  publicKey : String
  privateKey : String
  deriving DecidableEq

structure CentralLedgerAccount where
  id : ℕ
  ledgerAccountType : String
  currency : String
  isActive : Bool
  deriving DecidableEq

structure CentralLedgerParticipant where
  name : String
  accounts : Option (List CentralLedgerAccount)
  deriving DecidableEq

structure PostInitialPositionAndLimitsRequest where
  currency : String
  limitType : String
  limitValue : ℕ
  initialPosition : ℕ
  deriving DecidableEq

/-- A write over the network that its caller has given up, and that may still be made. -/
inductive Late where
  | jwsKey (dfspId publicKey : String)
  | kvField (path field value : String)
  deriving DecidableEq

/-- What is awaited. The last two are what the network does (`land`), and what anyone else does to
the keys of the Connection Manager (`replaceJwsKey`). -/
inductive TrustOp where
  | findByFspId (fspId : String) (target : DbTarget)
  | findAll (target : DbTarget)
  | save (entity : ParticipantKey)
  | now
  | ensureRegistered (dfspId : String)
  | getJwsKey (dfspId : String)
  | publishJwsKey (dfspId publicKey : String)
  | listAllJwsKeys
  | generateKeyPair
  | readKvField (path field : String)
  | writeKvField (path field value : String)
  | createParticipant (name currency : String)
  | getParticipant (name : String)
  | updateParticipantAccount (name : String) (accountId : ℕ) (isActive : Bool)
  | createParticipantInitialPositionAndLimits (name : String)
      (request : PostInitialPositionAndLimitsRequest)
  | upsertParticipantEndpoints (name type value : String)
  | findByName (name : String)
  | saveParticipant (entity : ParticipantEntity)
  | announce (fspId : String)
  | land (x : Late)
  | replaceJwsKey (dfspId : String) (publicKey : Option String)
  deriving DecidableEq

@[reducible] def TrustAnswer : TrustOp → Type
  | .findByFspId _ _ => Except JsError (Option ParticipantKey)
  | .findAll _ => Except JsError (List ParticipantKey)
  | .save _ => Written JsError ParticipantKey
  | .now => Js.Date
  | .ensureRegistered _ => Except JsError Unit
  | .getJwsKey _ => Except JsError JwsCert
  | .publishJwsKey _ _ => Written JsError JwsCert
  | .listAllJwsKeys => Except JsError (List JwsCert)
  | .generateKeyPair => RsaKeyPair
  | .readKvField _ _ => Except JsError (Option String)
  | .writeKvField _ _ _ => Written JsError Unit
  | .createParticipant _ _ => Written JsError CentralLedgerParticipant
  | .getParticipant _ => Except JsError CentralLedgerParticipant
  | .updateParticipantAccount _ _ _ => Written JsError Unit
  | .createParticipantInitialPositionAndLimits _ _ => Written JsError Unit
  | .upsertParticipantEndpoints _ _ _ => Written JsError Unit
  | .findByName _ => Except JsError (Option ParticipantEntity)
  | .saveParticipant _ => Written JsError ParticipantEntity
  | .announce _ => Unit
  | .land _ => Unit
  | .replaceJwsKey _ _ => Unit

abbrev TrustProgram := Async.Program TrustOp TrustAnswer JsError

/-- `new PermanentPublishError(message)`. -/
def permanentPublishError (message : String) : JsError :=
  .plain ⟨"PermanentPublishError", message, none, none⟩

/-- `new PivotalException(code, description)`. -/
def pivotalException (code description : String) : JsError :=
  .plain ⟨"PivotalException", description, some code, some description⟩

namespace ParticipantKeyRepository

def findByFspId (fspId : String) (target : DbTarget) : TrustProgram (Option ParticipantKey) := do
  lift (← perform (.findByFspId fspId target))

def findAll (target : DbTarget) : TrustProgram (List ParticipantKey) := do
  lift (← perform (.findAll target))

def save (entity : ParticipantKey) : TrustProgram ParticipantKey := do
  lift (← perform (TrustOp.save entity)).toExcept

end ParticipantKeyRepository

namespace ParticipantRepository

def findByName (name : String) : TrustProgram (Option ParticipantEntity) := do
  lift (← perform (.findByName name))

def save (entity : ParticipantEntity) : TrustProgram ParticipantEntity := do
  lift (← perform (TrustOp.saveParticipant entity)).toExcept

end ParticipantRepository

namespace McmAxios

def getJwsKey (dfspId : String) : TrustProgram JwsCert := do
  lift (← perform (.getJwsKey dfspId))

def publishJwsKey (dfspId publicKey : String) : TrustProgram JwsCert := do
  lift (← perform (TrustOp.publishJwsKey dfspId publicKey)).toExcept

def listAllJwsKeys : TrustProgram (List JwsCert) := do
  lift (← perform .listAllJwsKeys)

def publishAndVerifyJwsKey (dfspId publicKey : String) : TrustProgram JwsCert := do
  let published ← publishJwsKey dfspId publicKey
  let stored ← getJwsKey dfspId
  if stored.publicKey ≠ some publicKey then
    throw (.plain ⟨"McmException", s!"Key stored for '{dfspId}' differs from the key published. " ++
      "MCM accepted the write but did not persist it verbatim.", some "MCM_JWS_KEY_MISMATCH",
      some (s!"Key stored for '{dfspId}' differs from the key published. " ++
        "MCM accepted the write but did not persist it verbatim.")⟩)
  return published

end McmAxios

namespace VaultClient

def readKvField (path field : String) : TrustProgram (Option String) := do
  lift (← perform (.readKvField path field))

def writeKvField (path field value : String) : TrustProgram Unit := do
  lift (← perform (TrustOp.writeKvField path field value)).toExcept

end VaultClient

end Trust
