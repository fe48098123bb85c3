import Pivotal.Async.Pool
import Pivotal.Async.Write
import Pivotal.Fspiop.Errors
import Pivotal.Js.Map

/-! The client of Vault: the fields of a secret, read and written as a whole. -/
namespace Vault
open Async (Config System Written)
open Async.Program (lift perform)
open Fspiop (JsError)

structure VaultSettings where
  kvMount : String
  role : String
  deriving DecidableEq

/-- The fields of a secret. -/
abbrev Fields := Js.Map String String

/-- An answer that the client of HTTP lets through: of a success, a missing secret, or a rejected
token. -/
structure Response where
  status : ℕ
  data : Option Fields
  deriving DecidableEq

structure WriteKvField where
  path : String
  field : String
  value : String
  deriving DecidableEq

/-- What a write does at the client and at Vault. `mountVersion` is what the table of mounts says of
the mount, if it can be read. -/
inductive VaultOp where
  | kvVersionAccepted
  | mountVersion
  | acceptKvVersion
  | currentToken
  | invalidateToken
  | get (path : String)
  | post (path : String) (data : Fields)
  deriving DecidableEq

@[reducible] def VaultAnswer : VaultOp → Type
  | .kvVersionAccepted => Bool
  | .mountVersion => Option String
  | .acceptKvVersion => Unit
  | .currentToken => Except JsError Unit
  | .invalidateToken => Unit
  | .get _ => Except JsError Response
  | .post _ _ => Written JsError Response

abbrev VaultProgram := Async.Program VaultOp VaultAnswer JsError

namespace VaultClient

def error (message : String) : JsError := .plain ⟨"Error", message, none, none⟩

def isTokenRejection (status : ℕ) : Bool := status = 401 || status = 403

variable (settings : VaultSettings)

/-- A request that is sent again, once, when its token is rejected. -/
def authenticated (describe : String) (send : VaultProgram Response) : VaultProgram Response := do
  lift (← perform VaultOp.currentToken)
  let first ← send
  if !isTokenRejection first.status then
    return first
  perform VaultOp.invalidateToken
  lift (← perform VaultOp.currentToken)
  let second ← send
  if isTokenRejection second.status then
    throw (error
      (s!"{describe} was refused by Vault with status {second.status} using a freshly " ++
      "issued token. This is the role's policy, not an expired credential — check that " ++
      s!"'{settings.role}' grants the path."))
  return second

def assertKvVersionTwo : VaultProgram Unit := do
  if ← perform VaultOp.kvVersionAccepted then
    return
  let version ← perform VaultOp.mountVersion
  if version.any (· ≠ "2") then
    throw (error
      ("Vault mount '" ++ settings.kvMount ++ "' is KV version " ++ version.getD "" ++
      "; this client " ++
      "speaks version 2. On a version 1 mount every read and write lands at a literal " ++
      "'data/' path that no vault kv command addresses, so keys written by hand and " ++
      "keys written by this service never meet. Mount a KV v2 engine and point " ++
      "VAULT_KV_MOUNT at it."))
  perform VaultOp.acceptKvVersion

def sendGet (path : String) : VaultProgram Response := do
  lift (← perform (VaultOp.get path))

def sendPost (path : String) (data : Fields) : VaultProgram Response := do
  let written ← perform (VaultOp.post path data)
  lift (Written.toExcept written)

/-- Every field of a secret, and none of one that is missing. -/
def readKv (path : String) : VaultProgram Fields := do
  let response ← authenticated settings s!"Reading Vault path '{path}'" (sendGet path)
  if response.status = 404 then
    return Js.Map.empty
  return response.data.getD Js.Map.empty

/-- Reads the secret, and writes it again with one more field. -/
def writeKvField (command : WriteKvField) : VaultProgram Unit := do
  assertKvVersionTwo settings
  let existing ← readKv settings command.path
  let response ← authenticated settings
    s!"Writing '{command.field}' to Vault path '{command.path}'"
    (sendPost command.path (existing.set command.field command.value))
  if response.status ≥ 400 then
    throw (error (s!"Writing '{command.field}' to Vault path '{command.path}' failed with " ++
      s!"status {response.status}."))

end VaultClient

/-- The secrets, by their paths. -/
abbrev Secrets := String → Option Fields

namespace Secrets

def field (s : Secrets) (path field : String) : Option String :=
  (s path).bind fun fields => fields.get field

def write (s : Secrets) (path : String) (data : Fields) : Secrets :=
  Function.update s path (some data)

/-- What a read of a secret may be answered. -/
def Shows (secret : Option Fields) (response : Response) : Prop :=
  (response.status < 400 ∧ secret.isSome ∧ response.data = secret) ∨
    (response.status = 404 ∧ secret = none) ∨ VaultClient.isTokenRejection response.status = true

/-- What one call answers and does. Every request may fail, and a write may fail after it is
done. -/
def performs (s : Secrets) : (op : VaultOp) → VaultAnswer op → Secrets → Prop
  | .get path, .ok response, s' => Shows (s path) response ∧ s' = s
  | .post path data, .done response, s' =>
    s' = if response.status < 400 then s.write path data else s
  | .post path data, .lost _, s' => s' = s.write path data
  | _, _, s' => s' = s

end Secrets

/-- Any number of writes, at any paths. -/
def vault (settings : VaultSettings) :
    System VaultOp VaultAnswer JsError Unit WriteKvField Secrets where
  entry := VaultClient.writeKvField settings
  perform := Secrets.performs
  background _ _ := False

abbrev Vaults (ι : Type) := Config ι VaultOp VaultAnswer JsError Unit WriteKvField Secrets

end Vault
