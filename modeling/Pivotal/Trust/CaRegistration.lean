import Pivotal.Async.Write
import Pivotal.Js.Map
import Pivotal.Trust.HubCallbackCert
import Pivotal.Trust.Schedulers

/-! The CA of this deployment, registered with the Connection Manager under every tenant, and the
DFSPs that it is registered under. -/
namespace Trust
open Async (Written)
open Async.Program (lift perform)
open Participant (ParticipantKey ParticipantKeyRole)

/-- What a listing says of a DFSP. -/
structure McmDfsp where
  id : Option String
  dfspId : Option String
  deriving DecidableEq

structure PostDfspRequest where
  dfspId : String
  name : String
  email : Option String
  monetaryZoneId : Option String
  deriving DecidableEq

/-- What the Connection Manager holds as the CA of a DFSP. -/
structure RegisteredCa where
  rootCertificate : Option String
  intermediateChain : Option String
  deriving DecidableEq

/-- What is awaited; `known` and `addKnown` read and write the set of the registrar of a replica. -/
inductive RegistrationOp (ρ : Type) where
  | readFile
  | readIntermediates
  | findAll
  | known (replica : ρ) (dfspId : String)
  | addKnown (replica : ρ) (dfspId : String)
  | listDfsps
  | createDfsp (request : PostDfspRequest)
  | getDfspCa (dfspId : String)
  | registerCa (dfspId : String) (ca : RegisteredCa)
  deriving DecidableEq

@[reducible] def RegistrationAnswer {ρ : Type} : RegistrationOp ρ → Type
  | .readFile => Except String String
  | .readIntermediates => Except String (Option String)
  | .findAll => Except String (List ParticipantKey)
  | .known _ _ => Bool
  | .addKnown _ _ => Unit
  | .listDfsps => Except String (List McmDfsp)
  | .createDfsp _ => Written String Unit
  | .getDfspCa _ => Except String RegisteredCa
  | .registerCa _ _ => Written String Unit

abbrev RegistrationProgram (ρ : Type) := Async.Program (RegistrationOp ρ) RegistrationAnswer String

variable {ρ : Type}

namespace McmDfspRegistrar

structure Settings where
  enabled : Bool
  contactEmail : Option String
  monetaryZoneId : Option String

inductive Outcome where
  | disabled | present | created
  deriving DecidableEq

/-- `dfsp.id ?? dfsp.dfspId`, where there is text in it. -/
def listedId (dfsp : McmDfsp) : Option String := (dfsp.id.or dfsp.dfspId).filter fun id => id ≠ ""

variable (replica : ρ)

/-- Every DFSP on the list is remembered while it is at hand. -/
def existsInMcm (dfspId : String) : RegistrationProgram ρ Bool := do
  let dfsps ← lift (← perform RegistrationOp.listDfsps)
  (dfsps.filterMap listedId).foldlM
    (fun _ id => perform (RegistrationOp.addKnown replica id)) ()
  perform (RegistrationOp.known replica dfspId)

def request (settings : Settings) (dfspId : String) : PostDfspRequest :=
  ⟨dfspId, dfspId, settings.contactEmail, settings.monetaryZoneId⟩

/-- Whether the DFSP was created here; a create that is refused passes where the DFSP exists. -/
def create (settings : Settings) (dfspId : String) : RegistrationProgram ρ Bool :=
  tryCatch (do
      lift (← perform (RegistrationOp.createDfsp (request settings dfspId))).toExcept
      return true)
    fun error => do
      if ← existsInMcm replica dfspId then
        return false
      throw error

def ensureRegistered (settings : Settings) (dfspId : String) : RegistrationProgram ρ Outcome := do
  if !settings.enabled then
    return .disabled
  if ← perform (RegistrationOp.known replica dfspId) then
    return .present
  if ← existsInMcm replica dfspId then
    return .present
  if !(← create replica settings dfspId) then
    return .present
  perform (RegistrationOp.addKnown replica dfspId)
  return .created

end McmDfspRegistrar

namespace McmCaRegistrationScheduler

open HubCallbackCertEnroller (isCertificate)

structure Result where
  tenants : ℕ
  registered : ℕ
  alreadyCorrect : ℕ
  failed : ℕ
  deriving DecidableEq

/-- Without a registrar, `registrar` is absent. -/
structure Settings where
  pivotalDfspId : Option String
  registrar : Option McmDfspRegistrar.Settings

/-- What precedes the first `marker`, and what follows it. -/
def cut (marker : List Char) : List Char → Option (List Char × List Char)
  | [] => none
  | c :: cs => match Js.stripPrefix marker (c :: cs) with
    | some rest => some ([], rest)
    | none => (cut marker cs).map fun (before, rest) => (c :: before, rest)

/-- `chain.match(/-----BEGIN CERTIFICATE-----[\s\S]*?-----END CERTIFICATE-----/g)`: the shortest
text to an end, from the first beginning on. At most `fuel` blocks. -/
def blocks (beginning ending : List Char) : ℕ → List Char → List (List Char)
  | 0, _ => []
  | fuel + 1, cs => match cut beginning cs with
    | none => []
    | some (_, body) => match cut ending body with
      | none => []
      | some (block, rest) => (beginning ++ block ++ ending) :: blocks beginning ending fuel rest

def certificateBlocks (chain : String) : List String :=
  (blocks "-----BEGIN CERTIFICATE-----".toList "-----END CERTIFICATE-----".toList
    chain.length chain.toList).map String.ofList

/-- PEMs differ harmlessly in white space. -/
def samePem (left : Option String) (right : String) : Bool :=
  left.any fun left => JwsKeyPublishScheduler.samePem left right

def withoutCertificate (chain : Option String) (certificate : String) : Option String :=
  let kept := (certificateBlocks (chain.getD "")).filter fun block =>
    !samePem (some block) certificate
  if kept.length = 0 then none else some ("\n".intercalate kept)

def readPivotalCa (caPath : String) : RegistrationProgram ρ String := do
  let pem ← lift (← perform RegistrationOp.readFile)
  if !isCertificate pem then
    throw s!"No usable certificate at {caPath}."
  return pem

/-- `[...new Set([...])]`: a set lists its members as they came. -/
def tenants (settings : Settings) (keys : List ParticipantKey) : List String :=
  let fspIds := (keys.filter fun key => key.role = ParticipantKeyRole.self).map ParticipantKey.fspId
  let set : Js.Map String Unit :=
    (fspIds ++ settings.pivotalDfspId.toList).foldl (fun set id => set.set id ()) .empty
  set.entries.map Prod.fst

/-- Whether what is held is what would be registered. -/
def isCurrent (current : Option RegisteredCa) (certificate : String)
    (intermediateChain : Option String) : Bool :=
  samePem (current.bind RegisteredCa.rootCertificate) certificate &&
    samePem (some ((current.bind RegisteredCa.intermediateChain).getD ""))
      (intermediateChain.getD "")

variable (replica : ρ) (settings : Settings)

/-- `registrar?.ensureRegistered(fspId)`. -/
def ensureRegistered (fspId : String) : RegistrationProgram ρ Unit :=
  match settings.registrar with
  | none => pure ()
  | some registrar => do
    let _ ← McmDfspRegistrar.ensureRegistered replica registrar fspId

/-- `mcm.getDfspCa(fspId).catch(() => null)`. -/
def currentCa (fspId : String) : RegistrationProgram ρ (Option RegisteredCa) :=
  tryCatch (do
      let ca ← lift (← perform (RegistrationOp.getDfspCa fspId))
      return some ca)
    fun _ => return none

/-- What is tried for one tenant: whether it was registered. -/
def register (certificate : String) (intermediateChain : Option String) (fspId : String) :
    RegistrationProgram ρ Bool := do
  ensureRegistered replica settings fspId
  let current ← currentCa fspId
  if isCurrent current certificate intermediateChain then
    return false
  lift (← perform (RegistrationOp.registerCa fspId ⟨some certificate, intermediateChain⟩)).toExcept
  return true

/-- One tenant failing does not stop the rest. -/
def count (certificate : String) (intermediateChain : Option String) (result : Result)
    (fspId : String) : RegistrationProgram ρ Result :=
  tryCatch (do
      let registered ← register replica settings certificate intermediateChain fspId
      if registered then
        return { result with registered := result.registered + 1 }
      return { result with alreadyCorrect := result.alreadyCorrect + 1 })
    fun _ => return { result with failed := result.failed + 1 }

def reconcile (caPath : String) : RegistrationProgram ρ Result := do
  let certificate ← readPivotalCa caPath
  let chain ← lift (← perform RegistrationOp.readIntermediates)
  let intermediateChain := withoutCertificate chain certificate
  let keys ← lift (← perform RegistrationOp.findAll)
  (tenants settings keys).foldlM (count replica settings certificate intermediateChain)
    ⟨(tenants settings keys).length, 0, 0, 0⟩

end McmCaRegistrationScheduler
end Trust
