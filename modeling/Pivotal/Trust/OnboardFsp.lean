import Pivotal.Trust.Components

/-! Onboarding a participant: its accounts at the central ledger, its row, and its signing key. -/
namespace Trust
open Async.Program (lift perform)
open Fspiop (FspiopVerifyMode JsError)
open Participant (ParticipantKey ParticipantKeyRole)

/-- `KEY_PROVIDER`: where a deployment keeps signing keys. -/
inductive KeyProvider where
  | vaultKv | pkcs11 | database | none
  deriving DecidableEq

/-- The settings of a deployment. `createPublicKey` says whether a text can be read as a public
key, `announces` whether there is a `SigningTenantPublisher`. -/
structure OnboardSettings where
  keyProvider : KeyProvider
  jwsKeyPathPrefix : String
  keyRefPathPrefix : String
  createPublicKey : String → Bool
  announces : Bool

namespace JwsKeyProvisioner

structure Provisioned where
  publicKeyPem : String
  legacyPrivateKeyPem : Option String
  deriving DecidableEq

def privateKeyField : String := "privateKey"

def keyRefField : String := "keyRef"

def publicKeyField : String := "publicKey"

def hsmKeyNotFound : JsError := pivotalException "PARTICIPANT_HSM_KEY_NOT_FOUND"
  ("This DFSP has no signing key in the HSM yet. A custodian must provision it before the DFSP " ++
    "can be onboarded.")

def hsmKeyRecordInvalid : JsError := pivotalException "PARTICIPANT_HSM_KEY_RECORD_INVALID"
  ("This DFSP's signing key record in Vault does not hold a valid public key. A custodian must " ++
    "check the provisioning run.")

variable (settings : OnboardSettings)

/-- The path of a tenant's private key in Vault. -/
def jwsKeyPath (fspId : String) : String := s!"{settings.jwsKeyPathPrefix}/{fspId}"

/-- The path of what a custodian recorded of a tenant's key. -/
def keyRefPath (fspId : String) : String := s!"{settings.keyRefPathPrefix}/{Js.trim fspId}"

/-- `Pkcs11JwsKeyProvisioner.read`: the public half of the key a custodian created. -/
def readRecord (fspId : String) : TrustProgram String := do
  let keyRef ← VaultClient.readKvField (keyRefPath settings fspId) keyRefField
  let publicKeyPem ← VaultClient.readKvField (keyRefPath settings fspId) publicKeyField
  let some publicKeyPem := keyRef.bind fun _ => publicKeyPem
    | throw hsmKeyNotFound
  if !settings.createPublicKey publicKeyPem then
    throw hsmKeyRecordInvalid
  return publicKeyPem

def assertReady (fspId : String) : TrustProgram Unit :=
  match settings.keyProvider with
  | .pkcs11 => do let _ ← readRecord settings fspId
  | _ => return ()

/-- The private half is written to Vault before the caller records the public one. -/
def provisionInVault (fspId : String) : TrustProgram Provisioned := do
  let keyPair ← perform TrustOp.generateKeyPair
  VaultClient.writeKvField (jwsKeyPath settings fspId) privateKeyField keyPair.privateKey
  return ⟨keyPair.publicKey, none⟩

def provision (fspId : String) : TrustProgram (Option Provisioned) :=
  match settings.keyProvider with
  | .vaultKv => do return some (← provisionInVault settings fspId)
  | .pkcs11 => do return some ⟨← readRecord settings fspId, none⟩
  | .database => do
    let keyPair ← perform TrustOp.generateKeyPair
    return some ⟨keyPair.publicKey, some keyPair.privateKey⟩
  | .none => return none

end JwsKeyProvisioner

structure CentralLedgerEndpointDefinition where
  type : String
  path : Option String
  deriving DecidableEq

def participantEndpointTypes : List CentralLedgerEndpointDefinition :=
  [⟨"FSPIOP_CALLBACK_URL_AUTHORIZATIONS", none⟩,
  ⟨"FSPIOP_CALLBACK_URL_PARTICIPANT_PUT",
    some "/participants/\x7b\x7bpartyIdType\x7d\x7d/\x7b\x7bpartyIdentifier\x7d\x7d"⟩,
  ⟨"FSPIOP_CALLBACK_URL_PARTICIPANT_PUT_ERROR",
    some "/participants/\x7b\x7bpartyIdType\x7d\x7d/\x7b\x7bpartyIdentifier\x7d\x7d/error"⟩,
  ⟨"FSPIOP_CALLBACK_URL_PARTICIPANT_BATCH_PUT", some "/participants/\x7b\x7brequestId\x7d\x7d"⟩,
  ⟨"FSPIOP_CALLBACK_URL_PARTICIPANT_BATCH_PUT_ERROR",
    some "/participants/\x7b\x7brequestId\x7d\x7d/error"⟩,
  ⟨"FSPIOP_CALLBACK_URL_PARTIES_GET",
    some "/parties/\x7b\x7bpartyIdType\x7d\x7d/\x7b\x7bpartyIdentifier\x7d\x7d"⟩,
  ⟨"FSPIOP_CALLBACK_URL_PARTIES_PUT",
    some "/parties/\x7b\x7bpartyIdType\x7d\x7d/\x7b\x7bpartyIdentifier\x7d\x7d"⟩,
  ⟨"FSPIOP_CALLBACK_URL_PARTIES_PUT_ERROR",
    some "/parties/\x7b\x7bpartyIdType\x7d\x7d/\x7b\x7bpartyIdentifier\x7d\x7d/error"⟩,
  ⟨"FSPIOP_CALLBACK_URL_QUOTES", none⟩,
  ⟨"FSPIOP_CALLBACK_URL_TRX_REQ_SERVICE", none⟩,
  ⟨"FSPIOP_CALLBACK_URL_TRANSFER_POST", some "/transfers"⟩,
  ⟨"FSPIOP_CALLBACK_URL_TRANSFER_PUT", some "/transfers/\x7b\x7btransferId\x7d\x7d"⟩,
  ⟨"FSPIOP_CALLBACK_URL_TRANSFER_ERROR", some "/transfers/\x7b\x7btransferId\x7d\x7d/error"⟩,
  ⟨"FSPIOP_CALLBACK_URL_BULK_TRANSFER_POST", some "/bulkTransfers"⟩,
  ⟨"FSPIOP_CALLBACK_URL_BULK_TRANSFER_PUT", some "/bulkTransfers/\x7b\x7bid\x7d\x7d"⟩,
  ⟨"FSPIOP_CALLBACK_URL_BULK_TRANSFER_ERROR", some "/bulkTransfers/\x7b\x7bid\x7d\x7d/error"⟩,
  ⟨"FSPIOP_CALLBACK_URL_PARTICIPANT_SUB_ID_PUT",
    some ("/participants/\x7b\x7bpartyIdType\x7d\x7d/\x7b\x7bpartyIdentifier\x7d\x7d/" ++
      "\x7b\x7bpartySubIdOrType\x7d\x7d")⟩,
  ⟨"FSPIOP_CALLBACK_URL_PARTICIPANT_SUB_ID_PUT_ERROR",
    some ("/participants/\x7b\x7bpartyIdType\x7d\x7d/\x7b\x7bpartyIdentifier\x7d\x7d/" ++
      "\x7b\x7bpartySubIdOrType\x7d\x7d/error")⟩,
  ⟨"FSPIOP_CALLBACK_URL_PARTICIPANT_SUB_ID_DELETE",
    some ("/participants/\x7b\x7bpartyIdType\x7d\x7d/\x7b\x7bpartyIdentifier\x7d\x7d/" ++
      "\x7b\x7bpartySubIdOrType\x7d\x7d")⟩,
  ⟨"FSPIOP_CALLBACK_URL_PARTIES_SUB_ID_GET",
    some ("/parties/\x7b\x7bpartyIdType\x7d\x7d/\x7b\x7bpartyIdentifier\x7d\x7d/" ++
      "\x7b\x7bpartySubIdOrType\x7d\x7d")⟩,
  ⟨"FSPIOP_CALLBACK_URL_PARTIES_SUB_ID_PUT",
    some ("/parties/\x7b\x7bpartyIdType\x7d\x7d/\x7b\x7bpartyIdentifier\x7d\x7d/" ++
      "\x7b\x7bpartySubIdOrType\x7d\x7d")⟩,
  ⟨"FSPIOP_CALLBACK_URL_PARTIES_SUB_ID_PUT_ERROR",
    some ("/parties/\x7b\x7bpartyIdType\x7d\x7d/\x7b\x7bpartyIdentifier\x7d\x7d/" ++
      "\x7b\x7bpartySubIdOrType\x7d\x7d/error")⟩,
  ⟨"FSPIOP_CALLBACK_URL_FX_TRANSFER_POST", some "/fxTransfers"⟩,
  ⟨"FSPIOP_CALLBACK_URL_FX_TRANSFER_PUT", some "/fxTransfers/\x7b\x7bcommitRequestId\x7d\x7d"⟩,
  ⟨"FSPIOP_CALLBACK_URL_FX_TRANSFER_ERROR",
    some "/fxTransfers/\x7b\x7bcommitRequestId\x7d\x7d/error"⟩,
  ⟨"FSPIOP_CALLBACK_URL_FX_QUOTES", none⟩]

namespace CentralLedgerFacade

def positionAccountType : String := "POSITION"

/-- An error of the ledger becomes one of the portal. -/
def rethrowAsPivotalException : JsError → JsError
  | .plain e =>
    if e.name = "CentralLedgerException" then
      pivotalException (e.code.getD "") (e.description.getD "")
    else .plain e
  | e => e

/-- `new CentralLedgerException(description)`. -/
def centralLedgerException (description : String) : JsError :=
  .plain ⟨"CentralLedgerException", description, some "CENTRAL_LEDGER_ERROR", some description⟩

def toInitialPositionAndLimitsRequest (currency : String) : PostInitialPositionAndLimitsRequest :=
  ⟨currency, "NET_DEBIT_CAP", 0, 0⟩

def findPositionAccount (participant : CentralLedgerParticipant) (currency : String) :
    Option CentralLedgerAccount :=
  (participant.accounts.getD []).find? fun account =>
    account.ledgerAccountType = positionAccountType && account.currency = currency

def resolvePositionAccount (name currency : String) (participant : CentralLedgerParticipant) :
    TrustProgram CentralLedgerAccount := do
  match findPositionAccount participant currency with
  | some createdAccount => return createdAccount
  | none =>
    let currentParticipant ← lift (← perform (.getParticipant name))
    match findPositionAccount currentParticipant currency with
    | some currentAccount => return currentAccount
    | none =>
      throw (centralLedgerException
        s!"Unable to resolve {positionAccountType} account for {name} ({currency}).")

def addFspCurrency (name currency : String) : TrustProgram Unit :=
  tryCatch (do
    let participant ← lift (← perform (TrustOp.createParticipant name currency)).toExcept
    let positionAccount ← resolvePositionAccount name currency participant
    lift (← perform (TrustOp.updateParticipantAccount name positionAccount.id true)).toExcept
    lift (← perform (TrustOp.createParticipantInitialPositionAndLimits name
      (toInitialPositionAndLimitsRequest currency))).toExcept)
    fun e => throw (rethrowAsPivotalException e)

def addFspCurrencies (name : String) : List String → TrustProgram Unit
  | [] => return ()
  | currency :: rest => do
    addFspCurrency name currency
    addFspCurrencies name rest

def buildEndpointValue (baseEndpoint : String) (path : Option String) : String :=
  let normalizedBaseEndpoint :=
    if baseEndpoint.toList.getLast? = some '/' then String.ofList baseEndpoint.toList.dropLast
    else baseEndpoint
  match path with
  | none => normalizedBaseEndpoint
  | some path => normalizedBaseEndpoint ++ path

def registerEndpointTypes (name endpoint : String) :
    List CentralLedgerEndpointDefinition → TrustProgram Unit
  | [] => return ()
  | definition :: rest => do
    lift (← perform (TrustOp.upsertParticipantEndpoints name definition.type
      (buildEndpointValue endpoint definition.path))).toExcept
    registerEndpointTypes name endpoint rest

def registerEndpoints (name endpoint : String) : TrustProgram Unit :=
  tryCatch (registerEndpointTypes name endpoint participantEndpointTypes)
    fun e => throw (rethrowAsPivotalException e)

def onboardFsp (name : String) (currencies : List String) (endpoint : String) : TrustProgram Unit :=
  tryCatch (do
    if currencies.isEmpty then
      throw (centralLedgerException "At least one currency is required.")
    addFspCurrencies name currencies
    registerEndpoints name endpoint)
    fun e => throw (rethrowAsPivotalException e)

end CentralLedgerFacade

namespace OnboardFspCommand

structure Input where
  name : String
  currencies : List String
  endpoint : String
  accessPublicKey : String
  deriving DecidableEq

end OnboardFspCommand

namespace OnboardFspHandler

variable (settings : OnboardSettings)

/-- The row holds a public key that is not blank. -/
def holdsKey (existing : Option ParticipantKey) : Bool :=
  !Js.blank (existing.bind ParticipantKey.jwsPublicKey)

/-- The row that is saved with the key. -/
def signingTenant (fspId : String) (existing : Option ParticipantKey)
    (provisioned : JwsKeyProvisioner.Provisioned) : ParticipantKey where
  id := (existing.map ParticipantKey.id).getD 0
  fspId := fspId
  role := .self
  jwsPublicKey := some provisioned.publicKeyPem
  jwsPrivateKey := provisioned.legacyPrivateKeyPem
  jwsSignEnabled := false
  jwsSignActivatedAt := none
  jwsVerifyMode := (existing.map ParticipantKey.jwsVerifyMode).getD FspiopVerifyMode.off.value

def provisionSigningKey (fspId : String) : TrustProgram Unit := do
  let existing ← ParticipantKeyRepository.findByFspId fspId .write
  if holdsKey existing then
    return
  let some provisioned ← JwsKeyProvisioner.provision settings fspId
    | return
  let _ ← ParticipantKeyRepository.save (signingTenant fspId existing provisioned)
  if settings.announces then
    perform (TrustOp.announce fspId)

/-- The identifier of the participant's row. -/
def execute (input : OnboardFspCommand.Input) : TrustProgram ℕ := do
  let existingKey ← ParticipantKeyRepository.findByFspId input.name .write
  if !holdsKey existingKey then
    JwsKeyProvisioner.assertReady settings input.name
  CentralLedgerFacade.onboardFsp input.name input.currencies input.endpoint
  let existing ← ParticipantRepository.findByName input.name
  let saved ← ParticipantRepository.save
    ⟨(existing.map ParticipantEntity.id).getD 0, input.name, input.accessPublicKey⟩
  provisionSigningKey settings input.name
  return saved.id

end OnboardFspHandler

end Trust
