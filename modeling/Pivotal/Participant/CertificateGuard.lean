import Pivotal.Async.Pool
import Pivotal.Fspiop.Xfcc
import Pivotal.Participant.Certificates

/-! The guard that holds a presented certificate against its row, and any number of issues,
revocations and guarded requests over one primary and its replica. -/
namespace Participant
open Fspiop (JsError Xfcc reject FspiopErrors.invalidSignature FspiopErrors.missingMandatoryElement)
open Async (Written Replicated)
open Async.Program (perform lift)

/-- What the guard reads of a request. -/
structure CertRequest where
  isPublic : Bool
  clientCert : Option String
  source : Option String
  deriving DecidableEq

namespace DfspCertificateGuard

variable (settings : CertSettings)

def readSource (request : CertRequest) : Except JsError String :=
  match request.source with
  | none => throw (reject FspiopErrors.missingMandatoryElement
      "Missing mandatory header: fspiop-source.")
  | some raw =>
    if Js.trim raw = "" then
      throw (reject FspiopErrors.missingMandatoryElement "Missing mandatory header: fspiop-source.")
    else return Js.trim raw

def assertUsable (certificate : ParticipantCert) : CertProgram Unit := do
  if certificate.status = .revoked then
    throw (reject FspiopErrors.invalidSignature "The client certificate presented has been revoked.")
  let now ← perform .now
  if certificate.validTo ≤ now ∨ now < certificate.validFrom then
    throw (reject FspiopErrors.invalidSignature
      "The client certificate presented is not currently valid.")

def canActivate (request : CertRequest) : CertProgram Bool := do
  if request.isPublic then return true
  match Xfcc.parse request.clientCert with
  | none =>
    if !settings.mandatory then return true
    throw (reject FspiopErrors.invalidSignature
      "No verified client certificate accompanied this request.")
  | some presented =>
    let source ← lift (readSource request)
    match ← lift (← perform (.findByFingerprint presented.hash)) with
    | none => throw (reject FspiopErrors.invalidSignature
        "The client certificate presented is not recognised.")
    | some certificate =>
      assertUsable certificate
      if certificate.fspId ≠ source then
        throw (reject FspiopErrors.invalidSignature ("The client certificate does not belong to " ++
          "the participant named in fspiop-source."))
      return true

end DfspCertificateGuard

/-- The table `participant_cert`. -/
structure ParticipantCerts where
  rows : List ParticipantCert
  deriving DecidableEq

namespace ParticipantCerts

def empty : ParticipantCerts := ⟨[]⟩

def usable (fspId : String) (row : ParticipantCert) : Bool :=
  row.fspId = fspId && (row.status = .active || row.status = .retiring)

/-- The identifier, the fingerprint and the serial number are unique keys. -/
def Admits (s : ParticipantCerts) (entity : ParticipantCert) : Prop :=
  ∀ row ∈ s.rows, row.id ≠ entity.id ∧ row.fingerprintSha256 ≠ entity.fingerprintSha256 ∧
    row.serial ≠ entity.serial

instance (s : ParticipantCerts) (entity : ParticipantCert) : Decidable (s.Admits entity) :=
  inferInstanceAs (Decidable (∀ row ∈ s.rows, _))

def insert (s : ParticipantCerts) (entity : ParticipantCert) : ParticipantCerts :=
  ⟨s.rows ++ [entity]⟩

/-- A column is written where the entity differs from the row that was read before. -/
def column {α : Type} [DecidableEq α] (before entity current : α) : α :=
  if entity = before then current else entity

def overwrite (before entity row : ParticipantCert) : ParticipantCert where
  id := column before.id entity.id row.id
  fspId := column before.fspId entity.fspId row.fspId
  fingerprintSha256 := column before.fingerprintSha256 entity.fingerprintSha256
    row.fingerprintSha256
  serial := column before.serial entity.serial row.serial
  subject := column before.subject entity.subject row.subject
  certPem := column before.certPem entity.certPem row.certPem
  caChainPem := column before.caChainPem entity.caChainPem row.caChainPem
  status := column before.status entity.status row.status
  validFrom := column before.validFrom entity.validFrom row.validFrom
  validTo := column before.validTo entity.validTo row.validTo
  issuedAt := column before.issuedAt entity.issuedAt row.issuedAt
  revokedAt := column before.revokedAt entity.revokedAt row.revokedAt
  note := column before.note entity.note row.note

/-- `UPDATE … WHERE id = …` -/
def update (s : ParticipantCerts) (before entity : ParticipantCert) : ParticipantCerts :=
  ⟨s.rows.map fun row => if row.id = before.id then overwrite before entity row else row⟩

/-- What one call answers and does. Only `findById` reads the primary. -/
def performs (s : Replicated ParticipantCerts) : (op : CertOp) → CertAnswer op →
    Replicated ParticipantCerts → Prop
  | .now, _, s' => s' = s
  | .signCertificate _ _ _ _ _, _, s' => s' = s
  | .findUsableByFspId fspId, a, s' => s' = s ∧ ∀ rows, a = .ok rows → ∃ t, s.Shows t ∧
    rows.Perm (t.rows.filter (usable fspId)) ∧
    rows.Pairwise fun row row' => row'.issuedAt ≤ row.issuedAt
  | .findById id, a, s' => s' = s ∧
    ∀ found, a = .ok found → found = s.primary.rows.find? (fun row => row.id = id)
  | .findByFingerprint fingerprintSha256, a, s' => s' = s ∧ ∀ found, a = .ok found →
    ∃ t, s.Shows t ∧ found = t.rows.find? (fun row => row.fingerprintSha256 = fingerprintSha256)
  | .insert entity, a, s' => ∃ id, (entity.id = "" ∨ id = entity.id) ∧
    (∀ answered, a = .done answered → answered = id) ∧
    (¬ s.primary.Admits { entity with id := id } → a.isRejected) ∧
    s' = a.applies s (s.write (s.primary.insert { entity with id := id }))
  | .update before entity, a, s' => s' = a.applies s (s.write (s.primary.update before entity))

end ParticipantCerts

inductive CertJob where
  | issue (request : DfspCertificateIssuer.Request)
  | revoke (input : RevokeDfspCertificateCommand.Input)
  | present (request : CertRequest)
  deriving DecidableEq

inductive CertOutput where
  | issued (saved : ParticipantCert)
  | revoked (output : RevokeDfspCertificateCommand.Output)
  | admitted (activated : Bool)
  deriving DecidableEq

def CertJob.execute (settings : CertSettings) : CertJob → CertProgram CertOutput
  | .issue request => do return .issued (← DfspCertificateIssuer.issue settings request)
  | .revoke input => do return .revoked (← RevokeDfspCertificateHandler.execute input)
  | .present request => do return .admitted (← DfspCertificateGuard.canActivate settings request)

def certificates (settings : CertSettings) :
    Async.System CertOp CertAnswer JsError CertOutput CertJob (Replicated ParticipantCerts) where
  entry := CertJob.execute settings
  perform := ParticipantCerts.performs
  background _ _ := False

end Participant
