import Pivotal.Async.Program
import Pivotal.Async.Write
import Pivotal.Fspiop.Errors
import Pivotal.Js.Date

/-! The client certificates of the DFSPs: their rows, the repository, the issuer and the
handler that revokes, as programs over the calls they await. -/
namespace Participant
open Fspiop (JsError)
open Async (Written)
open Async.Program (perform lift)

inductive ParticipantErrorCode where
  | csrMalformed | csrKeyTooSmall | certIssuanceFailed | certNotFound | certAlreadyRevoked
  deriving DecidableEq

def ParticipantErrorCode.code : ParticipantErrorCode → String
  | .csrMalformed => "PARTICIPANT_CERT_CSR_MALFORMED"
  | .csrKeyTooSmall => "PARTICIPANT_CERT_CSR_KEY_TOO_SMALL"
  | .certIssuanceFailed => "PARTICIPANT_CERT_ISSUANCE_FAILED"
  | .certNotFound => "PARTICIPANT_CERT_NOT_FOUND"
  | .certAlreadyRevoked => "PARTICIPANT_CERT_ALREADY_REVOKED"

def ParticipantErrorCode.message : ParticipantErrorCode → String
  | .csrMalformed => "The certificate signing request could not be read. It must be a " ++
      "PEM-encoded PKCS#10 request."
  | .csrKeyTooSmall => "The certificate signing request uses a key that is too small. RSA keys " ++
      "must be at least 2048 bits."
  | .certIssuanceFailed => "The certificate could not be issued. Please try again, and contact " ++
      "an administrator if the problem persists."
  | .certNotFound => "No certificate was found."
  | .certAlreadyRevoked => "That certificate has already been revoked."

/-- `new PivotalException(error.code, error.message)`. -/
def pivotalException (error : ParticipantErrorCode) : JsError :=
  .plain ⟨"PivotalException", error.message, some error.code, some error.message⟩

inductive ParticipantCertStatusCode where
  | active | retiring | revoked | expired
  deriving DecidableEq

/-- A row. The identifier of an entity that is not yet a row is empty. -/
structure ParticipantCert where
  id : String
  fspId : String
  fingerprintSha256 : String
  serial : String
  subject : String
  certPem : String
  caChainPem : Option String
  status : ParticipantCertStatusCode
  validFrom : Js.Date
  validTo : Js.Date
  issuedAt : Js.Date
  revokedAt : Option Js.Date
  note : Option String
  deriving DecidableEq

structure SignedCertificate where
  certificatePem : String
  caChainPem : Option String
  serialNumber : String
  expiration : Option Js.Date
  deriving DecidableEq

structure ParsedCertificate where
  fingerprintSha256 : String
  commonName : String
  serial : String
  subject : String
  validFrom : Js.Date
  validTo : Js.Date
  deriving DecidableEq

/-- The public key that the library reads from a signing request. -/
inductive CsrKey where
  | malformed
  | missing
  | notRsa
  | rsa (bits : ℕ)
  deriving DecidableEq

/-- The settings of the issuer and of the guard, and what the certificate library parses. -/
structure CertSettings where
  mount : String
  role : String
  ttl : Option String
  mandatory : Bool
  parseCsr : String → CsrKey
  parse : String → Except JsError ParsedCertificate

inductive CertOp where
  | now
  | signCertificate (mount role csrPem commonName : String) (ttl : Option String)
  | findUsableByFspId (fspId : String)
  | findById (id : String)
  | findByFingerprint (fingerprintSha256 : String)
  | insert (entity : ParticipantCert)
  | update (before entity : ParticipantCert)
  deriving DecidableEq

@[reducible] def CertAnswer : CertOp → Type
  | .now => Js.Date
  | .signCertificate _ _ _ _ _ => Except JsError SignedCertificate
  | .findUsableByFspId _ => Except JsError (List ParticipantCert)
  | .findById _ => Except JsError (Option ParticipantCert)
  | .findByFingerprint _ => Except JsError (Option ParticipantCert)
  | .insert _ => Written JsError String
  | .update _ _ => Written JsError Unit

abbrev CertProgram := Async.Program CertOp CertAnswer JsError

namespace ParticipantCertRepository

/-- Insert an entity without a row, or update the columns in which it differs from its row. -/
def saveOver (entity : ParticipantCert) : Option ParticipantCert → CertProgram ParticipantCert
  | none => do
    let id ← lift (Written.toExcept (← perform (.insert entity)))
    return { entity with id := id }
  | some row => do
    if row = entity then return entity
    lift (Written.toExcept (← perform (.update row entity)))
    return entity

/-- The library reads the row of an entity that has an identifier from the primary, and then
writes. -/
def save (entity : ParticipantCert) : CertProgram ParticipantCert := do
  if entity.id = "" then saveOver entity none
  else
    let before ← lift (← perform (.findById entity.id))
    saveOver entity before

end ParticipantCertRepository

namespace DfspCertificateIssuer

structure Request where
  fspId : String
  csrPem : String
  note : Option String
  deriving DecidableEq

variable (settings : CertSettings)

def minimumRsaKeyBits : ℕ := 2048

def assertUsableCsr (csrPem : String) : Except JsError Unit :=
  match settings.parseCsr csrPem with
  | .malformed => throw (.ofMessage ParticipantErrorCode.csrMalformed.message)
  | .missing => throw (.ofMessage ParticipantErrorCode.csrMalformed.message)
  | .notRsa => throw (.ofMessage ParticipantErrorCode.csrKeyTooSmall.message)
  | .rsa bits =>
    if bits < minimumRsaKeyBits then
      throw (.ofMessage ParticipantErrorCode.csrKeyTooSmall.message)
    else return

def sign (request : Request) : CertProgram SignedCertificate :=
  tryCatch
    (do lift (← perform (.signCertificate settings.mount settings.role request.csrPem
          request.fspId settings.ttl)))
    fun _ => throw (JsError.ofMessage ParticipantErrorCode.certIssuanceFailed.message)

def assertBoundTo (fspId : String) (parsed : ParsedCertificate) : Except JsError Unit :=
  if parsed.commonName ≠ fspId then
    throw (.ofMessage ("The certificate authority issued a certificate for '" ++
      parsed.commonName ++ "' when '" ++ fspId ++ "' was requested. Check that the issuing role " ++
      "sets use_csr_common_name=false; the certificate has not been recorded."))
  else return

/-- The loop of `retireExisting`. -/
def retireEach : List ParticipantCert → CertProgram Unit
  | [] => return
  | existing :: rest => do
    if existing.status = .retiring then retireEach rest
    else
      let _ ← ParticipantCertRepository.save { existing with status := .retiring }
      retireEach rest

/-- Moves every certificate the tenant can still present to `retiring`. -/
def retireExisting (fspId : String) : CertProgram Unit := do
  let usable ← lift (← perform (.findUsableByFspId fspId))
  retireEach usable

def issue (request : Request) : CertProgram ParticipantCert := do
  lift (assertUsableCsr settings request.csrPem)
  let signed ← sign settings request
  let parsed ← lift (settings.parse signed.certificatePem)
  lift (assertBoundTo request.fspId parsed)
  retireExisting request.fspId
  let issuedAt ← perform .now
  ParticipantCertRepository.save
    { id := ""
      fspId := request.fspId
      fingerprintSha256 := parsed.fingerprintSha256
      serial := if signed.serialNumber.length > 0 then signed.serialNumber else parsed.serial
      subject := parsed.subject
      certPem := signed.certificatePem
      caChainPem := signed.caChainPem
      status := .active
      validFrom := parsed.validFrom
      validTo := signed.expiration.getD parsed.validTo
      issuedAt := issuedAt
      revokedAt := none
      note := request.note }

end DfspCertificateIssuer

namespace RevokeDfspCertificateCommand

structure Input where
  id : String
  reason : Option String
  deriving DecidableEq

structure Output where
  id : String
  fspId : String
  status : ParticipantCertStatusCode
  revokedAt : Option Js.Date
  deriving DecidableEq

end RevokeDfspCertificateCommand

namespace RevokeDfspCertificateHandler

/-- Appended to the note of the enrollment. -/
def note (note reason : Option String) : Option String :=
  match reason with
  | none => note
  | some reason =>
    if Js.trim reason = "" then note
    else
      let text := "Revoked: " ++ Js.trim reason
      match note with
      | none => some text
      | some "" => some text
      | some note => some (note ++ " | " ++ text)

def execute (input : RevokeDfspCertificateCommand.Input) :
    CertProgram RevokeDfspCertificateCommand.Output := do
  match ← lift (← perform (.findById input.id)) with
  | none => throw (pivotalException .certNotFound)
  | some certificate =>
    if certificate.status = .revoked then throw (pivotalException .certAlreadyRevoked)
    let revokedAt ← perform .now
    let saved ← ParticipantCertRepository.save
      { certificate with
        status := .revoked
        revokedAt := some revokedAt
        note := note certificate.note input.reason }
    return ⟨saved.id, saved.fspId, saved.status, saved.revokedAt⟩

end RevokeDfspCertificateHandler
end Participant
