import Mathlib.Data.List.Infix
import Mathlib.Data.List.Sort
import Pivotal.Async.Alone
import Pivotal.Async.Write
import Pivotal.Js.Date

/-! The Hub's client certificate for its callbacks: signed anew before it expires, uploaded, and
published by onboarding. That an upload is still to be published is kept in memory and in Redis. -/
namespace Trust
open Async (Written)
open Async.Program (lift perform)

namespace OutboundEnrollmentState

def csrLoaded : String := "CSR_LOADED"

def certSigned : String := "CERT_SIGNED"

end OutboundEnrollmentState

structure OutboundEnrollment where
  id : ℤ
  state : String
  csr : Option String
  certificate : Option String
  deriving DecidableEq

structure DfspCa where
  rootCertificate : Option String
  deriving DecidableEq

/-- What is awaited: the Connection Manager, Vault, the key of the flag in Redis and a timer. The
last two read and write `onboardPending`, a field of the enroller. -/
inductive EnrollerOp where
  | listOutboundEnrollments (dfspId : String)
  | getDfspCa (dfspId : String)
  | createOutboundCsr (dfspId : String)
  | uploadOutboundCertificate (dfspId : String) (enrollmentId : ℤ) (certificatePem : String)
  | onboard (dfspId : String)
  | signCertificate (mount role csrPem commonName : String)
  | existsKey
  | setKey
  | delKey
  | sleep (ms : ℕ)
  | onboardPending
  | setOnboardPending (value : Bool)
  deriving DecidableEq

/-- What is thrown is looked at by its text alone. -/
@[reducible] def EnrollerAnswer : EnrollerOp → Type
  | .listOutboundEnrollments _ => Except String (List OutboundEnrollment)
  | .getDfspCa _ => Except String DfspCa
  | .createOutboundCsr _ => Written String OutboundEnrollment
  | .uploadOutboundCertificate _ _ _ => Written String OutboundEnrollment
  | .onboard _ => Written String Unit
  | .signCertificate _ _ _ _ => Except String String
  | .existsKey => Except String ℕ
  | .setKey => Written String Unit
  | .delKey => Written String Unit
  | .sleep _ => Unit
  | .onboardPending => Bool
  | .setOnboardPending _ => Unit

abbrev EnrollerProgram := Async.Program EnrollerOp EnrollerAnswer String

namespace RedisFlag

/-- A read that fails answers that the flag is not set. -/
def isSet : EnrollerProgram Bool :=
  tryCatch (do
      let count ← lift (← perform EnrollerOp.existsKey)
      return count == 1)
    fun _ => pure false

/-- A write that fails is passed over. -/
def set : EnrollerProgram Unit :=
  tryCatch (do lift (← perform EnrollerOp.setKey).toExcept) fun _ => pure ()

def clear : EnrollerProgram Unit :=
  tryCatch (do lift (← perform EnrollerOp.delKey).toExcept) fun _ => pure ()

end RedisFlag

namespace HubCallbackCertEnroller

/-- `value.includes('BEGIN CERTIFICATE')` -/
def isCertificate (value : String) : Bool := "BEGIN CERTIFICATE".toList <:+: value.toList

def onboardAttempts : ℕ := 3

def onboardRetryDelayMs : ℕ := 5000

inductive Outcome where
  | current | renewed | published | waitingForCa
  deriving DecidableEq

/-- With the end of a certificate's validity, if it can be parsed. -/
structure Settings where
  dfspId : String
  commonName : String
  pkiMount : String
  pkiRole : String
  renewBeforeDays : ℤ
  notAfter : String → Option Js.Date

def newest (enrollments : List OutboundEnrollment) (state : String) : Option OutboundEnrollment :=
  ((enrollments.filter fun enrollment => enrollment.state = state).insertionSort
    fun left right => right.id ≤ left.id).head?

variable (settings : Settings)

def daysUntilExpiry (now : Js.Date) (certificatePem : Option String) : Option ℤ := do
  let pem ← certificatePem
  if !isCertificate pem then none
  else return ((← settings.notAfter pem) - now) / 86400000

def caRegistered : EnrollerProgram Bool := do
  let ca ← tryCatch (do
      let ca ← lift (← perform (EnrollerOp.getDfspCa settings.dfspId))
      return some ca)
    fun _ => pure none
  return (ca.bind DfspCa.rootCertificate).any isCertificate

/-- There is text in the CSR. -/
def hasCsr (enrollment : OutboundEnrollment) : Bool := enrollment.csr.any fun csr => 0 < csr.length

def pendingCsr (enrollments : List OutboundEnrollment) (current : Option OutboundEnrollment) :
    EnrollerProgram OutboundEnrollment := do
  let waiting := newest
    (enrollments.filter fun enrollment => current.all fun current => current.id < enrollment.id)
    OutboundEnrollmentState.csrLoaded
  match waiting.filter hasCsr with
  | some waiting => return waiting
  | none =>
    let created ← lift (← perform (EnrollerOp.createOutboundCsr settings.dfspId)).toExcept
    if !hasCsr created then
      throw s!"MCM returned no CSR for '{settings.dfspId}'."
    return created

/-- What is tried. -/
def publish : EnrollerProgram Unit := do
  lift (← perform (EnrollerOp.onboard settings.dfspId)).toExcept
  perform (EnrollerOp.setOnboardPending false)
  RedisFlag.clear

/-- The loop of `onboard`, by the attempts that are left when the next one fails. -/
def onboardLoop : ℕ → EnrollerProgram Unit
  | 0 => tryCatch (publish settings) fun message => throw
      (s!"The certificate is uploaded but onboarding '{settings.dfspId}' failed, " ++
      "so the Hub still presents the previous one. Retrying next tick, also after a restart; " ++
      s!"POST /dfsps/{settings.dfspId}/onboard publishes it by hand. {message}")
  | left + 1 => tryCatch (publish settings) fun _ => do
      perform (EnrollerOp.sleep onboardRetryDelayMs)
      onboardLoop left

def onboard : EnrollerProgram Unit := onboardLoop settings (onboardAttempts - 1)

/-- `if (!this.onboardPending && await this.pendingFlag.isSet()) this.onboardPending = true` -/
def recallPending : EnrollerProgram Unit := do
  if !(← perform EnrollerOp.onboardPending) then
    if ← RedisFlag.isSet then
      perform (EnrollerOp.setOnboardPending true)

/-- What follows once a certificate has to be signed. -/
def renew (enrollments : List OutboundEnrollment) (current : Option OutboundEnrollment) :
    EnrollerProgram Outcome := do
  let pending ← pendingCsr settings enrollments current
  let certificatePem ← lift (← perform (EnrollerOp.signCertificate settings.pkiMount
    settings.pkiRole (pending.csr.getD "") settings.commonName))
  let uploaded ← lift (← perform
    (EnrollerOp.uploadOutboundCertificate settings.dfspId pending.id certificatePem)).toExcept
  if uploaded.state ≠ OutboundEnrollmentState.certSigned then
    throw (s!"MCM did not accept the certificate for enrollment {pending.id} " ++
      s!"(state {uploaded.state}).")
  perform (EnrollerOp.setOnboardPending true)
  RedisFlag.set
  onboard settings
  return .renewed

def renewIfNeeded (now : Js.Date) : EnrollerProgram Outcome := do
  let enrollments ← lift (← perform (EnrollerOp.listOutboundEnrollments settings.dfspId))
  let current := newest enrollments OutboundEnrollmentState.certSigned
  let daysLeft := daysUntilExpiry settings now (current.bind OutboundEnrollment.certificate)
  let isValid := daysLeft.any fun daysLeft => settings.renewBeforeDays < daysLeft
  recallPending
  if isValid && !(← perform EnrollerOp.onboardPending) then
    return .current
  if !(← caRegistered settings) then
    return .waitingForCa
  if isValid then
    onboard settings
    return .published
  renew settings enrollments current

end HubCallbackCertEnroller

end Trust
