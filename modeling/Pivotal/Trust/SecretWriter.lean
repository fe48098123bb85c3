import Pivotal.Async.Alone
import Pivotal.Async.Write
import Pivotal.Js.Buffer
import Pivotal.Js.Map
import Pivotal.Trust.HubCallbackCert

/-! The Secrets of the cluster, and the jobs that put trust material into them: the CA of the Hub,
the CA of the DFSPs, and the server certificate that the Hub signs. -/
namespace Trust
open Async (Written)
open Async.Program (lift perform)

/-- The data of a Secret, in `base64`. -/
abbrev Secret := Js.Map String String

/-- What the API server answers to a read. Without data the field is absent. -/
structure SecretResponse where
  status : ℕ
  data : Option Secret
  deriving DecidableEq

/-- A pair of RSA keys. -/
structure KeyPair where
  publicKey : String
  privateKey : String
  deriving DecidableEq

/-- A certification request, with the key that has signed it. -/
structure CertificationRequest where
  publicKey : String
  subject : List (String × String)
  signedBy : String
  deriving DecidableEq

/-- The library: what it writes of keys and requests, and the end of a certificate's validity, if
it can be parsed. -/
structure Forge where
  privateKeyInfoToPem : String → String
  certificationRequestToPem : CertificationRequest → String
  notAfter : String → Option Js.Date

structure Csr where
  privateKeyPem : String
  csrPem : String
  deriving DecidableEq

structure InboundEnrollment where
  id : ℤ
  state : String
  certificate : Option String
  deriving DecidableEq

/-- What is awaited. The first four read and write `client` and `namespace`, fields of the
writer. -/
inductive ClusterOp where
  | client
  | setClient
  | podNamespace
  | setPodNamespace (value : String)
  | readFile (file : String)
  | get (ns name : String)
  | patch (ns name : String) (data : List (String × String))
  | post (ns name : String) (data : List (String × String))
  | getHubCa
  | readPkiCaChain (mount : String)
  | generateKeyPair (bits : ℕ)
  | createInboundEnrollment (dfspId csrPem : String)
  | signInboundEnrollment (dfspId : String) (id : ℤ)
  | now
  deriving DecidableEq

@[reducible] def ClusterAnswer : ClusterOp → Type
  | .client => Bool
  | .setClient => Unit
  | .podNamespace => Option String
  | .setPodNamespace _ => Unit
  | .readFile _ => Except String String
  | .get _ _ => Except String SecretResponse
  | .patch _ _ _ => Written String Unit
  | .post _ _ _ => Written String Unit
  | .getHubCa => Except String (Option String)
  | .readPkiCaChain _ => Except String (Option String)
  | .generateKeyPair _ => KeyPair
  | .createInboundEnrollment _ _ => Written String InboundEnrollment
  | .signInboundEnrollment _ _ => Written String InboundEnrollment
  | .now => Js.Date

abbrev ClusterProgram := Async.Program ClusterOp ClusterAnswer String

namespace KubernetesSecretWriter

def connect : ClusterProgram Unit := do
  if !(← perform ClusterOp.client) then
    let _ ← lift (← perform (ClusterOp.readFile "token"))
    let _ ← lift (← perform (ClusterOp.readFile "ca.crt"))
    perform ClusterOp.setClient

def readNamespace : ClusterProgram String := do
  match ← perform ClusterOp.podNamespace with
  | some ns => return ns
  | none =>
    let file ← lift (← perform (ClusterOp.readFile "namespace"))
    perform (ClusterOp.setPodNamespace (Js.trim file))
    return Js.trim file

def resolveNamespace (override : Option String) : ClusterProgram String :=
  match override with
  | some ns => if 0 < (Js.trim ns).length then return Js.trim ns else readNamespace
  | none => readNamespace

/-- `Buffer.from(value).toString('base64')` -/
def encode (value : String) : String := (Js.Buffer.fromUtf8 value).toBase64

/-- `Buffer.from(encoded, 'base64').toString('utf8')` -/
def decode (encoded : String) : String := (Js.Buffer.fromBase64Url encoded).toUtf8

def encodeAll (data : Secret) : List (String × String) :=
  data.entries.map fun (key, value) => (key, encode value)

/-- A write is not looked at when it answers: a 404 passes for one, also of a `patch`. -/
def putIfChanged (name : String) (data : Secret) (targetNamespace : Option String) :
    ClusterProgram Bool := do
  connect
  let ns ← resolveNamespace targetNamespace
  let encoded := encodeAll data
  let existing ← lift (← perform (ClusterOp.get ns name))
  if existing.status = 200 then
    let current := existing.data.getD .empty
    let unchanged := encoded.all fun (key, value) => current.get key = some value
    if unchanged then
      return false
    lift (← perform (ClusterOp.patch ns name encoded)).toExcept
    return true
  lift (← perform (ClusterOp.post ns name encoded)).toExcept
  return true

def read (name key : String) (targetNamespace : Option String) :
    ClusterProgram (Option String) := do
  connect
  let ns ← resolveNamespace targetNamespace
  let response ← lift (← perform (ClusterOp.get ns name))
  if response.status = 404 then
    return none
  return ((response.data.getD .empty).get key).map decode

end KubernetesSecretWriter

open HubCallbackCertEnroller (isCertificate)

namespace HubCaSyncScheduler

def bundleKey : String := "hub-ca.pem"

/-- `pem.endsWith('\n') ? pem : …` -/
def terminated (pem : String) : String :=
  if ['\n'] <:+ pem.toList then pem else pem ++ "\n"

def sync (secretName : String) : ClusterProgram Bool := do
  let pem ← lift (← perform ClusterOp.getHubCa)
  match pem.filter isCertificate with
  | none => throw "MCM returned no usable Hub CA certificate."
  | some pem =>
    KubernetesSecretWriter.putIfChanged secretName (Js.Map.empty.set bundleKey (terminated pem))
      none

end HubCaSyncScheduler

namespace DfspCaPublishScheduler

def bundleKey : String := "cacert"

/-- `rootMount` is empty where the intermediate is published alone. -/
structure Settings where
  issuingMount : String
  rootMount : String
  gatewayNamespace : String
  secretName : String
  deriving DecidableEq

variable (settings : Settings)

/-- Intermediate first, then root. -/
def readBundle : ClusterProgram (Option String) := do
  match ← lift (← perform (ClusterOp.readPkiCaChain settings.issuingMount)) with
  | none => return none
  | some intermediate =>
    if settings.rootMount.length = 0 then
      return some (intermediate ++ "\n")
    match ← lift (← perform (ClusterOp.readPkiCaChain settings.rootMount)) with
    | none => return some (intermediate ++ "\n")
    | some root => return some (intermediate ++ "\n" ++ root ++ "\n")

def sync : ClusterProgram Bool := do
  match ← readBundle settings with
  | none => return false
  | some bundle =>
    KubernetesSecretWriter.putIfChanged settings.secretName (Js.Map.empty.set bundleKey bundle)
      (some settings.gatewayNamespace)

end DfspCaPublishScheduler

namespace HubServerCertEnroller

def certKey : String := "tls.crt"

def privateKey : String := "tls.key"

def keyBits : ℕ := 4096

structure Settings where
  dfspId : String
  commonName : String
  secretName : String
  renewBeforeDays : ℤ

variable (forge : Forge) (settings : Settings)

/-- What is made of a pair of keys. -/
def csrOf (commonName : String) (keys : KeyPair) : Csr where
  privateKeyPem := forge.privateKeyInfoToPem keys.privateKey
  csrPem := forge.certificationRequestToPem {
    publicKey := keys.publicKey
    subject := [("commonName", commonName), ("organizationName", "ThitsaWorks")]
    signedBy := keys.privateKey }

def generateCsr (commonName : String) : ClusterProgram Csr := do
  let keys ← perform (ClusterOp.generateKeyPair keyBits)
  return csrOf forge commonName keys

/-- Neither without a certificate nor with one that cannot be parsed. -/
def daysUntilExpiry (certificatePem : Option String) : ClusterProgram (Option ℤ) :=
  match (certificatePem.filter isCertificate).bind forge.notAfter with
  | none => return none
  | some notAfter => do
    let now ← perform ClusterOp.now
    return some ((notAfter - now) / 86400000)

def enrol : ClusterProgram Unit := do
  let csr ← generateCsr forge settings.commonName
  let submitted ← lift
    (← perform (ClusterOp.createInboundEnrollment settings.dfspId csr.csrPem)).toExcept
  let signed ← lift
    (← perform (ClusterOp.signInboundEnrollment settings.dfspId submitted.id)).toExcept
  let some certificate :=
      signed.certificate.filter fun _ => signed.state = OutboundEnrollmentState.certSigned
    | throw (s!"MCM did not sign enrollment {submitted.id} for '{settings.dfspId}' " ++
        s!"(state {signed.state}).")
  let _ ← KubernetesSecretWriter.putIfChanged settings.secretName
    ((Js.Map.empty.set certKey certificate).set privateKey csr.privateKeyPem) none

def enrolIfNeeded : ClusterProgram Bool := do
  let existing ← KubernetesSecretWriter.read settings.secretName certKey none
  let daysLeft ← daysUntilExpiry forge existing
  if daysLeft.any fun daysLeft => settings.renewBeforeDays < daysLeft then
    return false
  enrol forge settings
  return true

end HubServerCertEnroller
end Trust
