import Pivotal.Async.Pool
import Pivotal.Trust.OnboardFsp
import Pivotal.Trust.Registry
import Pivotal.Trust.Schedulers

/-! The jobs that provision, publish and fetch signing keys, over one registry. -/
namespace Trust
open Async (Config System)
open Async.Program (perform)
open Fspiop (JsError)

/-- With the folding of the database, and whether the publisher is given a registrar. -/
structure TrustSettings extends OnboardSettings where
  collate : String → String
  registrar : Bool

/-- The passes of the schedulers, the commands, and what happens of itself. -/
inductive TrustJob where
  | reconcile
  | publishAndEnable (fspId : String)
  | sync
  | updateJwsPolicy (input : UpdateJwsPolicyCommand.Input)
  | addSigningKeys (input : AddSigningKeysCommand.Input)
  | onboardFsp (input : OnboardFspCommand.Input)
  | land (x : Late)
  | replaceJwsKey (dfspId : String) (publicKey : Option String)
  deriving DecidableEq

namespace TrustJob

def execute (settings : TrustSettings) : TrustJob → TrustProgram Unit
  | .reconcile => do let _ ← JwsKeyPublishScheduler.reconcile settings.registrar
  | .publishAndEnable fspId => JwsKeyPublishScheduler.publishAndEnable settings.registrar fspId
  | .sync => do let _ ← PeerJwsSyncScheduler.sync
  | .updateJwsPolicy input => do let _ ← UpdateJwsPolicyHandler.execute input
  | .addSigningKeys input => do let _ ← AddSigningKeysHandler.execute input
  | .onboardFsp input => do let _ ← OnboardFspHandler.execute settings.toOnboardSettings input
  | .land x => perform (TrustOp.land x)
  | .replaceJwsKey dfspId publicKey => perform (TrustOp.replaceJwsKey dfspId publicKey)

/-- The steps of the scheduler that publishes, which nobody asks for one by one. -/
def isAutomatic : TrustJob → Bool
  | .reconcile => true
  | .publishAndEnable _ => true
  | _ => false

end TrustJob

/-- Any number of them, of the kinds given. -/
def provisioning (settings : TrustSettings) (kinds : TrustJob → Prop) :
    System TrustOp TrustAnswer JsError Unit { job : TrustJob // kinds job }
      (Registry settings.collate) where
  entry job := job.val.execute settings
  perform := Registry.performs
  background _ _ := False

abbrev Provisioning (settings : TrustSettings) (kinds : TrustJob → Prop) (ι : Type) :=
  Config ι TrustOp TrustAnswer JsError Unit { job : TrustJob // kinds job }
    (Registry settings.collate)

/-- Keys are kept in Vault, and tenants are announced. -/
def sampleTrustSettings : TrustSettings where
  keyProvider := .vaultKv
  jwsKeyPathPrefix := "jws"
  keyRefPathPrefix := "refs"
  createPublicKey := fun _ => true
  announces := true
  collate := id
  registrar := false

end Trust
