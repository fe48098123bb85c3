import Pivotal.Trust.System

/-! Which calls each part of the commands and the schedulers makes. -/
namespace Trust
open Async.Program (Within)
open Participant (ParticipantKey)

namespace TrustOp

/-- A call to the central ledger. -/
def isLedger : TrustOp → Bool
  | .createParticipant _ _ => true
  | .getParticipant _ => true
  | .updateParticipantAccount _ _ _ => true
  | .createParticipantInitialPositionAndLimits _ _ => true
  | .upsertParticipantEndpoints _ _ _ => true
  | _ => false

/-- A call that makes a key, or reads or writes one in Vault. -/
def isProvisioning : TrustOp → Bool
  | .generateKeyPair => true
  | .readKvField _ _ => true
  | .writeKvField _ _ _ => true
  | _ => false

/-- A call that neither reads nor publishes a key at the Connection Manager. -/
def isLocal : TrustOp → Bool
  | .getJwsKey _ => false
  | .publishJwsKey _ _ => false
  | _ => true

theorem isLocal_of_isLedger (op : TrustOp) (h : op.isLedger = true) : op.isLocal = true := by
  cases op <;> first | rfl | cases h

theorem isLocal_of_isProvisioning (op : TrustOp) (h : op.isProvisioning = true) :
    op.isLocal = true := by
  cases op <;> first | rfl | cases h

end TrustOp

section Facade

theorem resolvePositionAccount_within (name currency : String)
    (participant : CentralLedgerParticipant) :
    (CentralLedgerFacade.resolvePositionAccount name currency participant).Within (·.isLedger) := by
  unfold CentralLedgerFacade.resolvePositionAccount
  split
  · trivial
  · refine Within.answered (by rfl) ?_
    intro current
    split
    · trivial
    · trivial

theorem addFspCurrency_within (name currency : String) :
    (CentralLedgerFacade.addFspCurrency name currency).Within (·.isLedger) := by
  refine Within.tryCatch ?_ fun _ => trivial
  refine Within.answered (by rfl) ?_
  intro participant
  refine (resolvePositionAccount_within name currency participant).bind ?_
  intro account
  refine Within.answered (by rfl) ?_
  exact fun _ => ⟨rfl, fun _ => trivial⟩

theorem addFspCurrencies_within (name : String) (currencies : List String) :
    (CentralLedgerFacade.addFspCurrencies name currencies).Within (·.isLedger) := by
  induction currencies with
  | nil => trivial
  | cons currency rest ih => exact (addFspCurrency_within name currency).bind fun _ => ih

theorem registerEndpointTypes_within (name endpoint : String)
    (definitions : List CentralLedgerEndpointDefinition) :
    (CentralLedgerFacade.registerEndpointTypes name endpoint definitions).Within (·.isLedger) := by
  induction definitions with
  | nil => trivial
  | cons definition rest ih => exact Within.answered (by rfl) fun _ => ih

theorem onboardFsp_within (name : String) (currencies : List String) (endpoint : String) :
    (CentralLedgerFacade.onboardFsp name currencies endpoint).Within (·.isLedger) := by
  refine Within.tryCatch (Within.unless ?_) fun _ => trivial
  refine (addFspCurrencies_within name currencies).bind ?_
  exact fun _ => Within.tryCatch (registerEndpointTypes_within name endpoint _) fun _ => trivial

end Facade

section Provisioner

variable (settings : OnboardSettings) (fspId : String)

theorem readRecord_within :
    (JwsKeyProvisioner.readRecord settings fspId).Within (·.isProvisioning) := by
  unfold JwsKeyProvisioner.readRecord
  refine Within.bind ⟨rfl, fun _ => trivial⟩ ?_
  intro keyRef
  refine Within.bind ⟨rfl, fun _ => trivial⟩ ?_
  intro publicKey
  split
  · exact Within.unless trivial
  · trivial

theorem assertReady_within :
    (JwsKeyProvisioner.assertReady settings fspId).Within (·.isProvisioning) := by
  unfold JwsKeyProvisioner.assertReady
  split
  · exact (readRecord_within settings fspId).bind fun _ => trivial
  · trivial

theorem provisionInVault_within :
    (JwsKeyProvisioner.provisionInVault settings fspId).Within (·.isProvisioning) := by
  unfold JwsKeyProvisioner.provisionInVault
  refine Within.bind ⟨rfl, fun _ => trivial⟩ ?_
  intro keyPair
  exact Within.bind ⟨rfl, fun _ => trivial⟩ fun _ => trivial

theorem provision_within :
    (JwsKeyProvisioner.provision settings fspId).Within (·.isProvisioning) := by
  unfold JwsKeyProvisioner.provision
  split
  · exact (provisionInVault_within settings fspId).bind fun _ => trivial
  · exact (readRecord_within settings fspId).bind fun _ => trivial
  · exact ⟨rfl, fun _ => trivial⟩
  · trivial

end Provisioner

section Jobs

theorem syncEntry_within (result : PeerJwsSyncScheduler.Result) (fspId publicKey : String) :
    (PeerJwsSyncScheduler.syncEntry result fspId publicKey).Within (·.isLocal) := by
  unfold PeerJwsSyncScheduler.syncEntry
  refine Within.bind ⟨rfl, fun _ => trivial⟩ ?_
  rintro (_ | existing)
  · exact Within.bind ⟨rfl, fun _ => trivial⟩ fun _ => trivial
  · dsimp only
    split
    · trivial
    · split
      · trivial
      · exact Within.bind ⟨rfl, fun _ => trivial⟩ fun _ => trivial

theorem syncEntries_within (entries : List JwsCert) (result : PeerJwsSyncScheduler.Result) :
    (PeerJwsSyncScheduler.syncEntries result entries).Within (·.isLocal) := by
  induction entries generalizing result with
  | nil => trivial
  | cons entry rest ih =>
    unfold PeerJwsSyncScheduler.syncEntries
    cases entry.publicKey with
    | none => exact ih result
    | some publicKey =>
      dsimp only
      split
      · exact ih result
      · exact (syncEntry_within result _ publicKey).bind ih

theorem sync_within : PeerJwsSyncScheduler.sync.Within (·.isLocal) := by
  unfold PeerJwsSyncScheduler.sync
  refine Within.bind ⟨rfl, fun _ => trivial⟩ ?_
  exact fun entries => syncEntries_within entries _

theorem updateJwsPolicy_within (input : UpdateJwsPolicyCommand.Input) :
    (UpdateJwsPolicyHandler.execute input).Within (·.isLocal) := by
  unfold UpdateJwsPolicyHandler.execute
  refine Within.bind ⟨rfl, fun _ => trivial⟩ ?_
  rintro (_ | existing)
  · trivial
  refine Within.unless (Within.unless (Within.bind ?_ ?_))
  · unfold UpdateJwsPolicyHandler.stamped
    split
    · exact ⟨rfl, fun _ => trivial⟩
    · trivial
  · intro entity
    exact Within.bind ⟨rfl, fun _ => trivial⟩ fun _ => trivial

theorem addSigningKeys_within (input : AddSigningKeysCommand.Input) :
    (AddSigningKeysHandler.execute input).Within (·.isLocal) := by
  unfold AddSigningKeysHandler.execute
  refine Within.bind ⟨rfl, fun _ => trivial⟩ ?_
  intro existing
  exact Within.bind ⟨rfl, fun _ => trivial⟩ fun _ => trivial

variable (settings : OnboardSettings)

theorem provisionSigningKey_within (fspId : String) :
    (OnboardFspHandler.provisionSigningKey settings fspId).Within (·.isLocal) := by
  unfold OnboardFspHandler.provisionSigningKey
  refine Within.bind ⟨rfl, fun _ => trivial⟩ ?_
  intro existing
  split
  · trivial
  refine Within.bind ((provision_within settings fspId).mono
    TrustOp.isLocal_of_isProvisioning) ?_
  rintro (_ | provisioned)
  · trivial
  refine Within.bind ⟨rfl, fun _ => trivial⟩ ?_
  intro saved
  split
  · exact ⟨rfl, fun _ => trivial⟩
  · trivial

theorem onboard_within (input : OnboardFspCommand.Input) :
    (OnboardFspHandler.execute settings input).Within (·.isLocal) := by
  unfold OnboardFspHandler.execute
  refine Within.bind ⟨rfl, fun _ => trivial⟩ ?_
  intro existingKey
  have hrest : ∀ _ : Unit, (do
      CentralLedgerFacade.onboardFsp input.name input.currencies input.endpoint
      let existing ← ParticipantRepository.findByName input.name
      let saved ← ParticipantRepository.save
        ⟨(existing.map ParticipantEntity.id).getD 0, input.name, input.accessPublicKey⟩
      OnboardFspHandler.provisionSigningKey settings input.name
      return saved.id : TrustProgram ℕ).Within (·.isLocal) := by
    intro _
    refine Within.bind ((onboardFsp_within _ _ _).mono TrustOp.isLocal_of_isLedger) ?_
    intro _
    refine Within.bind ⟨rfl, fun _ => trivial⟩ ?_
    intro existing
    refine Within.bind ⟨rfl, fun _ => trivial⟩ ?_
    intro saved
    exact (provisionSigningKey_within settings input.name).bind fun _ => trivial
  exact Within.when ((assertReady_within settings input.name).mono
    TrustOp.isLocal_of_isProvisioning) hrest

/-- Only the scheduler that publishes asks for keys and publishes them. -/
theorem TrustJob.within_isLocal {settings : TrustSettings} {job : TrustJob}
    (h : job.isAutomatic = false) : (job.execute settings).Within (·.isLocal) := by
  cases job with
  | reconcile | publishAndEnable _ => cases h
  | sync => exact sync_within.bind fun _ => trivial
  | updateJwsPolicy input => exact (updateJwsPolicy_within input).bind fun _ => trivial
  | addSigningKeys input => exact (addSigningKeys_within input).bind fun _ => trivial
  | onboardFsp input => exact (onboard_within _ input).bind fun _ => trivial
  | land x => exact ⟨rfl, fun _ => trivial⟩
  | replaceJwsKey dfspId publicKey => exact ⟨rfl, fun _ => trivial⟩

end Jobs
end Trust
