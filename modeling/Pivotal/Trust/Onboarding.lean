import Pivotal.Async.Alone
import Pivotal.Trust.Calls

/-! An onboarding that was cut off, and the same onboarding afterwards. The ledger refuses to
create what it has already created. -/
namespace Trust
open Async (Event Monitor Written)
open Async.Program (Ensures Executes Leaves Obeys Succeeds Within Yields lift perform)
open Fspiop (FspiopVerifyMode JsError)
open Participant (ParticipantKey ParticipantKeyRole)

namespace Ledger

variable {l l' l'' : Ledger} {name name' currency currency' : String}

theorem holds_iff : l.Holds name currency ↔ ∃ a ∈ l.accounts, a.1 = name ∧ a.2.currency = currency := by
  constructor
  · rintro ⟨a, ha, hcurrency⟩
    obtain ⟨⟨n, a⟩, hmem, rfl⟩ := List.mem_map.mp ha
    obtain ⟨hmem, hname⟩ := List.mem_filter.mp hmem
    exact ⟨_, hmem, by simpa using hname, hcurrency⟩
  · rintro ⟨⟨n, a⟩, hmem, hname, hcurrency⟩
    refine ⟨a, List.mem_map.mpr ⟨_, List.mem_filter.mpr ⟨hmem, by simpa using hname⟩, rfl⟩, hcurrency⟩

theorem holds_createParticipant {position settlement : ℕ} :
    (l.createParticipant name currency position settlement).Holds name' currency' ↔
      l.Holds name' currency' ∨ name' = name ∧ currency' = currency := by
  simp only [holds_iff, createParticipant, List.mem_append, List.mem_cons, List.not_mem_nil, or_false]
  constructor
  · rintro ⟨a, ha | rfl | rfl, hname, hcurrency⟩
    · exact .inl ⟨a, ha, hname, hcurrency⟩
    · exact .inr ⟨hname.symm, hcurrency.symm⟩
    · exact .inr ⟨hname.symm, hcurrency.symm⟩
  · rintro (⟨a, ha, h⟩ | ⟨rfl, rfl⟩)
    · exact ⟨a, .inl ha, h⟩
    · exact ⟨_, .inr (.inl rfl), rfl, rfl⟩

theorem holds_updateAccount {accountId : ℕ} {isActive : Bool} :
    (l.updateAccount name accountId isActive).Holds name' currency' ↔ l.Holds name' currency' := by
  simp only [holds_iff, updateAccount, List.mem_map]
  constructor
  · rintro ⟨a, ⟨b, hb, rfl⟩, h⟩
    refine ⟨b, hb, ?_⟩
    split at h
    · exact h
    · exact h
  · rintro ⟨b, hb, h⟩
    refine ⟨_, ⟨b, hb, rfl⟩, ?_⟩
    split
    · exact h
    · exact h

/-- Nothing of the currency is there yet. -/
structure Clear (l : Ledger) (name currency : String) : Prop where
  holds : ¬ l.Holds name currency
  position : ¬ l.HasPosition name currency

/-- What is created stays. -/
structure Grows (l l' : Ledger) : Prop where
  holds : ∀ name currency, l.Holds name currency → l'.Holds name currency
  positions : ∀ name currency, l.HasPosition name currency → l'.HasPosition name currency

theorem Grows.refl (l : Ledger) : l.Grows l := ⟨fun _ _ h => h, fun _ _ h => h⟩

theorem Grows.trans (h : l.Grows l') (h' : l'.Grows l'') : l.Grows l'' :=
  ⟨fun n c hl => h'.holds n c (h.holds n c hl), fun n c hl => h'.positions n c (h.positions n c hl)⟩

theorem Grows.clear (h : l.Grows l') (hclear : l'.Clear name currency) : l.Clear name currency :=
  ⟨fun hl => hclear.holds (h.holds _ _ hl), fun hl => hclear.position (h.positions _ _ hl)⟩

theorem grows_createParticipant (l : Ledger) (name currency : String) (position settlement : ℕ) :
    l.Grows (l.createParticipant name currency position settlement) :=
  ⟨fun _ _ h => holds_createParticipant.mpr (.inl h), fun _ _ h => h⟩

theorem grows_updateAccount (l : Ledger) (name : String) (accountId : ℕ) (isActive : Bool) :
    l.Grows (l.updateAccount name accountId isActive) :=
  ⟨fun _ _ h => holds_updateAccount.mpr h, fun _ _ h => h⟩

theorem hasPosition_createPosition {request : PostInitialPositionAndLimitsRequest} :
    (l.createPosition name request).HasPosition name' currency' ↔
      l.HasPosition name' currency' ∨ name' = name ∧ currency' = request.currency := by
  simp only [HasPosition, createPosition, List.mem_append, List.mem_singleton]
  constructor
  · rintro ⟨p, hp | rfl, hname, hcurrency⟩
    · exact .inl ⟨p, hp, hname, hcurrency⟩
    · exact .inr ⟨hname.symm, hcurrency.symm⟩
  · rintro (⟨p, hp, h⟩ | ⟨rfl, rfl⟩)
    · exact ⟨p, .inl hp, h⟩
    · exact ⟨_, .inr rfl, rfl, rfl⟩

theorem grows_createPosition (l : Ledger) (name : String)
    (request : PostInitialPositionAndLimitsRequest) : l.Grows (l.createPosition name request) :=
  ⟨fun _ _ h => h, fun _ _ h => hasPosition_createPosition.mpr (.inl h)⟩

end Ledger

/-- The call has not failed. -/
def TrustOp.Succeeded : (op : TrustOp) → TrustAnswer op → Prop
  | .findByFspId _ _, a => ∃ found, a = .ok found
  | .findAll _, a => ∃ found, a = .ok found
  | .save _, a => ∃ saved, a = .done saved
  | .ensureRegistered _, a => a = .ok ()
  | .getJwsKey _, a => ∃ cert, a = .ok cert
  | .publishJwsKey _ _, a => ∃ cert, a = .done cert
  | .listAllJwsKeys, a => ∃ certs, a = .ok certs
  | .readKvField _ _, a => ∃ value, a = .ok value
  | .writeKvField _ _ _, a => a = .done ()
  | .createParticipant _ _, a => ∃ participant, a = .done participant
  | .getParticipant _, a => ∃ participant, a = .ok participant
  | .updateParticipantAccount _ _ _, a => a = .done ()
  | .createParticipantInitialPositionAndLimits _ _, a => a = .done ()
  | .upsertParticipantEndpoints _ _ _, a => a = .done ()
  | .findByName _, a => ∃ found, a = .ok found
  | .saveParticipant _, a => ∃ saved, a = .done saved
  | _, _ => True

namespace Registry

variable {collate : String → String} {s s' : Registry collate}

/-- The call is refused, whatever else is well. -/
def Refuses (s : Registry collate) : TrustOp → Prop
  | .save entity => ∃ row, s.keys.primary.SavedAs ParticipantKey.withId entity row ∧
    ¬ s.keys.primary.Admits row
  | .saveParticipant entity => ∃ row,
    s.participants.SavedAs ParticipantEntity.withId entity row ∧ ¬ s.participants.Admits row
  | .createParticipant name currency => s.ledger.Holds name currency
  | .createParticipantInitialPositionAndLimits name request =>
    s.ledger.HasPosition name request.currency
  | _ => False

/-- What one call answers and does when nothing fails. -/
def works (s : Registry collate) (op : TrustOp) (a : TrustAnswer op) (s' : Registry collate) : Prop :=
  s.performs op a s' ∧ (s.Refuses op ∨ op.Succeeded a)

theorem works.succeeded {op : TrustOp} {a : TrustAnswer op} (h : s.works op a s')
    (hop : ¬ s.Refuses op) : op.Succeeded a := h.2.resolve_left hop

theorem works_respond (s : Registry collate) (op : TrustOp) :
    s.works op (s.respond op).1 (s.respond op).2 := by
  refine ⟨s.performs_respond op, ?_⟩
  cases op with
  | save entity =>
    by_cases h : s.keys.primary.Admits (s.keys.primary.rowFor ParticipantKey.withId entity)
    · right
      simp only [respond, h, dite_true]
      exact ⟨_, rfl⟩
    · exact .inl ⟨_, s.keys.primary.savedAs_rowFor _ entity, h⟩
  | saveParticipant entity =>
    by_cases h : s.participants.Admits (s.participants.rowFor ParticipantEntity.withId entity)
    · right
      simp only [respond, h, dite_true]
      exact ⟨_, rfl⟩
    · exact .inl ⟨_, s.participants.savedAs_rowFor _ entity, h⟩
  | createParticipant name currency =>
    by_cases h : s.ledger.Holds name currency
    · exact .inl h
    · right
      simp only [respond, h, if_false]
      exact ⟨_, rfl⟩
  | createParticipantInitialPositionAndLimits name request =>
    by_cases h : s.ledger.HasPosition name request.currency
    · exact .inl h
    · right
      simp only [respond, h, if_false]
      exact rfl
  | findByFspId _ _ | findAll _ | getJwsKey _ | publishJwsKey _ _ | listAllJwsKeys | readKvField _ _
    | getParticipant _ | findByName _ => exact .inr ⟨_, rfl⟩
  | ensureRegistered _ | writeKvField _ _ _ | updateParticipantAccount _ _ _
    | upsertParticipantEndpoints _ _ _ => exact .inr rfl
  | now | generateKeyPair | announce _ | land _ | replaceJwsKey _ _ => exact .inr trivial

theorem grows_applies {ε α : Type} (a : Written ε α) (h : s.ledger.Grows s'.ledger) :
    s.ledger.Grows (a.applies s s').ledger := by
  cases a with
  | done _ | lost _ => exact h
  | rejected _ => exact .refl _

theorem grows_of_performs {op : TrustOp} {a : TrustAnswer op} (hp : s.performs op a s') :
    s.ledger.Grows s'.ledger := by
  cases op with
  | findByFspId _ _ | findAll _ | getJwsKey _ | readKvField _ _ | getParticipant _ | findByName _ =>
    rw [show s' = s from hp.1]
    exact .refl _
  | now | ensureRegistered _ | listAllJwsKeys | announce _ =>
    rw [show s' = s from hp]
    exact .refl _
  | save _ =>
    obtain ⟨row, -, ⟨h, rfl, -⟩ | ⟨-, -, rfl⟩⟩ := hp
    · exact grows_applies a (.refl _)
    · exact .refl _
  | saveParticipant _ =>
    obtain ⟨row, -, ⟨h, rfl, -⟩ | ⟨-, -, rfl⟩⟩ := hp
    · exact grows_applies a (.refl _)
    · exact .refl _
  | generateKeyPair =>
    rw [show s' = _ from hp.1]
    exact .refl _
  | writeKvField _ _ _ | publishJwsKey _ _ =>
    rcases hp with rfl | ⟨-, rfl⟩
    · exact grows_applies a (.refl _)
    · exact .refl _
  | createParticipant name currency =>
    simp only [performs] at hp
    split at hp
    · rw [hp.2]
      exact .refl _
    · obtain ⟨position, settlement, -, -, rfl, -⟩ := hp
      exact grows_applies a (s.ledger.grows_createParticipant ..)
  | createParticipantInitialPositionAndLimits name request =>
    simp only [performs] at hp
    split at hp
    · rw [hp.2]
      exact .refl _
    · rw [hp]
      exact grows_applies a (s.ledger.grows_createPosition ..)
  | updateParticipantAccount name accountId isActive =>
    rw [show s' = _ from hp]
    exact grows_applies a (s.ledger.grows_updateAccount ..)
  | upsertParticipantEndpoints _ _ _ =>
    rw [show s' = _ from hp]
    exact grows_applies a ⟨fun _ _ h => h, fun _ _ h => h⟩
  | land x =>
    rw [show s' = _ from hp]
    unfold land
    split
    · cases x <;> exact .refl _
    · exact .refl _
  | replaceJwsKey _ publicKey =>
    rw [show s' = _ from hp]
    cases publicKey <;> exact .refl _

/-- A call to the ledger changes nothing else. -/
structure SameTables (s s' : Registry collate) : Prop where
  keys : s'.keys = s.keys
  participants : s'.participants = s.participants
  vault : s'.vault = s.vault

theorem sameTables_applies {ε α : Type} (a : Written ε α) (h : SameTables s s') :
    SameTables s (a.applies s s') := by
  cases a with
  | done _ | lost _ => exact h
  | rejected _ => exact ⟨rfl, rfl, rfl⟩

theorem sameTables_of_isLedger {op : TrustOp} {a : TrustAnswer op} (hop : op.isLedger = true)
    (hp : s.performs op a s') : SameTables s s' := by
  cases op with
  | getParticipant _ =>
    rw [show s' = s from hp.1]
    exact ⟨rfl, rfl, rfl⟩
  | createParticipant name currency =>
    simp only [performs] at hp
    split at hp
    · rw [hp.2]
      exact ⟨rfl, rfl, rfl⟩
    · obtain ⟨position, settlement, -, -, rfl, -⟩ := hp
      exact sameTables_applies a ⟨rfl, rfl, rfl⟩
  | createParticipantInitialPositionAndLimits name request =>
    simp only [performs] at hp
    split at hp
    · rw [hp.2]
      exact ⟨rfl, rfl, rfl⟩
    · rw [hp]
      exact sameTables_applies a ⟨rfl, rfl, rfl⟩
  | updateParticipantAccount _ _ _ | upsertParticipantEndpoints _ _ _ =>
    rw [show s' = _ from hp]
    exact sameTables_applies a ⟨rfl, rfl, rfl⟩
  | _ => cases hop

end Registry

theorem Registry.grows_yields {α : Type} (p : TrustProgram α) {collate : String → String}
    (s : Registry collate) : p.Yields Registry.performs s fun s' _ => s.ledger.Grows s'.ledger := by
  apply Ensures.mono (Async.Program.ensures_of_step (I := fun s' => s.ledger.Grows s'.ledger) ?_ p
    (.refl _)) fun s' _ hs' _ _ => hs'
  exact fun _ _ _ _ hs' hp => hs'.trans (Registry.grows_of_performs hp)

namespace CentralLedgerFacade

variable {collate : String → String} {s : Registry collate} {name currency : String}

theorem addFspCurrency_yields : (addFspCurrency name currency).Yields Registry.performs s
    fun s' _ => s.ledger.Clear name currency ∧ s'.ledger.Holds name currency ∧
      s.ledger.Grows s'.ledger := by
  apply Yields.rethrow
  apply Yields.answered
  intro a s₁ ha participant hparticipant
  have hgrows₁ := Registry.grows_of_performs ha
  obtain ⟨hholds, hholds₁⟩ : ¬ s.ledger.Holds name currency ∧ s₁.ledger.Holds name currency := by
    simp only [Registry.performs] at ha
    split at ha
    · obtain ⟨⟨e, rfl⟩, -⟩ := ha
      cases hparticipant
    · rename_i hholds
      obtain ⟨position, settlement, -, -, rfl, -⟩ := ha
      cases a with
      | done p => exact ⟨hholds, Ledger.holds_createParticipant.mpr (.inr ⟨rfl, rfl⟩)⟩
      | lost _ | rejected _ => cases hparticipant
  refine (Registry.grows_yields _ s₁).bind ?_
  intro account s₂ hgrows₂
  apply Yields.answered
  intro a s₃ ha _ _
  have hgrows₃ := hgrows₂.trans (Registry.grows_of_performs ha)
  apply Async.Program.yields_answer
  intro a s₄ ha _ ha'
  have hgrows₄ := hgrows₃.trans (Registry.grows_of_performs ha)
  refine ⟨⟨hholds, ?_⟩, hgrows₄.holds _ _ hholds₁, hgrows₁.trans hgrows₄⟩
  simp only [Registry.performs] at ha
  split at ha
  · obtain ⟨⟨e, rfl⟩, -⟩ := ha
    cases ha'
  · rename_i hposition
    exact fun h => hposition ((hgrows₁.trans hgrows₃).positions _ _ h)

theorem addFspCurrencies_yields (currencies : List String) :
    (addFspCurrencies name currencies).Yields Registry.performs s
      fun s' _ => currencies.Nodup ∧ (∀ c ∈ currencies, s.ledger.Clear name c) ∧
        (∀ c ∈ currencies, s'.ledger.Holds name c) ∧ s.ledger.Grows s'.ledger := by
  induction currencies generalizing s with
  | nil => exact Async.Program.yields_pure ⟨List.nodup_nil, by simp, by simp, .refl _⟩
  | cons currency rest ih =>
    refine addFspCurrency_yields.bind ?_
    rintro - s₁ ⟨hclear, hholds, hgrows⟩
    apply ih.mono
    rintro s' - ⟨hnodup, hrest, hheld, hgrows'⟩
    refine ⟨List.nodup_cons.mpr ⟨?_, hnodup⟩, ?_, ?_, hgrows.trans hgrows'⟩
    · exact fun hmem => (hrest currency hmem).holds hholds
    · rw [List.forall_mem_cons]
      exact ⟨hclear, fun c hc => hgrows.clear (hrest c hc)⟩
    · rw [List.forall_mem_cons]
      exact ⟨hgrows'.holds _ _ hholds, hheld⟩

theorem findPositionAccount_isSome {l : Ledger} {participant : CentralLedgerParticipant} {id : ℕ}
    (hmem : (name, ⟨id, positionAccountType, currency, false⟩) ∈ l.accounts)
    (h : participant.accounts = some (l.accountsOf name)) :
    ∃ account, findPositionAccount participant currency = some account := by
  rw [← Option.isSome_iff_exists, findPositionAccount, h, List.find?_isSome]
  refine ⟨⟨id, positionAccountType, currency, false⟩, ?_, by simp⟩
  exact List.mem_map.mpr ⟨_, List.mem_filter.mpr ⟨hmem, by simp⟩, rfl⟩

theorem resolvePositionAccount_succeeds {participant : CentralLedgerParticipant} {id : ℕ}
    (hmem : (name, ⟨id, positionAccountType, currency, false⟩) ∈ s.ledger.accounts)
    (h : participant.accounts = none ∨ participant.accounts = some (s.ledger.accountsOf name)) :
    (resolvePositionAccount name currency participant).Succeeds Registry.works s
      fun s' _ => s' = s := by
  unfold resolvePositionAccount
  cases hfind : findPositionAccount participant currency with
  | some account => exact Async.Program.succeeds_pure rfl
  | none =>
    apply Succeeds.answered
    intro a s' hworks
    obtain ⟨current, rfl⟩ := hworks.succeeded not_false
    obtain ⟨rfl, ha⟩ := hworks.1
    refine ⟨current, rfl, ?_⟩
    obtain ⟨account, haccount⟩ := findPositionAccount_isSome hmem (ha current rfl)
    simp only [haccount]
    exact Async.Program.succeeds_pure rfl

theorem addFspCurrency_succeeds (h : s.ledger.Clear name currency) :
    (addFspCurrency name currency).Succeeds Registry.works s fun s' _ =>
      ∀ c, c ≠ currency → s.ledger.Clear name c → s'.ledger.Clear name c := by
  apply Succeeds.tryCatch
  apply Succeeds.answered
  intro a s₁ hworks
  obtain ⟨participant, rfl⟩ := hworks.succeeded h.holds
  have hp := hworks.1
  simp only [Registry.performs, h.holds, if_false] at hp
  obtain ⟨position, settlement, -, -, rfl, haccounts⟩ := hp
  refine ⟨participant, rfl, ?_⟩
  refine (@resolvePositionAccount_succeeds _ _ _ _ _ position ?_ (haccounts participant rfl)).bind ?_
  · exact List.mem_append_right _ (List.mem_cons_self ..)
  rintro account _ rfl
  apply Succeeds.answered
  intro a s₃ hworks
  obtain rfl := hworks.succeeded not_false
  obtain rfl : s₃ = _ := hworks.1
  refine ⟨(), rfl, ?_⟩
  apply Async.Program.succeeds_answer
  intro a s₄ hworks
  obtain rfl := hworks.succeeded h.position
  have hp := hworks.1
  simp only [Registry.performs] at hp
  rw [if_neg (by exact h.position)] at hp
  obtain rfl : s₄ = _ := hp
  refine ⟨(), rfl, ?_⟩
  intro c hc hclear
  refine ⟨?_, ?_⟩
  · intro hholds
    have hcreated := Ledger.holds_updateAccount.mp hholds
    rcases Ledger.holds_createParticipant.mp hcreated with hheld | ⟨-, rfl⟩
    · exact hclear.holds hheld
    · exact hc rfl
  · intro hposition
    rcases Ledger.hasPosition_createPosition.mp hposition with hheld | ⟨-, rfl⟩
    · exact hclear.position hheld
    · exact hc rfl

theorem addFspCurrencies_succeeds {currencies : List String} (hnodup : currencies.Nodup)
    (h : ∀ c ∈ currencies, s.ledger.Clear name c) :
    (addFspCurrencies name currencies).Succeeds Registry.works s fun _ _ => True := by
  induction currencies generalizing s with
  | nil => exact Async.Program.succeeds_pure trivial
  | cons currency rest ih =>
    rw [List.nodup_cons] at hnodup
    rw [List.forall_mem_cons] at h
    refine (addFspCurrency_succeeds h.1).bind ?_
    intro _ s' hclear
    apply ih hnodup.2
    intro c hc
    apply hclear c ?_ (h.2 c hc)
    rintro rfl
    exact hnodup.1 hc

theorem registerEndpointTypes_succeeds (endpoint : String)
    (definitions : List CentralLedgerEndpointDefinition) :
    (registerEndpointTypes name endpoint definitions).Succeeds Registry.works s
      fun _ _ => True := by
  induction definitions generalizing s with
  | nil => exact Async.Program.succeeds_pure trivial
  | cons definition rest ih =>
    apply Succeeds.answered
    intro a s' hworks
    obtain rfl := hworks.succeeded not_false
    exact ⟨(), rfl, ih⟩

theorem onboardFsp_succeeds {currencies : List String} (endpoint : String)
    (hne : currencies ≠ []) (hnodup : currencies.Nodup)
    (h : ∀ c ∈ currencies, s.ledger.Clear name c) :
    (onboardFsp name currencies endpoint).Succeeds Registry.works s fun _ _ => True := by
  apply Succeeds.tryCatch
  simp only [List.isEmpty_iff, hne, if_false]
  refine (addFspCurrencies_succeeds hnodup h).bind ?_
  intro _ s' _
  exact Succeeds.tryCatch (registerEndpointTypes_succeeds endpoint _)

end CentralLedgerFacade

/-- A tenant can be given a key, and the rows have identifiers. -/
structure Ready (settings : OnboardSettings) (fspId : String) {collate : String → String}
    (s : Registry collate) : Prop where
  keys : ∀ k ∈ s.rows, k.id ≠ 0
  participants : ∀ p ∈ s.participants.rows, p.id ≠ 0
  record : settings.keyProvider = .pkcs11 → ∃ keyRef publicKeyPem,
    s.vault.get (JwsKeyProvisioner.keyRefPath settings fspId, JwsKeyProvisioner.keyRefField) =
      some keyRef ∧
    s.vault.get (JwsKeyProvisioner.keyRefPath settings fspId, JwsKeyProvisioner.publicKeyField) =
      some publicKeyPem ∧ settings.createPublicKey publicKeyPem = true

section Provision

variable {settings : OnboardSettings} {fspId : String} {collate : String → String}
  {s s' : Registry collate}

theorem Ready.congr (h : Ready settings fspId s) (hsame : Registry.SameTables s s') :
    Ready settings fspId s' where
  keys := by
    rw [Registry.rows, hsame.keys]
    exact h.keys
  participants := by
    rw [hsame.participants]
    exact h.participants
  record := by
    rw [hsame.vault]
    exact h.record

theorem readKvField_succeeds (path field : String) :
    (VaultClient.readKvField path field).Succeeds Registry.works s
      fun s' value => s' = s ∧ value = s.vault.get (path, field) := by
  apply Async.Program.succeeds_answer
  intro a s' hworks
  obtain ⟨value, rfl⟩ := hworks.succeeded not_false
  exact ⟨value, rfl, hworks.1.1, hworks.1.2 value rfl⟩

theorem readRecord_succeeds (h : Ready settings fspId s) (hhsm : settings.keyProvider = .pkcs11) :
    (JwsKeyProvisioner.readRecord settings fspId).Succeeds Registry.works s
      fun s' _ => s' = s := by
  obtain ⟨keyRef, publicKeyPem, hkeyRef, hpublicKey, hvalid⟩ := h.record hhsm
  refine (readKvField_succeeds _ _).bind ?_
  rintro _ _ ⟨rfl, rfl⟩
  refine (readKvField_succeeds _ _).bind ?_
  rintro _ _ ⟨rfl, rfl⟩
  simp only [hkeyRef, hpublicKey, Option.bind_some, hvalid, Bool.not_true, Bool.false_eq_true,
    if_false]
  exact Async.Program.succeeds_pure rfl

theorem assertReady_succeeds (h : Ready settings fspId s) :
    (JwsKeyProvisioner.assertReady settings fspId).Succeeds Registry.works s
      fun s' _ => s' = s := by
  unfold JwsKeyProvisioner.assertReady
  split
  · rename_i hhsm
    refine (readRecord_succeeds h hhsm).bind ?_
    exact fun _ _ hs => Async.Program.succeeds_pure hs
  · exact Async.Program.succeeds_pure rfl

theorem provisionInVault_succeeds :
    (JwsKeyProvisioner.provisionInVault settings fspId).Succeeds Registry.works s
      fun s' _ => s'.keys = s.keys := by
  unfold JwsKeyProvisioner.provisionInVault
  apply Succeeds.bind (P := fun s' _ => s'.keys = s.keys)
  · intro keyPair s₁ hworks
    obtain rfl : s₁ = _ := hworks.1.1
    exact ⟨keyPair, rfl, rfl⟩
  intro keyPair s₁ hs₁
  apply Succeeds.bind (P := fun s' _ => s'.keys = s.keys)
  · apply Async.Program.succeeds_answer
    intro a s' hworks
    obtain rfl := hworks.succeeded not_false
    refine ⟨(), rfl, ?_⟩
    rcases hworks.1 with rfl | ⟨hrejected, -⟩
    · exact hs₁
    · cases hrejected
  · exact fun _ _ hs => Async.Program.succeeds_pure hs

theorem provision_succeeds (h : Ready settings fspId s) :
    (JwsKeyProvisioner.provision settings fspId).Succeeds Registry.works s
      fun s' _ => s'.keys = s.keys := by
  unfold JwsKeyProvisioner.provision
  split
  · refine provisionInVault_succeeds.bind ?_
    exact fun _ _ hs => Async.Program.succeeds_pure hs
  · rename_i hhsm
    refine (readRecord_succeeds h hhsm).bind ?_
    rintro _ _ rfl
    exact Async.Program.succeeds_pure rfl
  · intro keyPair s₁ hworks
    obtain rfl : s₁ = _ := hworks.1.1
    exact ⟨_, rfl, rfl⟩
  · exact Async.Program.succeeds_pure rfl

theorem findByFspId_succeeds (s : Registry collate) :
    (ParticipantKeyRepository.findByFspId fspId .write).Succeeds Registry.works s
      fun s' found => s' = s ∧ found = s.keys.primary.findBy (collate fspId) := by
  apply Async.Program.succeeds_answer
  intro a s' hworks
  obtain ⟨found, rfl⟩ := hworks.succeeded not_false
  obtain ⟨t, ht, hfound⟩ := hworks.1.2 found rfl
  obtain rfl : t = _ := ht
  exact ⟨found, rfl, hworks.1.1, hfound⟩

theorem provisionSigningKey_succeeds (h : Ready settings fspId s) :
    (OnboardFspHandler.provisionSigningKey settings fspId).Succeeds Registry.works s
      fun _ _ => True := by
  refine (findByFspId_succeeds s).bind ?_
  rintro existing _ ⟨rfl, rfl⟩
  split
  · exact Async.Program.succeeds_pure trivial
  refine (provision_succeeds h).bind ?_
  rintro (_ | provisioned) s₁ hkeys
  · exact Async.Program.succeeds_pure trivial
  have hrows : ∀ k ∈ s₁.keys.primary.rows, k.id ≠ 0 := by
    rw [hkeys]
    exact h.keys
  apply Succeeds.bind (P := fun _ _ => True)
  · apply Async.Program.succeeds_answer
    intro a s₂ hworks
    obtain ⟨saved, rfl⟩ := hworks.succeeded (by
      rintro ⟨row, hrow, hadmits⟩
      apply hadmits
      apply Store.Indexed.SavedAs.admits ParticipantKey.withId (fun _ _ => rfl) hrows ?_ hrow
      rw [hkeys]
      rfl)
    exact ⟨saved, rfl, trivial⟩
  · intro saved s₂ _
    split
    · exact fun _ _ _ => ⟨(), rfl, trivial⟩
    · exact Async.Program.succeeds_pure trivial

/-- What the ledger must be like for an onboarding of these currencies. -/
structure Openable (l : Ledger) (name : String) (currencies : List String) : Prop where
  nonempty : currencies ≠ []
  nodup : currencies.Nodup
  clear : ∀ c ∈ currencies, l.Clear name c

theorem findByName_succeeds {name : String} (s : Registry collate) :
    (ParticipantRepository.findByName name).Succeeds Registry.works s
      fun s' found => s' = s ∧ found = s.participants.findBy (collate name) := by
  apply Async.Program.succeeds_answer
  intro a s' hworks
  obtain ⟨found, rfl⟩ := hworks.succeeded not_false
  exact ⟨found, rfl, hworks.1.1, hworks.1.2 found rfl⟩

theorem saveParticipant_succeeds (h : Ready settings fspId s) {name accessPublicKey : String} :
    (ParticipantRepository.save ⟨((s.participants.findBy (collate name)).map
      ParticipantEntity.id).getD 0, name, accessPublicKey⟩).Succeeds Registry.works s
      fun s' _ => Ready settings fspId s' := by
  apply Async.Program.succeeds_answer
  intro a s' hworks
  obtain ⟨saved, rfl⟩ := hworks.succeeded (by
    rintro ⟨row, hrow, hadmits⟩
    exact hadmits (Store.Indexed.SavedAs.admits ParticipantEntity.withId (fun _ _ => rfl)
      h.participants rfl hrow))
  refine ⟨saved, rfl, ?_⟩
  obtain ⟨row, hrow, ⟨hadmits, rfl, -⟩ | ⟨-, ⟨e, ⟨⟩⟩, -⟩⟩ := hworks.1
  refine ⟨h.keys, ?_, h.record⟩
  intro p hp
  rcases (Store.Indexed.mem_put (h := hadmits)).mp hp with rfl | ⟨hp, -⟩
  · exact hrow.key_ne_zero fun _ _ => rfl
  · exact h.participants p hp

/-- With nothing failing, an onboarding of currencies that the ledger does not have succeeds. -/
theorem onboard_succeeds {input : OnboardFspCommand.Input} (hready : Ready settings input.name s)
    (hopenable : Openable s.ledger input.name input.currencies) :
    (OnboardFspHandler.execute settings input).Succeeds Registry.works s fun _ _ => True := by
  have hledger : (CentralLedgerFacade.onboardFsp input.name input.currencies
      input.endpoint).Succeeds Registry.works s fun s' _ => Ready settings input.name s' := by
    have hkeeps := (onboardFsp_within input.name input.currencies input.endpoint).ensures
      (E := Registry.works) (fun _ _ _ _ hop hs hworks => Ready.congr hs
        (Registry.sameTables_of_isLedger hop hworks.1)) hready
    apply Ensures.mono ((CentralLedgerFacade.onboardFsp_succeeds input.endpoint hopenable.nonempty
      hopenable.nodup hopenable.clear).and hkeeps)
    rintro s' r ⟨⟨_, rfl, -⟩, hs'⟩
    exact ⟨(), rfl, hs'⟩
  have hrest : (do
      CentralLedgerFacade.onboardFsp input.name input.currencies input.endpoint
      let existing ← ParticipantRepository.findByName input.name
      let saved ← ParticipantRepository.save
        ⟨(existing.map ParticipantEntity.id).getD 0, input.name, input.accessPublicKey⟩
      OnboardFspHandler.provisionSigningKey settings input.name
      return saved.id : TrustProgram ℕ).Succeeds Registry.works s fun _ _ => True := by
    refine hledger.bind ?_
    intro _ s₁ hready₁
    refine (findByName_succeeds s₁).bind ?_
    rintro existing _ ⟨rfl, rfl⟩
    refine (saveParticipant_succeeds hready₁).bind ?_
    intro saved s₂ hready₂
    refine (provisionSigningKey_succeeds hready₂).bind ?_
    exact fun _ _ _ => Async.Program.succeeds_pure trivial
  refine (findByFspId_succeeds s).bind ?_
  rintro existingKey s' ⟨hs', -⟩
  rw [hs']
  split
  · refine (assertReady_succeeds hready).bind ?_
    rintro _ s' hs'
    rw [hs']
    exact hrest
  · exact hrest

theorem onboardFsp_yields {name endpoint : String} {currencies : List String} :
    (CentralLedgerFacade.onboardFsp name currencies endpoint).Yields Registry.performs s
      fun s' _ => Openable s.ledger name currencies ∧ ∀ c ∈ currencies, s'.ledger.Holds name c := by
  apply Yields.rethrow
  apply Async.Program.yields_unless
  intro hne
  refine (CentralLedgerFacade.addFspCurrencies_yields currencies).bind ?_
  rintro _ s₁ ⟨hnodup, hclear, hheld, -⟩
  apply Yields.rethrow
  apply (Registry.grows_yields _ s₁).mono
  intro s' _ hgrows
  exact ⟨⟨by simpa using hne, hnodup, hclear⟩, fun c hc => hgrows.holds _ _ (hheld c hc)⟩

/-- An onboarding that succeeds found none of its currencies, and leaves them all. -/
theorem onboard_yields {input : OnboardFspCommand.Input} (s : Registry collate) :
    (OnboardFspHandler.execute settings input).Yields Registry.performs s
      fun s' _ => Openable s.ledger input.name input.currencies ∧
        ∀ c ∈ input.currencies, s'.ledger.Holds input.name c := by
  have hrest : ∀ s₁ : Registry collate, s.ledger.Grows s₁.ledger → (do
      CentralLedgerFacade.onboardFsp input.name input.currencies input.endpoint
      let existing ← ParticipantRepository.findByName input.name
      let saved ← ParticipantRepository.save
        ⟨(existing.map ParticipantEntity.id).getD 0, input.name, input.accessPublicKey⟩
      OnboardFspHandler.provisionSigningKey settings input.name
      return saved.id : TrustProgram ℕ).Yields Registry.performs s₁ fun s' _ =>
        Openable s.ledger input.name input.currencies ∧
          ∀ c ∈ input.currencies, s'.ledger.Holds input.name c := by
    intro s₁ hgrows₁
    refine onboardFsp_yields.bind ?_
    rintro _ s₂ ⟨hopenable, hheld⟩
    apply (Registry.grows_yields _ s₂).mono
    intro s' _ hgrows
    refine ⟨⟨hopenable.nonempty, hopenable.nodup, ?_⟩, ?_⟩
    · exact fun c hc => hgrows₁.clear (hopenable.clear c hc)
    · exact fun c hc => hgrows.holds _ _ (hheld c hc)
  refine (Registry.grows_yields _ s).bind ?_
  intro existingKey s₁ hgrows₁
  split
  · refine (Registry.grows_yields _ s₁).bind ?_
    exact fun _ s₂ hgrows₂ => hrest s₂ (hgrows₁.trans hgrows₂)
  · exact hrest s₁ hgrows₁

end Provision

/-! Up to the creation of the first currency nothing is changed. -/

section Begun

variable {α : Type} {name currency : String}

/-- Whether the ledger has been asked to create a currency, and has not refused. -/
def begunNext (b : Bool) : (op : TrustOp) → TrustAnswer op → Bool
  | .createParticipant _ _, a => b || !a.isRejected
  | _, _ => b

/-- A call that reads the registry or Vault. -/
def TrustOp.isLookup : TrustOp → Bool
  | .findByFspId _ _ => true
  | .readKvField _ _ => true
  | _ => false

def begun (name currency : String) : Monitor TrustOp TrustAnswer Bool where
  next := begunNext
  allows b op := b = true ∨ op.isLookup = true ∨ op = .createParticipant name currency

theorem obeys_begun (p : TrustProgram α) : p.Obeys (begun name currency) true fun b _ => b = true := by
  induction p with
  | done r => rfl
  | call op resume ih =>
    refine ⟨.inl rfl, fun a => ?_⟩
    have hnext : (begun name currency).next true op a = true := by cases op <;> rfl
    rw [hnext]
    exact ih a

theorem obeys_lookups {p : TrustProgram α} (h : p.Within (·.isLookup)) :
    p.Obeys (begun name currency) false fun b _ => b = false := by
  refine Within.keeps (R := fun b => b = false) h ?_ false rfl
  rintro b op rfl hop
  refine ⟨.inr (.inl hop), fun a => ?_⟩
  cases op <;> first | rfl | cases hop

theorem obeys_addFspCurrency : (CentralLedgerFacade.addFspCurrency name currency).Obeys
    (begun name currency) false fun b r => ∀ x, r = .ok x → b = true := by
  refine ⟨.inr (.inr rfl), fun a => ?_⟩
  cases a with
  | done p => exact Obeys.mono (obeys_begun _) fun _ _ h _ _ => h
  | lost e => exact Obeys.mono (obeys_begun _) fun _ _ h _ _ => h
  | rejected e => rintro _ ⟨⟩

theorem obeys_onboardFsp {endpoint : String} (rest : List String) :
    (CentralLedgerFacade.onboardFsp name (currency :: rest) endpoint).Obeys (begun name currency)
      false fun b r => ∀ x, r = .ok x → b = true := by
  rw [CentralLedgerFacade.onboardFsp, Async.Program.obeys_tryCatch]
  simp only [List.isEmpty_cons, Bool.false_eq_true, if_false]
  have hbody : (do
      CentralLedgerFacade.addFspCurrencies name (currency :: rest)
      CentralLedgerFacade.registerEndpoints name endpoint : TrustProgram Unit).Obeys
      (begun name currency) false fun b r => ∀ x, r = .ok x → b = true := by
    refine Obeys.andThen (T := fun b _ => b = true) ?_ ?_ ?_
    · refine obeys_addFspCurrency.andThen ?_ ?_
      · rintro _ _ rfl
        exact Obeys.mono (obeys_begun _) fun _ _ h _ _ => h
      · rintro e b _ ⟨⟩
    · rintro _ _ rfl
      exact Obeys.mono (obeys_begun _) fun _ _ h _ _ => h
    · rintro e b _ ⟨⟩
  apply Obeys.mono hbody
  rintro b (e | x) h
  · rintro _ ⟨⟩
  · exact h

theorem assertReady_lookups (settings : OnboardSettings) (fspId : String) :
    (JwsKeyProvisioner.assertReady settings fspId).Within (·.isLookup) := by
  unfold JwsKeyProvisioner.assertReady
  split
  · refine Within.bind ?_ fun _ => trivial
    unfold JwsKeyProvisioner.readRecord
    refine Within.bind ⟨rfl, fun _ => trivial⟩ ?_
    intro keyRef
    refine Within.bind ⟨rfl, fun _ => trivial⟩ ?_
    intro publicKey
    split
    · exact Within.unless trivial
    · trivial
  · trivial

theorem obeys_onboard (settings : OnboardSettings) {input : OnboardFspCommand.Input}
    {rest : List String} (h : input.currencies = currency :: rest) :
    (OnboardFspHandler.execute settings input).Obeys (begun input.name currency) false
      fun _ _ => True := by
  have hrest : (do
      CentralLedgerFacade.onboardFsp input.name input.currencies input.endpoint
      let existing ← ParticipantRepository.findByName input.name
      let saved ← ParticipantRepository.save
        ⟨(existing.map ParticipantEntity.id).getD 0, input.name, input.accessPublicKey⟩
      OnboardFspHandler.provisionSigningKey settings input.name
      return saved.id : TrustProgram ℕ).Obeys (begun input.name currency) false fun _ _ => True := by
    rw [h]
    refine Obeys.andThen (T := fun b _ => b = true) ?_ ?_ fun _ _ => trivial
    · exact obeys_onboardFsp rest
    · rintro _ _ rfl
      exact Obeys.mono (obeys_begun _) fun _ _ _ => trivial
  refine Obeys.seq (R := fun b => b = false) (obeys_lookups ⟨rfl, fun _ => trivial⟩) ?_
    fun _ _ _ => trivial
  rintro existingKey _ rfl
  split
  · refine (obeys_lookups (assertReady_lookups settings input.name)).seq ?_ fun _ _ _ => trivial
    rintro _ _ rfl
    exact hrest
  · exact hrest

variable {settings : OnboardSettings} {collate : String → String} {s s' : Registry collate}

theorem unchanged_of_isLookup {op : TrustOp} {a : TrustAnswer op} (hop : op.isLookup = true)
    (hp : s.performs op a s') : s' = s := by
  cases op with
  | findByFspId _ _ | readKvField _ _ => exact hp.1
  | _ => cases hop

/-- The currency is there, or nothing has happened. -/
structure Begun (s : Registry collate) (name currency : String) (b : Bool)
    (s' : Registry collate) : Prop where
  held : b = true → s'.ledger.Holds name currency
  unchanged : b = false → s' = s

theorem Begun.step {s₁ s₂ : Registry collate} {b : Bool} {op : TrustOp} {a : TrustAnswer op}
    (h : Begun s name currency b s₁) (hallowed : (begun name currency).allows b op)
    (hp : s₁.performs op a s₂) :
    Begun s name currency ((begun name currency).next b op a) s₂ := by
  cases b with
  | true =>
    have hnext : (begun name currency).next true op a = true := by cases op <;> rfl
    rw [hnext]
    exact ⟨fun _ => (Registry.grows_of_performs hp).holds _ _ (h.held rfl), by simp⟩
  | false =>
    rcases hallowed with ⟨⟨⟩⟩ | hlookup | rfl
    · have hnext : (begun name currency).next false op a = false := by
        cases op <;> first | rfl | cases hlookup
      rw [hnext]
      exact ⟨by simp, fun _ => (unchanged_of_isLookup hlookup hp).trans (h.unchanged rfl)⟩
    · simp only [Registry.performs] at hp
      split at hp
      · obtain ⟨⟨e, rfl⟩, rfl⟩ := hp
        exact ⟨by simp [begun, begunNext, Written.isRejected], fun _ => h.unchanged rfl⟩
      · obtain ⟨position, settlement, -, -, rfl, -⟩ := hp
        have hheld : (s₁.ledger.createParticipant name currency position settlement).Holds name
            currency := Ledger.holds_createParticipant.mpr (.inr ⟨rfl, rfl⟩)
        cases a with
        | done p => exact ⟨fun _ => hheld, by simp [begun, begunNext, Written.isRejected]⟩
        | lost e => exact ⟨fun _ => hheld, by simp [begun, begunNext, Written.isRejected]⟩
        | rejected e => exact ⟨by simp [begun, begunNext, Written.isRejected], fun _ => h.unchanged rfl⟩

/-- An onboarding that has left none of its currencies has changed nothing. -/
theorem unchanged_of_openable {input : OnboardFspCommand.Input}
    (h : (OnboardFspHandler.execute settings input).Leaves Registry.performs s s')
    (hopenable : Openable s'.ledger input.name input.currencies) : s' = s := by
  cases hcurrencies : input.currencies with
  | nil => exact absurd hcurrencies hopenable.nonempty
  | cons currency rest =>
    obtain ⟨b, hb⟩ := h.invariant (I := Begun s input.name currency)
      (obeys_onboard settings hcurrencies) ⟨nofun, fun _ => rfl⟩
      fun _ _ _ _ _ hs hallowed hp => hs.step hallowed hp
    cases b with
    | true =>
      have hclear := hopenable.clear currency (by rw [hcurrencies]; exact List.mem_cons_self ..)
      exact absurd (hb.held rfl) hclear.holds
    | false => exact hb.unchanged rfl

end Begun

/-- The same command again, with nothing failing, succeeds, and as if it had never failed. -/
def Completes (settings : OnboardSettings) (input : OnboardFspCommand.Input)
    {collate : String → String} (s s' : Registry collate) : Prop :=
  ∀ r s'', (OnboardFspHandler.execute settings input).Executes Registry.works s' r s'' →
    (∃ id, r = .ok id) ∧ (OnboardFspHandler.execute settings input).Executes Registry.works s r s''

/-- The same command again, with nothing failing, succeeds, and the endpoints are the new ones. -/
def ReplacesEndpoint (settings : OnboardSettings) (input : OnboardFspCommand.Input)
    {collate : String → String} (s : Registry collate) : Prop :=
  ∀ r s', (OnboardFspHandler.execute settings input).Executes Registry.works s r s' →
    (∃ id, r = .ok id) ∧ ∀ definition ∈ participantEndpointTypes,
      s'.ledger.endpoints.get (input.name, definition.type) =
        some (CentralLedgerFacade.buildEndpointValue input.endpoint definition.path)

/-- When an onboarding that was cut off is completed by repeating it, and that an onboarding that
was completed cannot be repeated. -/
theorem onboarding_again {settings : OnboardSettings} {collate : String → String}
    (s s' : Registry collate) (input : OnboardFspCommand.Input)
    (hready : Ready settings input.name s') :
    ((OnboardFspHandler.execute settings input).Leaves Registry.performs s s' →
      (Completes settings input s s' ↔ Openable s'.ledger input.name input.currencies)) ∧
    ∀ id, (OnboardFspHandler.execute settings input).Executes Registry.performs s (.ok id) s' →
      ∀ endpoint, ¬ ReplacesEndpoint settings { input with endpoint := endpoint } s' := by
  have hworks : ∀ (s : Registry collate) op a s', s.works op a s' → s.performs op a s' :=
    fun _ _ _ _ h => h.1
  constructor
  · intro hleaves
    constructor
    · intro h
      have hrun := Async.Program.executes_solo Registry.works_respond
        (OnboardFspHandler.execute settings input) s' []
      obtain ⟨⟨id, hid⟩, -⟩ := h _ _ hrun
      rw [hid] at hrun
      exact ((onboard_yields s').of_executes (hrun.mono hworks)).1
    · intro h r s'' hrun
      obtain rfl := unchanged_of_openable hleaves h
      obtain ⟨id, hid, -⟩ := Ensures.of_executes (onboard_succeeds hready h) hrun
      exact ⟨⟨id, hid⟩, hrun⟩
  · intro id hdone endpoint h
    obtain ⟨hopenable, hheld⟩ := (onboard_yields s).of_executes hdone
    have hrun := Async.Program.executes_solo Registry.works_respond
      (OnboardFspHandler.execute settings { input with endpoint := endpoint }) s' []
    obtain ⟨⟨id', hid⟩, -⟩ := h _ _ hrun
    rw [hid] at hrun
    obtain ⟨c, hc⟩ := List.exists_mem_of_ne_nil _ hopenable.nonempty
    have hclear := ((onboard_yields s').of_executes (hrun.mono hworks)).1.clear c hc
    exact hclear.holds (hheld c hc)

/-! Two currencies for an FSP that nobody knows. -/

def sampleOnboarding : OnboardFspCommand.Input := ⟨"a", ["USD", "MMK"], "https://a/", "pem"⟩

def sampleVault : OnboardSettings := sampleTrustSettings.toOnboardSettings

def sampleEmpty : Registry sampleTrustSettings.collate where
  keys := .initial .empty
  participants := .empty
  mcm := .empty
  vault := .empty
  late := []
  keyPairs := []
  ledger := ⟨[], [], .empty⟩

theorem sampleEmpty_ready : Ready sampleVault "a" sampleEmpty where
  keys := nofun
  participants := nofun
  record := nofun

/-- The ledger refuses a new participant. -/
def closed (s : Registry collate) : (op : TrustOp) → TrustAnswer op × Registry collate
  | .createParticipant _ _ => (.rejected Registry.refused, s)
  | op => s.respond op

theorem performs_closed (s : Registry collate) (op : TrustOp) :
    s.performs op (closed s op).1 (closed s op).2 := by
  unfold closed
  split
  · simp only [Registry.performs]
    split
    · exact ⟨⟨_, rfl⟩, trivial⟩
    · refine ⟨s.nextAccountId, s.nextAccountId + 1, ?_, Nat.succ_ne_self _ |>.symm, rfl, ?_⟩
      · intro x hx
        have hid := s.lt_nextAccountId hx
        omega
      · rintro p ⟨⟩
  · exact s.performs_respond _

/-- An onboarding whose first call was refused is completed by repeating it. -/
theorem onboarding_again_sample :
    let failed := (OnboardFspHandler.execute sampleVault sampleOnboarding).solo closed sampleEmpty []
    failed.2.2.isOk = false ∧ Completes sampleVault sampleOnboarding sampleEmpty failed.1 := by
  intro failed
  have hsame : failed.1 = sampleEmpty := by
    rfl
  have hleaves := (Async.Program.executes_solo performs_closed
    (OnboardFspHandler.execute sampleVault sampleOnboarding) sampleEmpty []).leaves
  refine ⟨by decide +kernel, ?_⟩
  refine ((onboarding_again sampleEmpty failed.1 sampleOnboarding ?_).1 hleaves).mpr ?_
  · exact hsame ▸ sampleEmpty_ready
  · rw [hsame]
    exact ⟨by decide, by decide, fun _ _ => ⟨nofun, nofun⟩⟩

/-- The ledger refuses to make an account active. -/
def refusing (s : Registry collate) : (op : TrustOp) → TrustAnswer op × Registry collate
  | .updateParticipantAccount _ _ _ => (.rejected Registry.refused, s)
  | op => s.respond op

theorem performs_refusing (s : Registry collate) (op : TrustOp) :
    s.performs op (refusing s op).1 (refusing s op).2 := by
  unfold refusing
  split
  · rfl
  · exact s.performs_respond _

/-- The second call of an onboarding fails, and then nothing does. -/
theorem not_onboarding_again :
    ¬ ∀ (s s' : Registry sampleTrustSettings.collate) (input : OnboardFspCommand.Input),
      Ready sampleVault input.name s' →
      (OnboardFspHandler.execute sampleVault input).Leaves Registry.performs s s' →
      Completes sampleVault input s s' := by
  intro h
  have hfailed := (Async.Program.executes_solo performs_refusing
    (OnboardFspHandler.execute sampleVault sampleOnboarding) sampleEmpty []).leaves
  have hrun := Async.Program.executes_solo Registry.works_respond
    (OnboardFspHandler.execute sampleVault sampleOnboarding)
    ((OnboardFspHandler.execute sampleVault sampleOnboarding).solo refusing sampleEmpty []).1 []
  obtain ⟨⟨id, hid⟩, -⟩ := h _ _ sampleOnboarding
    ⟨by decide +kernel, by decide +kernel, nofun⟩ hfailed _ _ hrun
  have herror : ((OnboardFspHandler.execute sampleVault sampleOnboarding).solo Registry.respond
      ((OnboardFspHandler.execute sampleVault sampleOnboarding).solo refusing sampleEmpty []).1
      []).2.2.isOk = false := by
    decide +kernel
  rw [hid] at herror
  cases herror

end Trust
