import Pivotal.Trust.Copies

/-! The private half of a tenant's key in Vault, beside the public half in its row. -/
namespace Trust
open Async (Config Label System Written)
open Fspiop (JsError)
open Participant (ParticipantKey)
open OnboardFspHandler (holdsKey)

variable {collate : String → String} (settings : OnboardSettings) (name : String)

namespace Registry

/-- The secret of a participant. -/
def secret (s : Registry collate) : Option String :=
  s.vault.get (JwsKeyProvisioner.jwsKeyPath settings name, JwsKeyProvisioner.privateKeyField)

/-- The secret was generated together with the public key. -/
def Paired (s : Registry collate) (publicKey : Option String) : Prop :=
  ∃ pair ∈ s.keyPairs, publicKey = some pair.publicKey ∧ s.secret settings name = some pair.privateKey

instance (s : Registry collate) (publicKey : Option String) :
    Decidable (s.Paired settings name publicKey) :=
  inferInstanceAs (Decidable (∃ pair ∈ s.keyPairs, _))

/-- Some row of the participant holds a key. -/
def Holding (s : Registry collate) : Prop :=
  ∃ row ∈ s.rows, collate row.fspId = collate name ∧ holdsKey (some row) = true

instance (s : Registry collate) : Decidable (s.Holding name) :=
  inferInstanceAs (Decidable (∃ row ∈ s.rows, _))

/-- A row that holds a key is a tenant's, with its secret. A tenant's row without one has nothing to
sign with, and does not sign. -/
def Provided (s : Registry collate) (row : ParticipantKey) : Prop :=
  if holdsKey (some row) = true then row.role = .self ∧ s.Paired settings name row.jwsPublicKey
  else row.role = .self → row.jwsPublicKey = none ∧ row.jwsSignEnabled = false

/-- So it is for every row of the participant. -/
def Provides (s : Registry collate) : Prop :=
  ∀ row ∈ s.rows, collate row.fspId = collate name → s.Provided settings name row

variable {settings name} {s s' : Registry collate}

/-- What is kept of a participant that holds a key. -/
structure Keeps (settings : OnboardSettings) (name : String) (s s' : Registry collate) : Prop where
  holding : s.Holding name → s'.Holding name
  secret : s.Holding name → s'.secret settings name = s.secret settings name
  keyPairs : ∀ pair ∈ s.keyPairs, pair ∈ s'.keyPairs

theorem Provided.keeps {row : ParticipantKey} (h : s.Provided settings name row)
    (hs : s.Keeps settings name s') (hrow : holdsKey (some row) = true → s.Holding name) :
    s'.Provided settings name row := by
  unfold Provided at h ⊢
  split
  · rename_i hholds
    rw [if_pos hholds] at h
    obtain ⟨hrole, pair, hpair, hkey, hsecret⟩ := h
    exact ⟨hrole, pair, hs.keyPairs pair hpair, hkey, (hs.secret (hrow hholds)).trans hsecret⟩
  · rename_i hholds
    rwa [if_neg hholds] at h

/-- A tenant's row with a key that is not null holds one. -/
theorem Provided.of_tenantKey {row : ParticipantKey} {publicKey : String}
    (h : s.Provided settings name row) (hkey : JwsKeyPublishScheduler.tenantKey row = some publicKey) :
    holdsKey (some row) = true ∧ row.role = .self ∧ s.Paired settings name row.jwsPublicKey := by
  unfold JwsKeyPublishScheduler.tenantKey at hkey
  split at hkey
  · rename_i hself
    unfold Provided at h
    split at h
    · rename_i hholds
      exact ⟨hholds, h⟩
    · rw [(h hself).1] at hkey
      cases hkey
  · cases hkey

/-! What a call leaves of the secrets and of the pairs. -/

theorem keyPairs_of_performs {op : TrustOp} {a : TrustAnswer op} (hp : s.performs op a s') :
    ∀ pair ∈ s.keyPairs, pair ∈ s'.keyPairs := by
  intro pair hpair
  cases op with
  | save entity =>
    rcases hp with ⟨row, -, ⟨h, rfl, -⟩ | ⟨-, -, rfl⟩⟩
    · cases a with
      | done _ | lost _ | rejected _ => exact hpair
    · exact hpair
  | generateKeyPair =>
    obtain ⟨rfl, -⟩ := hp
    exact List.mem_cons_of_mem _ hpair
  | writeKvField _ _ _ =>
    rcases hp with rfl | ⟨-, rfl⟩
    · cases a with
      | done _ | lost _ | rejected _ => exact hpair
    · exact hpair
  | land x =>
    rw [show s' = _ from hp]
    unfold land
    split
    · cases x with
      | jwsKey _ _ | kvField _ _ _ => exact hpair
    · exact hpair
  | _ => exact (untouched_of_performs rfl hp).keyPairs ▸ hpair

theorem vault_of_performs {op : TrustOp} {a : TrustAnswer op}
    (hwrite : ∀ path field value, op ≠ .writeKvField path field value) (hland : ∀ x, op ≠ .land x)
    (hp : s.performs op a s') : s'.vault = s.vault := by
  cases op with
  | writeKvField path field value => exact absurd rfl (hwrite path field value)
  | land x => exact absurd rfl (hland x)
  | save entity =>
    rcases hp with ⟨row, -, ⟨h, rfl, -⟩ | ⟨-, -, rfl⟩⟩
    · cases a with
      | done _ | lost _ | rejected _ => rfl
    · rfl
  | generateKeyPair =>
    obtain ⟨rfl, -⟩ := hp
    rfl
  | _ => exact (untouched_of_performs rfl hp).vault

end Registry

/-- Onboardings of one participant, the scheduler that publishes keys, and what happens of itself. -/
def TrustJob.isTenancy (name : String) : TrustJob → Prop
  | .sync => False
  | .updateJwsPolicy _ => False
  | .addSigningKeys _ => False
  | .onboardFsp input => input.name = name
  | _ => True

/-- The condition of the result. A secret is written only while no row of the participant holds a
key, and an onboarding saves the row only while the secret is the one that it has generated. -/
def StoresAlone {ι κ : Type} (s : Registry collate) (f : ι → Option Decision) :
    Label ι TrustOp TrustAnswer κ → Prop
  | .call _ ⟨.writeKvField _ _ _, a⟩ => a.isRejected = false → ¬ s.Holding name
  | .call _ ⟨.land (.kvField path field value), _⟩ => Late.kvField path field value ∈ s.late →
    (path, field) = (JwsKeyProvisioner.jwsKeyPath settings name, JwsKeyProvisioner.privateKeyField) →
    ¬ s.Holding name
  | .call i ⟨.save _, a⟩ => ∀ r input, f i = some r → r.job = .onboardFsp input →
    a.isRejected = false → s.secret settings name = r.pair.map RsaKeyPair.privateKey
  | _ => True

variable {settings name} {s s' : Registry collate} {r : Decision}

/-- What a job has read and generated is as the registry has it. -/
structure Decision.Custody (settings : OnboardSettings) (name : String) (s : Registry collate)
    (r : Decision) : Prop where
  job : r.job.isTenancy name
  found : r.Found s
  copies : ∀ copy ∈ r.read, collate copy.fspId = collate name →
    s.Provided settings name copy ∧ (holdsKey (some copy) = true → s.Holding name)
  pair : ∀ pair, r.pair = some pair → pair ∈ s.keyPairs ∧ Js.blank (some pair.publicKey) = false
  assured : ∀ input, r.job = .onboardFsp input → r.assured = true → s.Holding name

namespace Decision

theorem ne_sync_of_isTenancy {job : TrustJob} (h : job.isTenancy name) : job ≠ .sync := by
  rintro rfl
  exact h

theorem Custody.keeps (h : r.Custody settings name s) (hs : s.Keeps settings name s')
    (hpersists : s.Persists s') : r.Custody settings name s' where
  job := h.job
  found := h.found.persists hpersists
  copies copy hcopy hname := by
    obtain ⟨hprovided, hholds⟩ := h.copies copy hcopy hname
    exact ⟨hprovided.keeps hs hholds, fun hkey => hs.holding (hholds hkey)⟩
  pair pair hpair := ⟨hs.keyPairs pair (h.pair pair hpair).1, (h.pair pair hpair).2⟩
  assured input hjob hassured := hs.holding (h.assured input hjob hassured)

/-- What may be saved of the participant is the row of a tenant that holds a key with its secret. -/
theorem Custody.saves {entity : ParticipantKey} (h : r.Custody settings name s)
    (hvault : settings.keyProvider = .vaultKv) (hsaves : r.Saves settings entity)
    (hname : collate entity.fspId = collate name)
    (hsecret : ∀ input, r.job = .onboardFsp input →
      s.secret settings name = r.pair.map RsaKeyPair.privateKey) :
    holdsKey (some entity) = true ∧ entity.role = .self ∧
      s.Paired settings name entity.jwsPublicKey := by
  have hactivates : ∀ dfspId, r.Activates dfspId entity → holdsKey (some entity) = true ∧
      entity.role = .self ∧ s.Paired settings name entity.jwsPublicKey := by
    rintro dfspId ⟨copy, hcopy, publicKey, activatedAt, hkey, -, -, rfl⟩
    exact (h.copies copy hcopy hname).1.of_tenantKey hkey
  have hjob := h.job
  unfold Saves at hsaves
  cases hkind : r.job with
  | reconcile | publishAndEnable _ =>
    simp only [hkind] at hsaves
    exact hactivates _ hsaves
  | onboardFsp input =>
    simp only [hkind] at hsaves
    obtain ⟨existing, provisioned, -, -, rfl, hpair⟩ := hsaves
    obtain ⟨pair, hgenerated, hpublic⟩ := Option.map_eq_some_iff.mp (hpair hvault)
    obtain ⟨hmem, hblank⟩ := h.pair pair hgenerated
    refine ⟨?_, rfl, pair, hmem, ?_, ?_⟩
    · simpa [holdsKey, OnboardFspHandler.signingTenant, ← hpublic] using hblank
    · simp [OnboardFspHandler.signingTenant, hpublic]
    · rw [hsecret input hkind, hgenerated]
      rfl
  | sync | updateJwsPolicy _ | addSigningKeys _ =>
    rw [hkind] at hjob
    exact hjob.elim
  | land _ | replaceJwsKey _ _ => simp [hkind] at hsaves

theorem Custody.holding_of_saves {entity : ParticipantKey} {a : Written JsError ParticipantKey}
    (h : r.Custody settings name s) (hvault : settings.keyProvider = .vaultKv)
    (hsaves : r.Saves settings entity) (hp : s.saves entity a s')
    (hsecret : a.isRejected = false → ∀ input, r.job = .onboardFsp input →
      s.secret settings name = r.pair.map RsaKeyPair.privateKey)
    (hholding : s.Holding name) : s'.Holding name := by
  obtain ⟨row, hrow, hname, hkey⟩ := hholding
  rcases row_after_saves hsaves (ne_sync_of_isTenancy h.job) h.found hp hrow with hkept |
    ⟨ha, hentity, -, -, -, -, hnamed⟩
  · exact ⟨row, hkept, hname, hkey⟩
  · have hname' := hnamed.trans hname
    exact ⟨entity, hentity, hname', (h.saves hvault hsaves hname' (hsecret ha)).1⟩

/-- Under the condition, a call keeps what a participant that holds a key has. -/
theorem Custody.keeps_of_performs {op : TrustOp} {a : TrustAnswer op} {ι κ : Type} {i : ι}
    {f : ι → Option Decision} (h : r.Custody settings name s)
    (hvault : settings.keyProvider = .vaultKv) (hi : f i = some r)
    (hok : StoresAlone settings name s f (.call i ⟨op, a⟩ : Label ι TrustOp TrustAnswer κ))
    (hallows : r.allows settings op) (hp : s.performs op a s') : s.Keeps settings name s' where
  holding hholding := by
    by_cases hop : ∃ entity, op = .save entity
    · obtain ⟨entity, rfl⟩ := hop
      exact h.holding_of_saves hvault hallows hp
        (fun ha input hjob => hok r input hi hjob ha) hholding
    · have hkeys := Registry.keys_of_performs (fun entity hsave => hop ⟨entity, hsave⟩) hp
      simpa [Registry.Holding, Registry.rows, hkeys] using hholding
  secret hholding := by
    cases op with
    | writeKvField path field value =>
      rcases hp with rfl | ⟨-, rfl⟩
      · cases a with
        | done _ | lost _ => exact absurd hholding (hok rfl)
        | rejected _ => rfl
      · rfl
    | land x =>
      rw [show s' = _ from hp]
      unfold Registry.land
      split
      · rename_i hlate
        cases x with
        | jwsKey _ _ => rfl
        | kvField path field value =>
          by_cases hpath : (path, field) =
              (JwsKeyProvisioner.jwsKeyPath settings name, JwsKeyProvisioner.privateKeyField)
          · exact absurd hholding (hok hlate hpath)
          · simp [Registry.secret, Registry.writeKvField, Js.Map.get_set, Ne.symm hpath]
      · rfl
    | _ =>
      rw [Registry.secret, Registry.vault_of_performs (by simp) (by simp) hp]
      rfl
  keyPairs := Registry.keyPairs_of_performs hp

/-- Under the condition, a call leaves the rows of the participant as they have to be. -/
theorem Custody.provides_of_performs {op : TrustOp} {a : TrustAnswer op} {ι κ : Type} {i : ι}
    {f : ι → Option Decision} (h : r.Custody settings name s)
    (hvault : settings.keyProvider = .vaultKv) (hi : f i = some r)
    (hok : StoresAlone settings name s f (.call i ⟨op, a⟩ : Label ι TrustOp TrustAnswer κ))
    (hallows : r.allows settings op) (hp : s.performs op a s')
    (hrows : s.Provides settings name) : s'.Provides settings name := by
  have hkeeps := h.keeps_of_performs hvault hi hok hallows hp
  have hkept : ∀ row ∈ s.rows, collate row.fspId = collate name → s'.Provided settings name row :=
    fun row hrow hname => (hrows row hrow hname).keeps hkeeps fun hkey => ⟨row, hrow, hname, hkey⟩
  intro row hrow hname
  by_cases hop : ∃ entity, op = .save entity
  swap
  · have hkeys := Registry.keys_of_performs (fun entity hsave => hop ⟨entity, hsave⟩) hp
    rw [Registry.rows, hkeys] at hrow
    exact hkept row hrow hname
  obtain ⟨entity, rfl⟩ := hop
  rcases Registry.rows_of_saves hp with ⟨-, rfl⟩ | ⟨ha, saved, hsaved, hmem⟩
  · exact hrows row hrow hname
  rcases (hmem row).mp hrow with rfl | ⟨hold, -⟩
  swap
  · exact hkept row hold hname
  rw [Registry.savedAs_withId hsaved] at hname ⊢
  have hsecret : ∀ input, r.job = .onboardFsp input →
      s.secret settings name = r.pair.map RsaKeyPair.privateKey :=
    fun input hjob => hok r input hi hjob ha
  obtain ⟨hholds, hrole, pair, hpair, hkey, hheld⟩ := h.saves hvault hallows hname hsecret
  have hvaults : s'.vault = s.vault := Registry.vault_of_performs (by simp) (by simp) hp
  unfold Registry.Provided
  rw [if_pos (show holdsKey (some (entity.withId row.id)) = true from hholds)]
  refine ⟨hrole, pair, hkeeps.keyPairs pair hpair, hkey, ?_⟩
  rw [Registry.secret, hvaults]
  exact hheld

/-- What is read and generated next is as the registry has it too. -/
theorem Custody.next {op : TrustOp} {a : TrustAnswer op} {ι κ : Type} {i : ι}
    {f : ι → Option Decision} (h : r.Custody settings name s)
    (hvault : settings.keyProvider = .vaultKv) (hi : f i = some r)
    (hok : StoresAlone settings name s f (.call i ⟨op, a⟩ : Label ι TrustOp TrustAnswer κ))
    (hallows : r.allows settings op) (hp : s.performs op a s')
    (hrows : s.Provides settings name) : (r.next op a).Custody settings name s' := by
  have hsync := ne_sync_of_isTenancy h.job
  have hkeeps := h.keeps_of_performs hvault hi hok hallows hp
  have hkept := h.keeps hkeeps (persists_of_performs hallows hsync h.found hp)
  have hfound := found_next hallows hsync h.found hp
  have hread : ∀ copy ∈ s.rows, collate copy.fspId = collate name →
      s.Provided settings name copy ∧ (holdsKey (some copy) = true → s.Holding name) :=
    fun copy hcopy hname => ⟨hrows copy hcopy hname, fun hkey => ⟨copy, hcopy, hname, hkey⟩⟩
  cases op with
  | findByFspId fspId target =>
    obtain ⟨hsubject, hrow⟩ := read_of_find hallows hsync hp
    obtain rfl : s' = s := hp.1
    refine ⟨h.job, hfound, fun copy hcopy => hread copy (hrow copy hcopy).1, h.pair, ?_⟩
    intro input hjob hassured
    have hinput : input.name = name := by
      have hjob' := h.job
      rwa [show r.job = _ from hjob] at hjob'
    rcases Bool.or_eq_true_iff.mp hassured with hbefore | hholds
    · exact h.assured input hjob hbefore
    cases hcopy : a.toOption.join with
    | none => simp [hcopy, holdsKey, Js.blank] at hholds
    | some copy =>
      obtain ⟨hmem, hname⟩ := hrow copy (by simp [Decision.next, hcopy])
      rw [show r.job = _ from hjob, TrustJob.subject, Option.some.injEq] at hsubject
      rw [hcopy] at hholds
      exact ⟨copy, hmem, by rw [hname, ← hsubject, hinput], hholds⟩
  | findAll target =>
    obtain ⟨-, hrow⟩ := read_of_findAll hallows hp
    obtain rfl : s' = s := hp.1
    exact ⟨h.job, hfound, fun copy hcopy => hread copy (hrow copy hcopy), h.pair, h.assured⟩
  | getJwsKey dfspId => exact ⟨hkept.job, hfound, hkept.copies, hkept.pair, hkept.assured⟩
  | generateKeyPair =>
    obtain ⟨rfl, hblank, -⟩ := hp
    refine ⟨hkept.job, hfound, hkept.copies, ?_, hkept.assured⟩
    rintro pair ⟨⟩
    exact ⟨List.mem_cons_self .., hblank⟩
  | save entity =>
    refine ⟨hkept.job, hfound, hkept.copies, hkept.pair, ?_⟩
    intro input hjob hassured
    rcases Bool.or_eq_true_iff.mp hassured with hbefore | hdone
    · exact hkept.assured input hjob hbefore
    have hinput : input.name = name := by
      have hjob' := h.job
      rwa [show r.job = _ from hjob] at hjob'
    rcases Registry.rows_of_saves hp with ⟨hrejected, -⟩ | ⟨ha, saved, hsaved, hmem⟩
    · cases a with
      | done _ | lost _ => cases hrejected
      | rejected _ => cases hdone
    have hsaves : r.Saves settings entity := hallows
    have hname : entity.fspId = name := by
      simp only [Saves, show r.job = _ from hjob] at hsaves
      obtain ⟨existing, provisioned, -, -, rfl, -⟩ := hsaves
      exact hinput
    refine ⟨saved, (hmem saved).mpr (.inl rfl), ?_, ?_⟩
    · rw [Registry.savedAs_withId hsaved]
      exact congrArg collate hname
    · rw [Registry.savedAs_withId hsaved]
      exact (h.saves hvault hsaves (congrArg collate hname)
        fun input hjob => hok r input hi hjob ha).1
  | _ => exact hkept

end Decision

variable {ι : Type} [DecidableEq ι] {trust : TrustSettings} {s : Registry trust.collate}

/-- Onboardings of one participant beside the scheduler that publishes keys. -/
abbrev tenancy (trust : TrustSettings) (name : String) :=
  provisioning trust (TrustJob.isTenancy name)

abbrev Tenancy (trust : TrustSettings) (name : String) (ι : Type) :=
  Provisioning trust (TrustJob.isTenancy name) ι

/-- The condition, step by step. -/
def StoredAlone (trust : TrustSettings) (name : String) (c : Tenancy trust name ι) :
    Label ι TrustOp TrustAnswer { job // TrustJob.isTenancy name job } → Prop :=
  StoresAlone trust.toOnboardSettings name c.shared
    (c.records (decision trust.toOnboardSettings) fun job => .initial job.val)

theorem custody_of_reaches {c : Tenancy trust name ι} (hvault : trust.keyProvider = .vaultKv)
    (hs : s.Provides trust.toOnboardSettings name)
    (h : (tenancy trust name).Reaches (StoredAlone trust name) (.initial s) c) :
    c.shared.Provides trust.toOnboardSettings name ∧
      ∀ i r, c.records (decision trust.toOnboardSettings) (fun job => .initial job.val) i = some r →
        r.Custody trust.toOnboardSettings name c.shared := by
  have hobeys : ∀ job : { job // TrustJob.isTenancy name job }, ((tenancy trust name).entry job).Obeys
      (decision trust.toOnboardSettings) (.initial job.val)
      (Decision.Settled trust.toOnboardSettings job.val) :=
    fun job => Decision.obeys_job trust job.val
  refine h.records_invariant (StoresAlone trust.toOnboardSettings name)
    (fun s f => s.Provides trust.toOnboardSettings name ∧
      ∀ (i : ι) r, f i = some r → r.Custody trust.toOnboardSettings name s) hobeys ⟨hs, by simp⟩ ?_
  rintro s f l s' f' ⟨hrows, hf⟩ hok hmove
  cases hmove with
  | start job hi =>
    rw [Async.forall_update]
    refine ⟨hrows, ⟨job.property, .initial s _, ?_, ?_, ?_⟩, fun j r _ hj => hf j r hj⟩
    · exact nofun
    · exact nofun
    · exact nofun
  | @call _ _ i r op a hi hr hp =>
    rw [Async.forall_update]
    have hcustody := hf i r hi
    refine ⟨hcustody.provides_of_performs hvault hi hok hr hp hrows,
      hcustody.next hvault hi hok hr hp hrows, fun j r' _ hj => (hf j r' hj).keeps
        (hcustody.keeps_of_performs hvault hi hok hr hp) ?_⟩
    exact Decision.persists_of_performs hr (Decision.ne_sync_of_isTenancy hcustody.job)
      hcustody.found hp
  | crash _ _ => exact ⟨hrows, fun j r hj => hf j r (Async.of_update_none hj).2⟩
  | background hb => exact hb.elim

/-- In a run that keeps to the condition, whoever signs does so with the secret that was generated
together with its public key, and whoever was onboarded has such a key. -/
theorem tenants_sign_with_their_key {c : Tenancy trust name ι} (hvault : trust.keyProvider = .vaultKv)
    (hs : s.Provides trust.toOnboardSettings name)
    (h : (tenancy trust name).Reaches (StoredAlone trust name) (.initial s) c) :
    (∀ row ∈ c.shared.rows, trust.collate row.fspId = trust.collate name → row.role = .self →
      row.jwsSignEnabled = true →
        c.shared.Paired trust.toOnboardSettings name row.jwsPublicKey) ∧
    ∀ i p input, c.process i = some p → p.job.val = .onboardFsp input →
      p.program.result = some (.ok ()) →
      ∃ row ∈ c.shared.rows, trust.collate row.fspId = trust.collate name ∧ row.role = .self ∧
        c.shared.Paired trust.toOnboardSettings name row.jwsPublicKey := by
  obtain ⟨hrows, hcustody⟩ := custody_of_reaches hvault hs h
  have hheld : ∀ row ∈ c.shared.rows, trust.collate row.fspId = trust.collate name →
      holdsKey (some row) = true → row.role = .self ∧
        c.shared.Paired trust.toOnboardSettings name row.jwsPublicKey := by
    intro row hrow hname hholds
    have hprovided := hrows row hrow hname
    rwa [Registry.Provided, if_pos hholds] at hprovided
  constructor
  · intro row hrow hname hself hsigns
    by_cases hholds : holdsKey (some row) = true
    · exact (hheld row hrow hname hholds).2
    · have hprovided := hrows row hrow hname
      rw [Registry.Provided, if_neg hholds] at hprovided
      rw [(hprovided hself).2] at hsigns
      cases hsigns
  · rintro i ⟨job, t, q⟩ input hi hjob hresult
    cases q with
    | call op resume => cases hresult
    | done result =>
      obtain rfl : result = .ok () := Option.some.inj hresult
      have hsettled := h.settled (fun job => Decision.obeys_job trust job.val) hi
      have hassured := hsettled input hjob hvault rfl
      have hrecord : c.records (decision trust.toOnboardSettings)
        (fun job : { job // TrustJob.isTenancy name job } => .initial job.val) i = some _ :=
        Config.records_eq hi
      have hjob' := (Decision.job_after trust.toOnboardSettings (.initial job.val) t).trans hjob
      obtain ⟨row, hrow, hname, hholds⟩ := (hcustody i _ hrecord).assured input hjob' hassured
      exact ⟨row, hrow, hname, hheld row hrow hname hholds⟩

/-! An FSP that nobody knows. -/

section Sample

def sampleUnknown : Registry sampleTrustSettings.collate where
  keys := .initial .empty
  participants := .empty
  mcm := .empty
  vault := .empty
  late := []
  keyPairs := []
  ledger := ⟨[], [], .empty⟩

theorem sampleUnknown_provides :
    sampleUnknown.Provides sampleTrustSettings.toOnboardSettings "a" := by
  rintro row ⟨⟩

abbrev sampleNewcomer : { job // TrustJob.isTenancy "a" job } :=
  ⟨.onboardFsp ⟨"a", ["USD"], "https://a/", "pem"⟩, rfl⟩

abbrev sampleAnnounced : { job // TrustJob.isTenancy "a" job } := ⟨.publishAndEnable "a", trivial⟩

/-- The pair of keys that is generated first. -/
abbrev sampleFirstPair : RsaKeyPair := ⟨"k", "p"⟩

abbrev sampleProvided : ParticipantKey := ⟨0, "a", .self, some "k", none, false, none, "off"⟩

/-- The onboarding has stored the secret, and is about to save the row. -/
def sampleStored : Tenancy sampleTrustSettings "a" ℕ :=
  ((Config.initial sampleUnknown).put 0 (some ⟨sampleNewcomer, [],
    sampleNewcomer.val.execute sampleTrustSettings⟩)).advance Registry.respond 0 35

/-- The onboarding is done, and the scheduler is about to switch signing on. -/
def samplePublished : Tenancy sampleTrustSettings "a" ℕ :=
  (((sampleStored.advance Registry.respond 0 1).advance Registry.respond 0 1).put 1
    (some ⟨sampleAnnounced, [], sampleAnnounced.val.execute sampleTrustSettings⟩)).advance
      Registry.respond 1 5

/-- A call that stores a secret. -/
def TrustOp.isStoring : TrustOp → Bool
  | .writeKvField _ _ _ => true
  | .land _ => true
  | _ => false

omit [DecidableEq ι] in
theorem StoredAlone.of_not_isSave {c : Tenancy trust name ι} {i : ι}
    {e : Async.Event TrustOp TrustAnswer} (hsave : e.op.isSave = false)
    (hstores : e.op.isStoring = true → ¬ c.shared.Holding name) :
    StoredAlone trust name c (.call i e) := by
  obtain ⟨op, a⟩ := e
  cases op with
  | save entity => cases hsave
  | writeKvField path field value => exact fun _ => hstores rfl
  | land x =>
    cases x with
    | jwsKey _ _ => trivial
    | kvField _ _ _ => exact fun _ _ => hstores rfl
  | _ => trivial

/-- A job may run on from where its next calls store no secret of one who holds a key. -/
theorem StoredAlone.advance {c₀ c : Tenancy sampleTrustSettings "a" ℕ}
    (h : (tenancy sampleTrustSettings "a").Reaches (StoredAlone sampleTrustSettings "a") c₀ c)
    (i n : ℕ) (hn : ∀ p, c.process i = some p → p.program.AdvanceAll Registry.respond
      (fun s e => e.op.isSave = false ∧ (e.op.isStoring = true → ¬ s.Holding "a")) n c.shared) :
    (tenancy sampleTrustSettings "a").Reaches (StoredAlone sampleTrustSettings "a") c₀
      (c.advance Registry.respond i n) :=
  h.advanceAll i Registry.performs_respond (fun _ _ he _ => .of_not_isSave he.1 he.2) n hn

theorem sampleStored_reached : (tenancy sampleTrustSettings "a").Reaches
    (StoredAlone sampleTrustSettings "a") (.initial sampleUnknown) sampleStored := by
  apply StoredAlone.advance
  · exact System.Reaches.refl.tail (l := .start 0 sampleNewcomer) trivial (.start sampleNewcomer rfl)
  · rintro _ ⟨⟩
    decide

theorem samplePublished_reached : (tenancy sampleTrustSettings "a").Reaches
    (StoredAlone sampleTrustSettings "a") (.initial sampleUnknown) samplePublished := by
  have hsaved : (tenancy sampleTrustSettings "a").Reaches (StoredAlone sampleTrustSettings "a")
      (.initial sampleUnknown) (sampleStored.advance Registry.respond 0 1) := by
    refine sampleStored_reached.tail ?_ (System.step_advance Registry.performs_respond
      (.save sampleProvided) rfl)
    intro r input hr _ _
    have hpair : (sampleStored.records (decision sampleTrustSettings.toOnboardSettings)
        (fun job => .initial job.val) 0).map Decision.pair = some (some sampleFirstPair) := by
      rfl
    rw [hr, Option.map_some, Option.some.injEq] at hpair
    rw [hpair]
    rfl
  apply StoredAlone.advance
  · refine System.Reaches.tail (l := .start 1 sampleAnnounced) ?_ trivial
      (.start sampleAnnounced rfl)
    apply StoredAlone.advance hsaved
    rintro _ ⟨⟩
    decide
  · rintro _ ⟨⟩
    decide

def sampleSigning : Tenancy sampleTrustSettings "a" ℕ :=
  samplePublished.advance Registry.respond 1 1

/-- The tenant signs, with the key that was generated. -/
theorem tenants_sign_with_their_key_sample :
    sampleSigning.shared.rows.map ParticipantKey.jwsSignEnabled = [true] ∧
    ∃ row ∈ sampleSigning.shared.rows, row.fspId = "a" ∧ row.role = .self ∧
      sampleSigning.shared.Paired sampleTrustSettings.toOnboardSettings "a" row.jwsPublicKey := by
  refine ⟨by decide +kernel, ?_⟩
  have hsigning : (tenancy sampleTrustSettings "a").Reaches (StoredAlone sampleTrustSettings "a")
      (.initial sampleUnknown) sampleSigning := by
    refine samplePublished_reached.tail ?_ (System.step_advance Registry.performs_respond
      (.save { sampleProvided with
        id := 1
        jwsSignActivatedAt := some 1000
        jwsSignEnabled := true }) (by decide +kernel))
    intro r input hr hjob _
    have hother : (samplePublished.records (decision sampleTrustSettings.toOnboardSettings)
        (fun job => .initial job.val) 1).map Decision.job = some sampleAnnounced.val := by
      decide +kernel
    rw [hr, Option.map_some, hjob] at hother
    cases hother
  have hdone : (sampleSigning.process 0).bind (fun p => p.program.result) = some (.ok ()) := by
    decide +kernel
  obtain ⟨p, hp, hresult⟩ := Option.bind_eq_some_iff.mp hdone
  have hjob : (sampleSigning.process 0).map (fun p => p.job.val) = some sampleNewcomer.val := by
    decide +kernel
  rw [hp, Option.map_some, Option.some.injEq] at hjob
  exact (tenants_sign_with_their_key (by rfl) sampleUnknown_provides hsigning).2 0 p _ hp hjob hresult

abbrev sampleAgain : { job // TrustJob.isTenancy "a" job } :=
  ⟨.onboardFsp ⟨"a", ["MMK"], "https://a/", "pem"⟩, rfl⟩

/-- One onboarding is about to store its secret; another one and its announcement run in between. -/
def sampleOverwriting : Tenancy sampleTrustSettings "a" ℕ :=
  ((((((Config.initial sampleUnknown).put 0 (some ⟨sampleNewcomer, [],
    sampleNewcomer.val.execute sampleTrustSettings⟩)).advance Registry.respond 0 34).put 1
    (some ⟨sampleAgain, [], sampleAgain.val.execute sampleTrustSettings⟩)).advance
      Registry.respond 1 40).put 2 (some ⟨sampleAnnounced, [],
    sampleAnnounced.val.execute sampleTrustSettings⟩)).advance Registry.respond 2 10

/-- The first one stores its secret, and the tenant signs with that. -/
theorem not_tenants_sign_with_their_key :
    ¬ ∀ (s : Registry sampleTrustSettings.collate) (c : Tenancy sampleTrustSettings "a" ℕ),
      s.Provides sampleTrustSettings.toOnboardSettings "a" →
      (tenancy sampleTrustSettings "a").Reaches System.Any (.initial s) c →
      ∀ row ∈ c.shared.rows, row.fspId = "a" → row.role = .self → row.jwsSignEnabled = true →
        c.shared.Paired sampleTrustSettings.toOnboardSettings "a" row.jwsPublicKey := by
  intro h
  have hstored : (tenancy sampleTrustSettings "a").Reaches System.Any (.initial sampleUnknown)
      (sampleOverwriting.advance Registry.respond 0 1) := by
    have hfirst : (tenancy sampleTrustSettings "a").Reaches System.Any (.initial sampleUnknown) _ :=
      System.Reaches.refl.tail trivial (.start sampleNewcomer (i := (0 : ℕ)) rfl)
    have hsecond := (hfirst.advance Registry.performs_respond 0 34).tail trivial
      (.start sampleAgain (i := 1) rfl)
    have hannounced := (hsecond.advance Registry.performs_respond 1 40).tail trivial
      (.start sampleAnnounced (i := 2) rfl)
    exact (hannounced.advance Registry.performs_respond 2 10).advance Registry.performs_respond 0 1
  have hmismatch : ∃ row ∈ (sampleOverwriting.advance Registry.respond 0 1).shared.rows,
      row.fspId = "a" ∧ row.role = .self ∧ row.jwsSignEnabled = true ∧
        ¬ (sampleOverwriting.advance Registry.respond 0 1).shared.Paired
          sampleTrustSettings.toOnboardSettings "a" row.jwsPublicKey := by
    decide +kernel
  obtain ⟨row, hrow, hname, hself, hsigns, hother⟩ := hmismatch
  exact hother (h _ _ sampleUnknown_provides hstored row hrow hname hself hsigns)

end Sample

end Trust
