import Pivotal.Trust.Calls

/-! What each job has read by the time it saves a row, and what of it is in the row that it
saves. -/
namespace Trust
open Async (Monitor)
open Async.Program (Keeps Obeys Within lift perform)
open Fspiop (JsError)
open Participant (ParticipantKey)

/-- What a job knows: the rows of its last read, the keys that the Connection Manager was read to
hold, the last pair that it has generated, and whether it has seen the row of a tenant with a
key. -/
structure Decision where
  job : TrustJob
  read : List ParticipantKey
  certs : List (String × String)
  pair : Option RsaKeyPair
  assured : Bool

namespace Decision

def initial (job : TrustJob) : Decision := ⟨job, [], [], none, false⟩

def next (r : Decision) : (op : TrustOp) → TrustAnswer op → Decision
  | .findByFspId _ _, a => { r with
      read := a.toOption.join.toList
      assured := r.assured || OnboardFspHandler.holdsKey a.toOption.join }
  | .findAll _, a => { r with read := a.toOption.getD [] }
  | .getJwsKey dfspId, a => { r with
      certs := ((a.toOption.bind JwsCert.publicKey).map fun key => (dfspId, key)).toList ++ r.certs }
  | .generateKeyPair, a => { r with pair := some a }
  | .save _, a => { r with assured := r.assured || a.toExcept.isOk }
  | _, _ => r

/-- The Connection Manager was read to hold the key for the DFSP. -/
def Confirmed (r : Decision) (dfspId publicKey : String) : Prop :=
  ∃ key, (dfspId, key) ∈ r.certs ∧ JwsKeyPublishScheduler.samePem key publicKey = true

/-- A tenant that was never activated is switched on, as it was read. -/
def Activates (r : Decision) (dfspId : ParticipantKey → String) (entity : ParticipantKey) : Prop :=
  ∃ copy ∈ r.read, ∃ publicKey activatedAt,
    JwsKeyPublishScheduler.tenantKey copy = some publicKey ∧ copy.jwsSignActivatedAt = none ∧
      r.Confirmed (dfspId copy) publicKey ∧
      entity = { copy with jwsSignActivatedAt := some activatedAt, jwsSignEnabled := true }

/-- A new row for a peer, or the copy of a peer's row with another key. -/
def Syncs (r : Decision) (entity : ParticipantKey) : Prop :=
  (∃ fspId publicKey, r.read = [] ∧ entity = PeerJwsSyncScheduler.newPeer fspId publicKey) ∨
    ∃ copy publicKey, r.read = [copy] ∧ copy.role ≠ .self ∧
      entity = { copy with jwsPublicKey := some publicKey }

/-- The copy with its switches moved. A row that signs carries a stamp, and a stamp is kept. -/
def Moves (r : Decision) (input : UpdateJwsPolicyCommand.Input) (entity : ParticipantKey) : Prop :=
  ∃ copy activatedAt, r.read = [copy] ∧
    entity = { UpdateJwsPolicyHandler.moved input copy with jwsSignActivatedAt := activatedAt } ∧
    (copy.jwsSignActivatedAt.isSome = true → activatedAt = copy.jwsSignActivatedAt) ∧
    (entity.jwsSignEnabled = true → activatedAt.isSome = true)

def Records (r : Decision) (input : AddSigningKeysCommand.Input) (entity : ParticipantKey) : Prop :=
  ∃ existing : Option ParticipantKey, r.read = existing.toList ∧
    entity = AddSigningKeysHandler.entity input existing

variable (settings : OnboardSettings)

/-- A row without a key becomes that of a tenant. Where Vault has the private half, the public one
is of the pair that the job has generated. -/
def Provisions (r : Decision) (input : OnboardFspCommand.Input) (entity : ParticipantKey) : Prop :=
  ∃ existing provisioned, r.read = existing.toList ∧
    OnboardFspHandler.holdsKey existing = false ∧
    entity = OnboardFspHandler.signingTenant input.name existing provisioned ∧
    (settings.keyProvider = .vaultKv → r.pair.map RsaKeyPair.publicKey = some provisioned.publicKeyPem)

/-- The rows that a job may save. -/
def Saves (r : Decision) (entity : ParticipantKey) : Prop :=
  match r.job with
  | .reconcile => r.Activates ParticipantKey.fspId entity
  | .publishAndEnable fspId => r.Activates (fun _ => fspId) entity
  | .sync => r.Syncs entity
  | .updateJwsPolicy input => r.Moves input entity
  | .addSigningKeys input => r.Records input entity
  | .onboardFsp input => r.Provisions settings input entity
  | .land _ => False
  | .replaceJwsKey _ _ => False

/-- The private half of the pair that was generated, in the secret of the tenant. -/
def Writes (r : Decision) (path field value : String) : Prop :=
  ∃ input pair, r.job = .onboardFsp input ∧ r.pair = some pair ∧
    path = JwsKeyProvisioner.jwsKeyPath settings input.name ∧
    field = JwsKeyProvisioner.privateKeyField ∧ value = pair.privateKey

/-- The row that a job looks up, and where. -/
def LooksUp (r : Decision) (fspId : String) (target : DbTarget) : Prop :=
  match r.job with
  | .publishAndEnable fspId' => fspId = fspId' ∧ target = .write
  | .sync => target = .read
  | .updateJwsPolicy input => fspId = Js.trim input.fspId ∧ target = .write
  | .addSigningKeys input => fspId = input.name ∧ target = .write
  | .onboardFsp input => fspId = input.name ∧ target = .write
  | _ => False

def allows (r : Decision) : TrustOp → Prop
  | .findByFspId fspId target => r.LooksUp fspId target
  | .findAll target => r.job = .reconcile ∧ target = .write
  | .save entity => r.Saves settings entity
  | .writeKvField path field value => r.Writes settings path field value
  | .land x => r.job = .land x
  | _ => True

end Decision

/-- What is saved was read before. -/
def decision (settings : OnboardSettings) : Monitor TrustOp TrustAnswer Decision :=
  ⟨Decision.next, Decision.allows settings⟩

theorem Decision.job_after (settings : OnboardSettings) (r : Decision)
    (t : List (Async.Event TrustOp TrustAnswer)) : ((decision settings).after r t).job = r.job := by
  induction t generalizing r with
  | nil => rfl
  | cons e t ih =>
    have hnext : (r.next e.op e.answer).job = r.job := by
      unfold Decision.next
      split <;> rfl
    rw [Monitor.after_cons]
    exact (ih _).trans hnext

/-- A call that neither reads nor saves a row, and that neither makes nor stores a key. -/
def TrustOp.isAside : TrustOp → Bool
  | .findByFspId _ _ => false
  | .findAll _ => false
  | .save _ => false
  | .getJwsKey _ => false
  | .generateKeyPair => false
  | .writeKvField _ _ _ => false
  | .land _ => false
  | _ => true

def TrustOp.isSave : TrustOp → Bool
  | .save _ => true
  | _ => false

theorem TrustOp.isAside_of_isLedger (op : TrustOp) (h : op.isLedger = true) :
    op.isAside = true := by
  cases op <;> first | rfl | cases h

namespace Decision

variable {settings : OnboardSettings} {α : Type} {r : Decision}

theorem obeys_aside {p : TrustProgram α} (h : p.Within (·.isAside)) (r : Decision) :
    p.Obeys (decision settings) r fun r' _ => r' = r := by
  refine Within.keeps (R := fun r' => r' = r) h ?_ r rfl
  intro r' op hr hop
  subst hr
  cases op with
  | findByFspId _ _ | findAll _ | save _ | getJwsKey _ | generateKeyPair | writeKvField _ _ _
    | land _ => cases hop
  | _ => exact ⟨trivial, fun _ => rfl⟩

theorem obeys_find {fspId : String} {target : DbTarget}
    {f : Option ParticipantKey → TrustProgram α} {Q : Decision → Except JsError α → Prop}
    (h : r.LooksUp fspId target) (hf : ∀ found, (f found).Obeys (decision settings) { r with
      read := found.toList, assured := r.assured || OnboardFspHandler.holdsKey found } Q)
    (he : ∀ r' e, Q r' (.error e)) :
    (ParticipantKeyRepository.findByFspId fspId target >>= f).Obeys (decision settings) r Q := by
  refine ⟨h, fun a => ?_⟩
  rcases a with e | found
  · exact he _ e
  · exact hf found

theorem obeys_save {entity : ParticipantKey} {f : ParticipantKey → TrustProgram α}
    {Q : Decision → Except JsError α → Prop} (h : r.Saves settings entity)
    (hf : ∀ saved, (f saved).Obeys (decision settings) { r with assured := true } Q)
    (he : ∀ r' e, r'.read = r.read → r'.certs = r.certs → r'.job = r.job → Q r' (.error e)) :
    (ParticipantKeyRepository.save entity >>= f).Obeys (decision settings) r Q := by
  refine ⟨h, fun a => ?_⟩
  rcases a with saved | e | e
  · have hassured : r.next (.save entity) (.done saved) = { r with assured := true } := by
      simp [next, Except.isOk, Except.toBool]
    have hrest := hf saved
    rw [← hassured] at hrest
    exact hrest
  · exact he _ e rfl rfl rfl
  · exact he _ e rfl rfl rfl

/-! The scheduler that publishes keys. -/

/-- The job and its copies of the rows. -/
def Holds (job : TrustJob) (read : List ParticipantKey) (r : Decision) : Prop :=
  r.job = job ∧ r.read = read

variable {job : TrustJob} {read : List ParticipantKey} {registrar : Bool}
  {dfspId : ParticipantKey → String}

theorem ensureRegistered_aside (fspId : String) :
    (JwsKeyPublishScheduler.ensureRegistered registrar fspId).Within (·.isAside) := by
  cases registrar with
  | true => exact ⟨rfl, fun _ => trivial⟩
  | false => trivial

theorem keeps_ensureRegistered (fspId : String) :
    (JwsKeyPublishScheduler.ensureRegistered registrar fspId).Keeps (decision settings)
      (Holds job read) := by
  intro r hr
  refine (obeys_aside (ensureRegistered_aside fspId) r).mono ?_
  rintro _ _ rfl
  exact hr

/-- What the Connection Manager was read to hold is recorded. -/
theorem obeys_storedKey (dfspId : String) (hr : Holds job read r) :
    (JwsKeyPublishScheduler.storedKey dfspId).Obeys (decision settings) r fun r' result =>
      Holds job read r' ∧ ∃ stored, result = .ok stored ∧
        ∀ key, stored = some key → (dfspId, key) ∈ r'.certs := by
  refine ⟨trivial, fun a => ?_⟩
  rcases a with e | cert
  · exact ⟨hr, none, rfl, by simp⟩
  · refine ⟨hr, cert.publicKey, rfl, ?_⟩
    intro key hkey
    simp [decision, next, Except.toOption, hkey]

theorem obeys_publishAndVerify {dfspId publicKey : String} (hr : Holds job read r) :
    (McmAxios.publishAndVerifyJwsKey dfspId publicKey).Obeys (decision settings) r
      fun r' result => Holds job read r' ∧ ∀ cert, result = .ok cert →
        r'.Confirmed dfspId publicKey := by
  refine ⟨trivial, fun a => ?_⟩
  rcases a with cert | e | e
  · refine ⟨trivial, fun a => ?_⟩
    rcases a with e | stored
    · exact ⟨hr, by rintro _ ⟨⟩⟩
    · change Obeys _ (if stored.publicKey ≠ some publicKey then _ else pure cert) _ _
      split
      · exact ⟨hr, by rintro _ ⟨⟩⟩
      · rename_i hsame
        refine ⟨hr, ?_⟩
        rintro _ -
        refine ⟨publicKey, ?_, ?_⟩
        · simp [decision, next, Except.toOption, not_not.mp hsame]
        · simp [JwsKeyPublishScheduler.samePem]
  · exact ⟨hr, by rintro _ ⟨⟩⟩
  · exact ⟨hr, by rintro _ ⟨⟩⟩

/-- A copy that was read is activated, once its key is confirmed. -/
theorem obeys_activate {copy : ParticipantKey} {publicKey : String} (hr : Holds job read r)
    (hjob : ∀ r' entity, Holds job read r' → r'.Activates dfspId entity →
      r'.Saves settings entity)
    (hcopy : copy ∈ read) (hkey : JwsKeyPublishScheduler.tenantKey copy = some publicKey)
    (hconfirmed : r.Confirmed (dfspId copy) publicKey) :
    (JwsKeyPublishScheduler.activate copy).Obeys (decision settings) r
      fun r' _ => Holds job read r' := by
  unfold JwsKeyPublishScheduler.activate
  cases hactivated : copy.jwsSignActivatedAt with
  | some activatedAt => exact hr
  | none =>
    refine ⟨trivial, fun activatedAt => obeys_save ?_ (fun _ => hr) ?_⟩
    · apply hjob _ _ hr
      exact ⟨copy, hr.2 ▸ hcopy, publicKey, activatedAt, hkey, hactivated, hconfirmed, rfl⟩
    · intro r' e hread _ hjob'
      exact ⟨hjob'.trans hr.1, hread.trans hr.2⟩

theorem obeys_check {fspId publicKey : String} (hr : Holds job read r) :
    (JwsKeyPublishScheduler.check registrar fspId publicKey).Obeys (decision settings) r
      fun r' result => Holds job read r' ∧ ∀ checked, result = .ok checked →
        checked ≠ .diverged → r'.Confirmed fspId publicKey := by
  unfold JwsKeyPublishScheduler.check
  refine Obeys.seq (keeps_ensureRegistered fspId r hr) ?_ ?_
  · intro _ r hr
    rw [Async.Program.obeys_bind]
    refine (obeys_storedKey fspId hr).mono ?_
    rintro r' _ ⟨hr', stored, rfl, hcerts⟩
    rw [Async.Program.onOk_ok]
    split
    · rw [Async.Program.obeys_bind]
      refine (obeys_publishAndVerify hr').mono ?_
      rintro r'' (e | cert) ⟨hr'', hconfirmed⟩
      · exact ⟨hr'', by rintro _ ⟨⟩⟩
      · exact ⟨hr'', fun _ _ _ => hconfirmed cert rfl⟩
    · split
      · rename_i hblank hsame
        refine ⟨hr', fun _ _ _ => ?_⟩
        cases stored with
        | none => exact absurd rfl hblank
        | some key => exact ⟨key, hcerts key rfl, hsame⟩
      · refine ⟨hr', ?_⟩
        rintro _ ⟨⟩ hne
        exact absurd rfl hne
  · intro e r' hr'
    exact ⟨hr', by rintro _ ⟨⟩⟩

theorem keeps_reconcileTenant {tenant : ParticipantKey} {publicKey : String}
    (hjob : ∀ r' entity, Holds job read r' → r'.Activates ParticipantKey.fspId entity →
      r'.Saves settings entity)
    (htenant : tenant ∈ read) (hkey : JwsKeyPublishScheduler.tenantKey tenant = some publicKey)
    (result : JwsKeyPublishScheduler.Result) :
    (JwsKeyPublishScheduler.reconcileTenant registrar result tenant publicKey).Keeps
      (decision settings) (Holds job read) := by
  have henable : ∀ (result : JwsKeyPublishScheduler.Result) (r : Decision), Holds job read r →
      r.Confirmed tenant.fspId publicKey → (tryCatch (do
        if ← JwsKeyPublishScheduler.activate tenant then
          return { result with activated := result.activated + 1 }
        return result) fun _ => return { result with failed := result.failed + 1 } :
        TrustProgram JwsKeyPublishScheduler.Result).Obeys (decision settings) r
          fun r' _ => Holds job read r' := by
    intro result r hr hconfirmed
    rw [Async.Program.obeys_tryCatch, Async.Program.obeys_bind]
    refine (obeys_activate hr hjob htenant hkey hconfirmed).mono ?_
    rintro r' (e | _ | _) hr'
    · exact hr'
    · exact hr'
    · exact hr'
  intro r hr
  unfold JwsKeyPublishScheduler.reconcileTenant
  rw [Async.Program.obeys_bind, Async.Program.obeys_tryCatch, Async.Program.obeys_bind]
  refine (obeys_check hr).mono ?_
  rintro r' (e | checked) ⟨hr', hconfirmed⟩
  · exact hr'
  · cases checked with
    | diverged => exact hr'
    | published => exact henable _ r' hr' (hconfirmed _ rfl (by simp))
    | alreadyCorrect => exact henable _ r' hr' (hconfirmed _ rfl (by simp))

theorem keeps_reconcileTenants
    (hjob : ∀ r' entity, Holds job read r' → r'.Activates ParticipantKey.fspId entity →
      r'.Saves settings entity)
    (tenants : List ParticipantKey) (htenants : ∀ tenant ∈ tenants, tenant ∈ read)
    (result : JwsKeyPublishScheduler.Result) :
    (JwsKeyPublishScheduler.reconcileTenants registrar result tenants).Keeps (decision settings)
      (Holds job read) := by
  induction tenants generalizing result with
  | nil => exact Async.Program.keeps_pure _
  | cons tenant rest ih =>
    have hrest := ih fun t ht => htenants t (List.mem_cons_of_mem _ ht)
    unfold JwsKeyPublishScheduler.reconcileTenants
    cases hkey : JwsKeyPublishScheduler.tenantKey tenant with
    | none => exact hrest result
    | some publicKey =>
      exact (keeps_reconcileTenant hjob (htenants tenant (List.mem_cons_self ..)) hkey
        result).bind hrest

theorem obeys_reconcile :
    (JwsKeyPublishScheduler.reconcile registrar).Obeys (decision settings) (initial .reconcile)
      fun _ _ => True := by
  refine ⟨⟨rfl, rfl⟩, fun a => ?_⟩
  rcases a with e | keys
  · trivial
  · have hholds : Holds .reconcile keys ((initial .reconcile).next (.findAll .write) (.ok keys)) :=
      ⟨rfl, rfl⟩
    refine Obeys.mono (keeps_reconcileTenants ?_ _ ?_ _ _ hholds) fun _ _ _ => trivial
    · rintro r' entity ⟨hjob, -⟩ hactivates
      rwa [Saves, hjob]
    · exact fun tenant htenant => List.mem_of_mem_filter htenant

theorem obeys_publishAndEnable (fspId : String) :
    (JwsKeyPublishScheduler.publishAndEnable registrar fspId).Obeys (decision settings)
      (initial (.publishAndEnable fspId)) fun _ _ => True := by
  unfold JwsKeyPublishScheduler.publishAndEnable
  refine obeys_find ⟨rfl, rfl⟩ ?_ fun _ _ => trivial
  rintro (_ | key)
  · trivial
  have hjob : ∀ r' entity, Holds (.publishAndEnable fspId) [key] r' →
      r'.Activates (fun _ => fspId) entity → r'.Saves settings entity := by
    rintro r' entity ⟨hjob, -⟩ hactivates
    rwa [Saves, hjob]
  cases hkey : JwsKeyPublishScheduler.tenantKey key with
  | none =>
    simp only [hkey]
    trivial
  | some publicKey =>
    simp only [hkey]
    have hactivate : ∀ r, Holds (.publishAndEnable fspId) [key] r → r.Confirmed fspId publicKey →
        (JwsKeyPublishScheduler.activate key >>= fun _ => pure () : TrustProgram Unit).Obeys
          (decision settings) r fun _ _ => True := by
      intro r hr hconfirmed
      rw [Async.Program.obeys_bind]
      refine (obeys_activate hr hjob (List.mem_singleton.mpr rfl) hkey hconfirmed).mono ?_
      rintro r' (e | _) -
      · trivial
      · trivial
    refine Obeys.seq (keeps_ensureRegistered fspId _ ⟨rfl, rfl⟩) ?_ fun _ _ _ => trivial
    intro _ r hr
    rw [Async.Program.obeys_bind]
    refine (obeys_storedKey fspId hr).mono ?_
    rintro r' _ ⟨hr', stored, rfl, hcerts⟩
    rw [Async.Program.onOk_ok]
    split
    · rw [Async.Program.obeys_bind]
      refine (obeys_publishAndVerify hr').mono ?_
      rintro r'' (e | cert) ⟨hr'', hconfirmed⟩
      · trivial
      · exact hactivate r'' hr'' (hconfirmed cert rfl)
    · rename_i hblank
      split
      · trivial
      · rename_i hsame
        apply hactivate r' hr'
        cases stored with
        | none => exact absurd rfl hblank
        | some stored =>
          exact ⟨stored, hcerts stored rfl, by simpa using hsame⟩

/-! The scheduler that fetches keys, and the commands. -/

theorem obeys_syncEntry (hr : r.job = .sync) (result : PeerJwsSyncScheduler.Result)
    (fspId publicKey : String) :
    (PeerJwsSyncScheduler.syncEntry result fspId publicKey).Obeys (decision settings) r
      fun r' result => ∀ a, result = .ok a → r'.job = .sync := by
  unfold PeerJwsSyncScheduler.syncEntry
  refine obeys_find (by rw [LooksUp, hr]) ?_ (by rintro _ _ _ ⟨⟩)
  rintro (_ | existing)
  · refine obeys_save ?_ (fun _ _ _ => hr) (by rintro _ _ _ _ _ _ ⟨⟩)
    rw [Saves, hr]
    exact .inl ⟨fspId, publicKey, rfl, rfl⟩
  · dsimp only
    split
    · exact fun _ _ => hr
    · rename_i hrole
      split
      · exact fun _ _ => hr
      · refine obeys_save ?_ (fun _ _ _ => hr) (by rintro _ _ _ _ _ _ ⟨⟩)
        rw [Saves, hr]
        exact .inr ⟨existing, publicKey, rfl, hrole, rfl⟩

theorem obeys_syncEntries (entries : List JwsCert) (hr : r.job = .sync)
    (result : PeerJwsSyncScheduler.Result) :
    (PeerJwsSyncScheduler.syncEntries result entries).Obeys (decision settings) r
      fun _ _ => True := by
  induction entries generalizing r result with
  | nil => trivial
  | cons entry rest ih =>
    unfold PeerJwsSyncScheduler.syncEntries
    cases entry.publicKey with
    | none => exact ih hr result
    | some publicKey =>
      dsimp only
      split
      · exact ih hr result
      · exact (obeys_syncEntry hr result _ publicKey).andThen (fun result r' hr' => ih hr' result)
          fun _ _ => trivial

theorem obeys_sync : PeerJwsSyncScheduler.sync.Obeys (decision settings) (initial .sync)
    fun _ _ => True := by
  refine ⟨trivial, fun a => ?_⟩
  rcases a with e | entries
  · trivial
  · exact obeys_syncEntries entries rfl _

/-- The entity with the stamp that it is saved with. -/
theorem obeys_stamped (entity : ParticipantKey) (r : Decision) :
    (UpdateJwsPolicyHandler.stamped entity).Obeys (decision settings) r fun r' result => r' = r ∧
      ∃ activatedAt, result = .ok { entity with jwsSignActivatedAt := activatedAt } ∧
        (entity.jwsSignActivatedAt.isSome = true → activatedAt = entity.jwsSignActivatedAt) ∧
        (entity.jwsSignEnabled = true → activatedAt.isSome = true) := by
  unfold UpdateJwsPolicyHandler.stamped
  split
  · rename_i hstamp
    rw [Bool.and_eq_true, Option.isNone_iff_eq_none] at hstamp
    refine ⟨trivial, fun activatedAt => ⟨rfl, some activatedAt, rfl, ?_, fun _ => rfl⟩⟩
    intro hsome
    rw [hstamp.2] at hsome
    cases hsome
  · rename_i hstamp
    refine ⟨rfl, entity.jwsSignActivatedAt, rfl, fun _ => rfl, ?_⟩
    intro henabled
    rw [henabled, Bool.true_and] at hstamp
    exact Option.isSome_iff_ne_none.mpr (by simpa using hstamp)

theorem obeys_updateJwsPolicy (input : UpdateJwsPolicyCommand.Input) :
    (UpdateJwsPolicyHandler.execute input).Obeys (decision settings)
      (initial (.updateJwsPolicy input)) fun _ _ => True := by
  unfold UpdateJwsPolicyHandler.execute
  refine obeys_find ⟨rfl, rfl⟩ ?_ fun _ _ => trivial
  rintro (_ | existing)
  · trivial
  dsimp only
  split
  · trivial
  split
  · trivial
  rw [Async.Program.obeys_bind]
  refine (obeys_stamped (UpdateJwsPolicyHandler.moved input existing) _).mono ?_
  rintro _ _ ⟨rfl, activatedAt, rfl, hkept, hstamped⟩
  refine obeys_save ?_ (fun _ => trivial) fun _ _ _ _ _ => trivial
  exact ⟨existing, activatedAt, rfl, rfl, hkept, hstamped⟩

theorem obeys_addSigningKeys (input : AddSigningKeysCommand.Input) :
    (AddSigningKeysHandler.execute input).Obeys (decision settings)
      (initial (.addSigningKeys input)) fun _ _ => True := by
  unfold AddSigningKeysHandler.execute
  refine obeys_find ⟨rfl, rfl⟩ ?_ fun _ _ => trivial
  intro existing
  exact obeys_save ⟨existing, rfl, rfl⟩ (fun _ => trivial) fun _ _ _ _ _ => trivial

/-! Onboarding. -/

/-- Onboarding goes on with the row that it has read. -/
def Onboards (input : OnboardFspCommand.Input) (existing : Option ParticipantKey) (r : Decision) :
    Prop :=
  r.job = .onboardFsp input ∧ r.read = existing.toList

variable {input : OnboardFspCommand.Input} {existing : Option ParticipantKey}

theorem onboards_aside {p : TrustProgram α} (hp : p.Within (·.isAside))
    (hr : Onboards input existing r) :
    p.Obeys (decision settings) r fun r' _ => Onboards input existing r' := by
  refine (obeys_aside hp r).mono ?_
  rintro _ _ rfl
  exact hr

theorem readRecord_aside (fspId : String) :
    (JwsKeyProvisioner.readRecord settings fspId).Within (·.isAside) := by
  unfold JwsKeyProvisioner.readRecord
  refine Within.bind ⟨rfl, fun _ => trivial⟩ ?_
  intro keyRef
  refine Within.bind ⟨rfl, fun _ => trivial⟩ ?_
  intro publicKey
  split
  · exact Within.unless trivial
  · trivial

theorem assertReady_aside (fspId : String) :
    (JwsKeyProvisioner.assertReady settings fspId).Within (·.isAside) := by
  unfold JwsKeyProvisioner.assertReady
  split
  · exact (readRecord_aside fspId).bind fun _ => trivial
  · trivial

/-- The private half is written to Vault for the pair that was generated last. -/
theorem obeys_provisionInVault (hr : Onboards input existing r) :
    (JwsKeyProvisioner.provisionInVault settings input.name).Obeys (decision settings) r
      fun r' result => Onboards input existing r' ∧ ∀ provisioned, result = .ok provisioned →
        r'.pair.map RsaKeyPair.publicKey = some provisioned.publicKeyPem := by
  refine ⟨trivial, fun keyPair => ⟨?_, fun a => ?_⟩⟩
  · exact ⟨input, keyPair, hr.1, rfl, rfl, rfl, rfl⟩
  · rcases a with _ | e | e
    · refine ⟨hr, ?_⟩
      rintro _ ⟨⟩
      rfl
    · exact ⟨hr, by rintro _ ⟨⟩⟩
    · exact ⟨hr, by rintro _ ⟨⟩⟩

theorem obeys_provision (hr : Onboards input existing r) :
    (JwsKeyProvisioner.provision settings input.name).Obeys (decision settings) r
      fun r' result => Onboards input existing r' ∧ ∀ provisioned, result = .ok provisioned →
        settings.keyProvider = .vaultKv → ∃ p, provisioned = some p ∧
          r'.pair.map RsaKeyPair.publicKey = some p.publicKeyPem := by
  unfold JwsKeyProvisioner.provision
  split
  · rw [Async.Program.obeys_bind]
    refine (obeys_provisionInVault hr).mono ?_
    rintro r' (e | provisioned) ⟨hr', hpair⟩
    · exact ⟨hr', by rintro _ ⟨⟩⟩
    · refine ⟨hr', ?_⟩
      rintro _ ⟨⟩ -
      exact ⟨provisioned, rfl, hpair provisioned rfl⟩
  all_goals rename_i hprovider
  · rw [Async.Program.obeys_bind]
    refine (onboards_aside (readRecord_aside _) hr).mono ?_
    rintro r' (e | publicKey) hr'
    · exact ⟨hr', by rintro _ ⟨⟩⟩
    · exact ⟨hr', fun _ _ hvault => by simp [hprovider] at hvault⟩
  · exact ⟨trivial, fun _ => ⟨hr, fun _ _ hvault => by simp [hprovider] at hvault⟩⟩
  · exact ⟨hr, fun _ _ hvault => by simp [hprovider] at hvault⟩

theorem obeys_provisionSigningKey (hr : r.job = .onboardFsp input) :
    (OnboardFspHandler.provisionSigningKey settings input.name).Obeys (decision settings) r
      fun r' result => settings.keyProvider = .vaultKv → result.isOk = true → r'.assured = true := by
  unfold OnboardFspHandler.provisionSigningKey
  refine obeys_find (by simp [LooksUp, hr]) ?_ (by rintro _ _ - ⟨⟩)
  intro existing
  split
  · rename_i hholds
    intro _ _
    simp [hholds]
  rename_i hholds
  have hfound : Onboards input existing { r with
      read := existing.toList, assured := r.assured || OnboardFspHandler.holdsKey existing } :=
    ⟨hr, rfl⟩
  rw [Async.Program.obeys_bind]
  refine (obeys_provision hfound).mono ?_
  rintro r' (e | provisioned) ⟨hr', hprovisioned⟩
  · rintro - ⟨⟩
  rw [Async.Program.onOk_ok]
  cases provisioned with
  | none =>
    intro hvault _
    obtain ⟨p, hp, -⟩ := hprovisioned none rfl hvault
    cases hp
  | some provisioned =>
    refine obeys_save ?_ ?_ (by rintro _ _ _ _ _ - ⟨⟩)
    · rw [Saves, hr'.1]
      refine ⟨existing, provisioned, hr'.2, by simpa using hholds, rfl, ?_⟩
      intro hvault
      obtain ⟨p, hp, hpair⟩ := hprovisioned _ rfl hvault
      cases hp
      exact hpair
    · intro saved
      split
      · exact ⟨trivial, fun _ _ _ => rfl⟩
      · exact fun _ _ => rfl

theorem obeys_onboardFsp (input : OnboardFspCommand.Input) :
    (OnboardFspHandler.execute settings input).Obeys (decision settings)
      (initial (.onboardFsp input)) fun r result =>
        settings.keyProvider = .vaultKv → result.isOk = true → r.assured = true := by
  have haside : ∀ {β : Type} {p : TrustProgram β} {r : Decision}, p.Within (·.isAside) →
      r.job = .onboardFsp input → p.Obeys (decision settings) r fun r' _ => r'.job = .onboardFsp input := by
    intro β p r hp hr
    refine (obeys_aside hp r).mono ?_
    rintro _ _ rfl
    exact hr
  have hrest : ∀ r : Decision, r.job = .onboardFsp input → (do
      CentralLedgerFacade.onboardFsp input.name input.currencies input.endpoint
      let existing ← ParticipantRepository.findByName input.name
      let saved ← ParticipantRepository.save
        ⟨(existing.map ParticipantEntity.id).getD 0, input.name, input.accessPublicKey⟩
      OnboardFspHandler.provisionSigningKey settings input.name
      return saved.id : TrustProgram ℕ).Obeys (decision settings) r fun r' result =>
        settings.keyProvider = .vaultKv → result.isOk = true → r'.assured = true := by
    intro r hr
    have hledger := (onboardFsp_within input.name input.currencies input.endpoint).mono
      TrustOp.isAside_of_isLedger
    refine (haside hledger hr).seq ?_ (by rintro _ _ - - ⟨⟩)
    intro _ r hr
    refine (haside (p := ParticipantRepository.findByName input.name) ⟨rfl, fun _ => trivial⟩
      hr).seq ?_ (by rintro _ _ - - ⟨⟩)
    intro found r hr
    refine (haside (p := ParticipantRepository.save _) ⟨rfl, fun _ => trivial⟩ hr).seq ?_
      (by rintro _ _ - - ⟨⟩)
    intro saved r hr
    rw [Async.Program.obeys_bind]
    refine (obeys_provisionSigningKey hr).mono ?_
    rintro r' (e | _) h
    · rintro - ⟨⟩
    · exact h
  unfold OnboardFspHandler.execute
  refine obeys_find ⟨rfl, rfl⟩ ?_ (by rintro _ _ - ⟨⟩)
  intro existingKey
  split
  · refine (haside (assertReady_aside input.name) rfl).seq ?_ (by rintro _ _ - - ⟨⟩)
    exact fun _ r hr => hrest r hr
  · exact hrest _ rfl

/-! Every job. -/

/-- What is known of a job that has settled. -/
def Settled (settings : OnboardSettings) (job : TrustJob) (r : Decision) (result : Except JsError Unit) :
    Prop :=
  ∀ input, job = .onboardFsp input → settings.keyProvider = .vaultKv → result.isOk = true →
    r.assured = true

theorem obeys_returning {p : TrustProgram α} (h : p.Obeys (decision settings) r fun _ _ => True)
    (hjob : ∀ input, job ≠ .onboardFsp input) :
    (p >>= fun _ => pure () : TrustProgram Unit).Obeys (decision settings) r
      (Settled settings job) := by
  rw [Async.Program.obeys_bind]
  refine h.mono ?_
  rintro r' (e | a) -
  · exact fun input hinput => absurd hinput (hjob input)
  · exact fun input hinput => absurd hinput (hjob input)

theorem obeys_job (settings : TrustSettings) (job : TrustJob) :
    (job.execute settings).Obeys (decision settings.toOnboardSettings) (initial job)
      (Settled settings.toOnboardSettings job) := by
  cases job with
  | reconcile => exact obeys_returning obeys_reconcile nofun
  | publishAndEnable fspId =>
    refine (obeys_publishAndEnable fspId).mono ?_
    rintro _ _ - _ ⟨⟩
  | sync => exact obeys_returning obeys_sync nofun
  | updateJwsPolicy input => exact obeys_returning (obeys_updateJwsPolicy input) nofun
  | addSigningKeys input => exact obeys_returning (obeys_addSigningKeys input) nofun
  | onboardFsp input =>
    rw [TrustJob.execute, Async.Program.obeys_bind]
    refine (obeys_onboardFsp input).mono ?_
    rintro r (e | id) hassured
    · rintro _ _ _ ⟨⟩
    · exact fun _ _ hvault hok => hassured hvault rfl
  | land x => exact ⟨rfl, fun _ => by rintro _ ⟨⟩⟩
  | replaceJwsKey dfspId publicKey => exact ⟨trivial, fun _ => by rintro _ ⟨⟩⟩

end Decision
end Trust
