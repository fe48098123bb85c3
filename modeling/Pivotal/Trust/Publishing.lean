import Pivotal.Trust.Calls

/-! The keys that the Connection Manager holds beside the passes that publish keys. A pass fills a
gap that it has read, and the read and the write are two calls. -/
namespace Trust
open Async (Config Event Label Monitor Process System Written)
open Async.Program (Obeys Within lift perform)
open Fspiop (JsError)
open Participant (ParticipantKey)

/-- How far a pass has come with a tenant. -/
inductive Stage where
  | idle
  | absent (dfspId : String)
  | posted
  deriving DecidableEq

/-- The keys a pass has read from the registry, by the name it publishes them under. -/
structure Publication where
  known : List (String × String)
  stage : Stage
  deriving DecidableEq

namespace Publication

def initial : Publication := ⟨[], .idle⟩

def learn (r : Publication) (keys : List (String × String)) : Publication :=
  ⟨keys ++ r.known, .idle⟩

/-- The name and the key of a tenant. -/
def named (key : ParticipantKey) : Option (String × String) :=
  (JwsKeyPublishScheduler.tenantKey key).map fun publicKey => (key.fspId, publicKey)

/-- A key that cannot be read counts as a key that is not there; the read after a publication only
compares. -/
def afterRead (r : Publication) (dfspId : String) (stored : Option String) : Publication :=
  match r.stage with
  | .posted => { r with stage := .idle }
  | _ => { r with stage := if Js.blank stored then .absent dfspId else .idle }

def afterPublish (r : Publication) (a : Except JsError JwsCert) : Publication :=
  { r with stage := if a.isOk then .posted else .idle }

def next (r : Publication) : (op : TrustOp) → TrustAnswer op → Publication
  | .findByFspId fspId _, a => r.learn
    (((a.toOption.join.bind JwsKeyPublishScheduler.tenantKey).map fun key => (fspId, key)).toList)
  | .findAll _, a => r.learn ((a.toOption.getD []).filterMap named)
  | .getJwsKey dfspId, a => r.afterRead dfspId (a.toOption.bind JwsCert.publicKey)
  | .publishJwsKey _ _, a => r.afterPublish a.toExcept
  | _, _ => r

/-- The key may be posted to fill a gap. -/
def Pending (r : Publication) (dfspId publicKey : String) : Prop :=
  r.stage = .absent dfspId ∧ (dfspId, publicKey) ∈ r.known

def allows (r : Publication) : TrustOp → Prop
  | .publishJwsKey dfspId publicKey => r.Pending dfspId publicKey
  | .land _ => r.stage = .idle
  | .replaceJwsKey _ _ => r.stage = .idle
  | _ => True

end Publication

/-- A key is published only for a tenant of the registry, after a read that found none. -/
def publication : Monitor TrustOp TrustAnswer Publication :=
  ⟨Publication.next, Publication.allows⟩

/-- A call that neither reads a key nor stores one at the Connection Manager. -/
def TrustOp.isQuiet : TrustOp → Bool
  | .findByFspId _ _ => false
  | .findAll _ => false
  | .getJwsKey _ => false
  | .publishJwsKey _ _ => false
  | .land _ => false
  | .replaceJwsKey _ _ => false
  | _ => true

namespace Publication

section Programs

variable {α : Type} {registrar : Bool} {r : Publication}

theorem obeys_quiet {p : TrustProgram α} (h : p.Within (·.isQuiet)) (r : Publication) :
    p.Obeys publication r fun r' _ => r' = r := by
  refine Within.keeps (R := fun r' => r' = r) h ?_ r rfl
  intro r' op hr hop
  subst hr
  cases op with
  | findByFspId _ _ | findAll _ | getJwsKey _ | publishJwsKey _ _ | land _ | replaceJwsKey _ _ =>
    cases hop
  | _ => exact ⟨trivial, fun _ => rfl⟩

theorem ensureRegistered_within (fspId : String) :
    (JwsKeyPublishScheduler.ensureRegistered registrar fspId).Within (·.isQuiet) := by
  cases registrar with
  | true => exact ⟨rfl, fun _ => trivial⟩
  | false => trivial

theorem activate_within (key : ParticipantKey) :
    (JwsKeyPublishScheduler.activate key).Within (·.isQuiet) := by
  unfold JwsKeyPublishScheduler.activate
  split
  · trivial
  · refine ⟨rfl, fun now => ⟨rfl, fun a => ?_⟩⟩
    cases a <;> trivial

/-- Between two tenants. -/
def Rests (known : List (String × String)) (r : Publication) : Prop :=
  r.stage = .idle ∧ r.known = known

variable {known : List (String × String)}

theorem keeps_quiet {p : TrustProgram α} (h : p.Within (·.isQuiet)) :
    p.Keeps publication (Rests known) := by
  intro r hr
  refine Obeys.mono (obeys_quiet h r) ?_
  rintro _ _ rfl
  exact hr

theorem obeys_publishAndVerify {dfspId publicKey : String} (h : r.Pending dfspId publicKey) :
    (McmAxios.publishAndVerifyJwsKey dfspId publicKey).Obeys publication r
      fun r' _ => Rests r.known r' := by
  refine ⟨h, fun a => ?_⟩
  rcases a with cert | e | e
  · refine ⟨trivial, fun a => ?_⟩
    rcases a with e | stored
    · exact ⟨rfl, rfl⟩
    · exact Async.Program.Keeps.unless (Async.Program.keeps_pure _) _ ⟨rfl, rfl⟩
  · exact ⟨rfl, rfl⟩
  · exact ⟨rfl, rfl⟩

theorem obeys_storedKey {dfspId : String} {f : Option String → TrustProgram α}
    {Q : Publication → Except JsError α → Prop}
    (h : ∀ stored, (f stored).Obeys publication (r.afterRead dfspId stored) Q) :
    (JwsKeyPublishScheduler.storedKey dfspId >>= f).Obeys publication r Q := by
  refine ⟨trivial, fun a => ?_⟩
  rcases a with e | cert
  · exact h none
  · exact h cert.publicKey

/-- What is read of a tenant, and what is published if there is nothing. -/
theorem keeps_fill {fspId publicKey : String} {f : JwsCert → TrustProgram α}
    {g : Option String → TrustProgram α} (hknown : (fspId, publicKey) ∈ known)
    (hf : ∀ cert, (f cert).Keeps publication (Rests known))
    (hg : ∀ stored, (g stored).Keeps publication (Rests known)) :
    (do
      JwsKeyPublishScheduler.ensureRegistered registrar fspId
      let stored ← JwsKeyPublishScheduler.storedKey fspId
      if Js.blank stored then
        let cert ← McmAxios.publishAndVerifyJwsKey fspId publicKey
        f cert
      else
        g stored).Keeps publication (Rests known) := by
  refine (keeps_quiet (ensureRegistered_within fspId)).bind ?_
  intro _ r hr
  obtain ⟨hstage, rfl⟩ := hr
  apply obeys_storedKey
  intro stored
  have hread : r.afterRead fspId stored =
      { r with stage := if Js.blank stored then .absent fspId else .idle } := by
    simp [afterRead, hstage]
  by_cases hblank : Js.blank stored = true
  · simp only [hblank, if_true] at hread ⊢
    rw [hread]
    have hpending : Pending ⟨r.known, .absent fspId⟩ fspId publicKey := ⟨rfl, hknown⟩
    apply (obeys_publishAndVerify hpending).seq
    · exact fun cert r' hr' => hf cert r' hr'
    · exact fun _ _ hr' => hr'
  · simp only [hblank, Bool.false_eq_true, if_false] at hread ⊢
    rw [hread]
    exact hg stored _ ⟨rfl, rfl⟩

theorem keeps_check {fspId publicKey : String} (hknown : (fspId, publicKey) ∈ known) :
    (JwsKeyPublishScheduler.check registrar fspId publicKey).Keeps publication (Rests known) := by
  apply keeps_fill hknown
  · exact fun _ => Async.Program.keeps_pure _
  · intro stored
    split
    · exact Async.Program.keeps_pure _
    · exact Async.Program.keeps_pure _

theorem keeps_reconcileTenant {tenant : ParticipantKey} {publicKey : String}
    (hknown : (tenant.fspId, publicKey) ∈ known) (result : JwsKeyPublishScheduler.Result) :
    (JwsKeyPublishScheduler.reconcileTenant registrar result tenant publicKey).Keeps publication
      (Rests known) := by
  have henable : ∀ result : JwsKeyPublishScheduler.Result, (tryCatch (do
      if ← JwsKeyPublishScheduler.activate tenant then
        return { result with activated := result.activated + 1 }
      return result) fun _ => return { result with failed := result.failed + 1 } :
      TrustProgram JwsKeyPublishScheduler.Result).Keeps publication (Rests known) := by
    intro result
    refine Async.Program.Keeps.tryCatch ?_ fun _ => Async.Program.keeps_pure _
    refine (keeps_quiet (activate_within tenant)).bind ?_
    rintro (_ | _)
    · exact Async.Program.keeps_pure _
    · exact Async.Program.keeps_pure _
  have hcheck : (tryCatch (do return some (← JwsKeyPublishScheduler.check registrar tenant.fspId
      publicKey)) fun _ => return none :
      TrustProgram (Option JwsKeyPublishScheduler.Checked)).Keeps publication (Rests known) := by
    refine Async.Program.Keeps.tryCatch ?_ fun _ => Async.Program.keeps_pure _
    exact (keeps_check hknown).bind fun _ => Async.Program.keeps_pure _
  refine hcheck.bind ?_
  rintro (_ | _ | _ | _)
  · exact Async.Program.keeps_pure _
  · exact henable _
  · exact henable _
  · exact Async.Program.keeps_pure _

theorem keeps_reconcileTenants (tenants : List ParticipantKey)
    (hknown : ∀ tenant ∈ tenants, ∀ p, named tenant = some p → p ∈ known)
    (result : JwsKeyPublishScheduler.Result) :
    (JwsKeyPublishScheduler.reconcileTenants registrar result tenants).Keeps publication
      (Rests known) := by
  induction tenants generalizing result with
  | nil => exact Async.Program.keeps_pure _
  | cons tenant rest ih =>
    have hrest := ih fun t ht => hknown t (List.mem_cons_of_mem _ ht)
    unfold JwsKeyPublishScheduler.reconcileTenants
    cases hkey : JwsKeyPublishScheduler.tenantKey tenant with
    | none => exact hrest result
    | some publicKey =>
      refine (keeps_reconcileTenant ?_ result).bind hrest
      exact hknown tenant (List.mem_cons_self ..) _ (by simp [named, hkey])

theorem obeys_reconcile :
    (JwsKeyPublishScheduler.reconcile registrar).Obeys publication initial fun _ _ => True := by
  refine ⟨trivial, fun a => ?_⟩
  rcases a with e | keys
  · trivial
  · have hrests : Rests (keys.filterMap named) (initial.learn (keys.filterMap named)) :=
      ⟨rfl, List.append_nil _⟩
    apply Obeys.mono (keeps_reconcileTenants _ ?_ _ _ hrests) fun _ _ _ => trivial
    intro tenant htenant p hp
    exact List.mem_filterMap.mpr ⟨tenant, List.mem_of_mem_filter htenant, hp⟩

/-- What a command knows once it has found the row of a tenant. -/
def Found (fspId : String) (r : Publication) (found : Option ParticipantKey) : Prop :=
  r.stage = .idle ∧ ∀ key publicKey, found = some key →
    JwsKeyPublishScheduler.tenantKey key = some publicKey → (fspId, publicKey) ∈ r.known

theorem obeys_find (fspId : String) (target : DbTarget) :
    (ParticipantKeyRepository.findByFspId fspId target).Obeys publication initial
      fun r result => ∀ found, result = .ok found → Found fspId r found := by
  refine ⟨trivial, fun a => ?_⟩
  rcases a with e | found
  · rintro _ ⟨⟩
  · rintro _ ⟨⟩
    refine ⟨rfl, ?_⟩
    rintro key publicKey rfl hkey
    simp [publication, next, learn, Except.toOption, hkey]

theorem obeys_publishAndEnable (fspId : String) :
    (JwsKeyPublishScheduler.publishAndEnable registrar fspId).Obeys publication initial
      fun _ _ => True := by
  apply (obeys_find fspId .write).andThen
  · rintro (_ | key) r ⟨hstage, hknown⟩
    · trivial
    have hactivate : (JwsKeyPublishScheduler.activate key >>= fun _ => pure () :
        TrustProgram Unit).Keeps publication (Rests r.known) :=
      (keeps_quiet (activate_within key)).bind fun _ => Async.Program.keeps_pure _
    cases hkey : JwsKeyPublishScheduler.tenantKey key with
    | none =>
      simp only [hkey]
      trivial
    | some publicKey =>
      simp only [hkey]
      refine Obeys.mono (keeps_fill (hknown key publicKey rfl hkey) (fun _ => hactivate) ?_ r
        ⟨hstage, rfl⟩) fun _ _ _ => trivial
      exact fun stored => Async.Program.Keeps.unless hactivate
  · exact fun _ _ => trivial

theorem obeys_local {p : TrustProgram α} (h : p.Within (·.isLocal)) :
    p.Obeys publication initial fun _ _ => True := by
  refine Obeys.mono (Within.keeps (R := fun r => r.stage = .idle) h ?_ initial rfl) fun _ _ _ => trivial
  intro r op hr hop
  cases op with
  | getJwsKey _ | publishJwsKey _ _ => cases hop
  | findByFspId _ _ | findAll _ => exact ⟨trivial, fun _ => rfl⟩
  | land _ | replaceJwsKey _ _ => exact ⟨hr, fun _ => hr⟩
  | _ => exact ⟨trivial, fun _ => hr⟩

theorem obeys_job (settings : TrustSettings) (job : TrustJob) :
    (job.execute settings).Obeys publication initial fun _ _ => True := by
  cases job with
  | reconcile =>
    rw [TrustJob.execute, Async.Program.obeys_bind]
    refine Obeys.mono obeys_reconcile ?_
    rintro r (e | result) _
    · trivial
    · trivial
  | publishAndEnable fspId => exact obeys_publishAndEnable fspId
  | sync | updateJwsPolicy _ | addSigningKeys _ | onboardFsp _ | land _ | replaceJwsKey _ _ =>
    exact obeys_local (TrustJob.within_isLocal rfl)

end Programs
end Publication

variable {ι κ : Type} {collate : String → String}

/-- The Connection Manager holds no other key. -/
def Registry.Free (s : Registry collate) (dfspId publicKey : String) : Prop :=
  Js.blank (s.mcm.get dfspId) = true ∨ s.mcm.get dfspId = some publicKey

/-- No other key of the DFSP is about to be published, by another process or by a late write. -/
structure Undisputed (s : Registry collate) (f : ι → Option Publication) (i : ι)
    (dfspId publicKey : String) : Prop where
  pending : ∀ j r key, j ≠ i → f j = some r → r.Pending dfspId key → key = publicKey
  late : ∀ key, .jwsKey dfspId key ∈ s.late → key = publicKey

/-- The conditions of the result. The read before a publication fails only where there is no key,
and no key is stored while another is about to be published for the DFSP. -/
def Orderly (s : Registry collate) (f : ι → Option Publication) :
    Label ι TrustOp TrustAnswer κ → Prop
  | .call i ⟨.getJwsKey dfspId, .error _⟩ => ∀ r, f i = some r → r.stage ≠ .posted →
    Js.blank (s.mcm.get dfspId) = true
  | .call i ⟨.publishJwsKey dfspId publicKey, a⟩ => a.isRejected = false →
    Undisputed s f i dfspId publicKey
  | .call i ⟨.land (.jwsKey dfspId publicKey), _⟩ => .jwsKey dfspId publicKey ∈ s.late →
    Undisputed s f i dfspId publicKey
  | .call i ⟨.replaceJwsKey dfspId (some publicKey), _⟩ => Js.blank (some publicKey) = false →
    Undisputed s f i dfspId publicKey
  | _ => True

/-- Whatever is about to be published fills a gap. -/
structure Filling (s : Registry collate) (f : ι → Option Publication) : Prop where
  pending : ∀ i r dfspId publicKey, f i = some r → r.Pending dfspId publicKey →
    s.Free dfspId publicKey
  late : ∀ dfspId publicKey, .jwsKey dfspId publicKey ∈ s.late → s.Free dfspId publicKey

/-- No key is stored, and none is about to be that was not. -/
structure SameKeys (s s' : Registry collate) : Prop where
  mcm : s'.mcm = s.mcm
  late : ∀ dfspId publicKey, .jwsKey dfspId publicKey ∈ s'.late → .jwsKey dfspId publicKey ∈ s.late

/-- A call that may store a key at the Connection Manager. -/
def TrustOp.isStore : TrustOp → Bool
  | .publishJwsKey _ _ => true
  | .land (.jwsKey _ _) => true
  | .replaceJwsKey _ _ => true
  | _ => false

section Moves

variable {settings : TrustSettings} {s s' : Registry collate} {f : ι → Option Publication}

theorem sameKeys_of_eq (hmcm : s'.mcm = s.mcm) (hlate : s'.late = s.late) : SameKeys s s' := by
  refine ⟨hmcm, ?_⟩
  rw [hlate]
  exact fun _ _ h => h

theorem sameKeys_applies {ε α : Type} (a : Written ε α) (h : SameKeys s s') :
    SameKeys s (a.applies s s') := by
  cases a with
  | done _ | lost _ => exact h
  | rejected _ => exact sameKeys_of_eq rfl rfl

theorem sameKeys_of_performs {op : TrustOp} {a : TrustAnswer op} (hop : op.isStore = false)
    (hp : s.performs op a s') : SameKeys s s' := by
  cases op with
  | findByFspId _ _ | findAll _ | getJwsKey _ | readKvField _ _ | getParticipant _ | findByName _ =>
    rw [show s' = s from hp.1]
    exact sameKeys_of_eq rfl rfl
  | now | ensureRegistered _ | listAllJwsKeys | announce _ =>
    rw [show s' = s from hp]
    exact sameKeys_of_eq rfl rfl
  | save _ =>
    obtain ⟨row, -, ⟨h, rfl, -⟩ | ⟨-, -, rfl⟩⟩ := hp
    · exact sameKeys_applies a (sameKeys_of_eq rfl rfl)
    · exact sameKeys_of_eq rfl rfl
  | saveParticipant _ =>
    obtain ⟨row, -, ⟨h, rfl, -⟩ | ⟨-, -, rfl⟩⟩ := hp
    · exact sameKeys_applies a (sameKeys_of_eq rfl rfl)
    · exact sameKeys_of_eq rfl rfl
  | generateKeyPair =>
    rw [show s' = _ from hp.1]
    exact sameKeys_of_eq rfl rfl
  | writeKvField path field value =>
    rcases hp with rfl | ⟨-, rfl⟩
    · exact sameKeys_applies a (sameKeys_of_eq rfl rfl)
    · refine ⟨rfl, ?_⟩
      intro dfspId publicKey h
      simpa [Registry.delay] using h
  | createParticipant name currency =>
    simp only [Registry.performs] at hp
    split at hp
    · rw [hp.2]
      exact sameKeys_of_eq rfl rfl
    · obtain ⟨position, settlement, -, -, rfl, -⟩ := hp
      exact sameKeys_applies a (sameKeys_of_eq rfl rfl)
  | createParticipantInitialPositionAndLimits name request =>
    simp only [Registry.performs] at hp
    split at hp
    · rw [hp.2]
      exact sameKeys_of_eq rfl rfl
    · rw [hp]
      exact sameKeys_applies a (sameKeys_of_eq rfl rfl)
  | updateParticipantAccount _ _ _ | upsertParticipantEndpoints _ _ _ =>
    rw [show s' = _ from hp]
    exact sameKeys_applies a (sameKeys_of_eq rfl rfl)
  | land x =>
    cases x with
    | jwsKey _ _ => cases hop
    | kvField path field value =>
      rw [show s' = _ from hp, Registry.land]
      split
      · refine ⟨rfl, ?_⟩
        exact fun _ _ h => List.mem_of_mem_erase h
      · exact sameKeys_of_eq rfl rfl
  | publishJwsKey _ _ | replaceJwsKey _ _ => cases hop

theorem free_congr (h : s'.mcm = s.mcm) {dfspId publicKey : String}
    (hfree : s.Free dfspId publicKey) : s'.Free dfspId publicKey := by
  rwa [Registry.Free, h]

/-- A key that is stored while no other is about to be published. -/
theorem free_set {dfspId publicKey dfspId' publicKey' : String}
    (hmcm : s'.mcm = s.mcm.set dfspId publicKey) (hfree : s.Free dfspId' publicKey')
    (h : dfspId' = dfspId → Js.blank (some publicKey) = true ∨ publicKey' = publicKey) :
    s'.Free dfspId' publicKey' := by
  rw [Registry.Free, hmcm, Js.Map.get_set]
  by_cases hd : dfspId' = dfspId
  · simp only [hd, if_true]
    rcases h hd with hblank | rfl
    · exact .inl hblank
    · exact .inr rfl
  · rwa [if_neg hd]

variable [DecidableEq ι] {i : ι} {r r' : Publication}

/-- One process goes on, and what the others are about to publish stays free. -/
theorem Filling.update (h : Filling s f)
    (hothers : ∀ j r d k, j ≠ i → f j = some r → r.Pending d k → s.Free d k → s'.Free d k)
    (hown : ∀ d k, r'.Pending d k → s'.Free d k)
    (hlate : ∀ d k, .jwsKey d k ∈ s'.late → s'.Free d k) :
    Filling s' (Function.update f i (some r')) := by
  refine ⟨?_, hlate⟩
  intro j r d k hj hpending
  rcases Async.update_eq_some.mp hj with ⟨-, hr⟩ | ⟨hne, hj⟩
  · obtain rfl : r' = r := Option.some.inj hr
    exact hown d k hpending
  · exact hothers j r d k hne hj hpending (h.pending j r d k hj hpending)

theorem Filling.pass (h : Filling s f) (hsame : SameKeys s s')
    (hown : ∀ d k, r'.Pending d k → s.Free d k) : Filling s' (Function.update f i (some r')) := by
  apply h.update
  · exact fun _ _ _ _ _ _ _ hfree => free_congr hsame.mcm hfree
  · exact fun d k hpending => free_congr hsame.mcm (hown d k hpending)
  · exact fun d k hlate => free_congr hsame.mcm (h.late d k (hsame.late d k hlate))

/-- A key is stored while no other is about to be published. -/
theorem Filling.store (h : Filling s f) {dfspId publicKey : String}
    (hmcm : s'.mcm = s.mcm.set dfspId publicKey)
    (hlate : ∀ d k, .jwsKey d k ∈ s'.late → .jwsKey d k ∈ s.late)
    (hundisputed : Js.blank (some publicKey) = false → Undisputed s f i dfspId publicKey)
    (hown : ∀ d k, r'.Pending d k → s'.Free d k) : Filling s' (Function.update f i (some r')) := by
  apply h.update
  · intro j r d k hj hr hpending hfree
    apply free_set hmcm hfree
    rintro rfl
    cases hblank : Js.blank (some publicKey) with
    | true => exact .inl rfl
    | false => exact .inr ((hundisputed hblank).pending j r k hj hr hpending)
  · exact hown
  · intro d k hd
    apply free_set hmcm (h.late d k (hlate d k hd))
    rintro rfl
    cases hblank : Js.blank (some publicKey) with
    | true => exact .inl rfl
    | false => exact .inr ((hundisputed hblank).late k (hlate _ k hd))

/-- The keys that are not blank stay. -/
def Registry.KeepsKeys (s s' : Registry collate) : Prop :=
  ∀ dfspId publicKey, s.mcm.get dfspId = some publicKey → Js.blank (some publicKey) = false →
    s'.mcm.get dfspId = some publicKey

theorem keepsKeys_store {dfspId publicKey : String} (hfree : s.Free dfspId publicKey)
    (hmcm : s'.mcm = s.mcm.set dfspId publicKey) : s.KeepsKeys s' := by
  intro d k hget hblank
  rw [hmcm, Js.Map.get_set]
  split
  · rename_i hd
    rcases hd ▸ hfree with hempty | hsame
    · rw [hget, hblank] at hempty
      cases hempty
    · rw [← hsame, hget]
  · exact hget

theorem not_pending_of_rest {known : List (String × String)} {stage : Stage}
    (h : ∀ d, stage ≠ .absent d) (d k : String) : ¬ Publication.Pending ⟨known, stage⟩ d k :=
  fun hpending => h d hpending.1

/-- A key that may be published was read as missing, or by a call that failed. -/
theorem free_of_read {dfspId : String} {a : Except JsError JwsCert}
    (ha : ∀ cert, a = .ok cert → cert.publicKey = s.mcm.get dfspId)
    (herror : ∀ e, a = .error e → r.stage ≠ .posted → Js.blank (s.mcm.get dfspId) = true)
    {d k : String} (h : (r.next (.getJwsKey dfspId) a).Pending d k) : s.Free d k := by
  obtain ⟨hstage, -⟩ := h
  simp only [Publication.next, Publication.afterRead] at hstage
  left
  cases hr : r.stage with
  | posted => simp [hr] at hstage
  | idle | absent _ =>
    simp only [hr] at hstage
    by_cases hblank : Js.blank (a.toOption.bind JwsCert.publicKey) = true
    · simp only [hblank, if_true, Stage.absent.injEq] at hstage
      subst hstage
      rcases a with e | cert
      · exact herror e rfl (by simp [hr])
      · rwa [← ha cert rfl]
    · simp [hblank] at hstage

theorem Filling.call {op : TrustOp} {a : TrustAnswer op} {s s' : Registry settings.collate}
    (h : Filling s f) (hi : f i = some r) (hr : r.allows op)
    (hl : Orderly s f (.call i ⟨op, a⟩ : Label ι TrustOp TrustAnswer κ))
    (hp : s.performs op a s') :
    Filling s' (Function.update f i (some (r.next op a))) := by
  cases op with
  | getJwsKey dfspId =>
    obtain ⟨rfl, hcert⟩ := hp
    apply h.pass (sameKeys_of_eq rfl rfl)
    intro d k hpending
    refine free_of_read hcert ?_ hpending
    rintro e rfl hstage
    exact hl r hi hstage
  | findByFspId _ _ | findAll _ =>
    apply h.pass (sameKeys_of_performs rfl hp)
    exact fun d k hpending => (not_pending_of_rest (by simp) d k hpending).elim
  | publishJwsKey dfspId publicKey =>
    have hown : ∀ d k, ¬ (r.next (.publishJwsKey dfspId publicKey) a).Pending d k := by
      intro d k
      apply not_pending_of_rest
      cases a.toExcept <;> simp [Except.isOk, Except.toBool]
    rcases hp with rfl | ⟨-, rfl⟩
    · rcases a with cert | e | e
      · exact h.store rfl (fun _ _ h => h) (fun _ => hl rfl) fun d k hd => (hown d k hd).elim
      · exact h.store rfl (fun _ _ h => h) (fun _ => hl rfl) fun d k hd => (hown d k hd).elim
      · exact h.pass (sameKeys_of_eq rfl rfl) fun d k hd => (hown d k hd).elim
    · apply h.update
      · exact fun _ _ _ _ _ _ _ hfree => hfree
      · exact fun d k hd => (hown d k hd).elim
      · intro d k hd
        rcases List.mem_cons.mp hd with heq | hd
        · obtain ⟨rfl, rfl⟩ : d = dfspId ∧ k = publicKey := by simpa using heq
          exact h.pending i r d k hi hr
        · exact h.late d k hd
  | land x =>
    have hown : ∀ d k, ¬ r.Pending d k := by
      rintro d k ⟨hstage, -⟩
      rw [show r.stage = .idle from hr] at hstage
      cases hstage
    cases x with
    | kvField path field value =>
      exact h.pass (sameKeys_of_performs rfl hp) fun d k hd => (hown d k hd).elim
    | jwsKey dfspId publicKey =>
      rw [show s' = _ from hp, Registry.land]
      split
      · rename_i hmem
        apply h.store rfl (fun _ _ hd => List.mem_of_mem_erase hd) (fun _ => hl hmem)
        exact fun d k hd => (hown d k hd).elim
      · exact h.pass (sameKeys_of_eq rfl rfl) fun d k hd => (hown d k hd).elim
  | replaceJwsKey dfspId publicKey =>
    have hown : ∀ d k, ¬ r.Pending d k := by
      rintro d k ⟨hstage, -⟩
      rw [show r.stage = .idle from hr] at hstage
      cases hstage
    rw [show s' = _ from hp]
    cases publicKey with
    | some publicKey =>
      exact h.store rfl (fun _ _ hd => hd) hl fun d k hd => (hown d k hd).elim
    | none =>
      have hdelete : ∀ {d k}, s.Free d k → (s.replaceJwsKey dfspId none).Free d k := by
        intro d k hfree
        simp only [Registry.Free, Registry.replaceJwsKey, Js.Map.get_delete]
        split
        · exact .inl rfl
        · exact hfree
      apply h.update
      · exact fun _ _ _ _ _ _ _ hfree => hdelete hfree
      · exact fun d k hd => (hown d k hd).elim
      · exact fun d k hd => hdelete (h.late d k hd)
  | _ => exact h.pass (sameKeys_of_performs rfl hp) fun d k hd => h.pending i r d k hi hd

theorem Filling.move {s s' : Registry settings.collate} {f f' : ι → Option Publication}
    {kinds : TrustJob → Prop}
    {l : Label ι TrustOp TrustAnswer { job // kinds job }} (h : Filling s f) (hl : Orderly s f l)
    (hm : (provisioning settings kinds).Move publication (fun _ => .initial) s f l s' f') :
    Filling s' f' := by
  cases hm with
  | start job hi =>
    refine h.pass (sameKeys_of_eq rfl rfl) ?_
    exact fun d k hd => (not_pending_of_rest (by simp) d k hd).elim
  | @call _ _ i r op a hi hr hp => exact h.call hi hr hl hp
  | crash hi hr =>
    refine ⟨?_, h.late⟩
    exact fun j r d k hj => h.pending j r d k (Async.of_update_none hj).2
  | background hb => exact hb.elim

omit [DecidableEq ι] in
theorem Filling.keepsKeys {op : TrustOp} {a : TrustAnswer op} {s s' : Registry settings.collate}
    (h : Filling s f) (hi : f i = some r) (hr : r.allows op)
    (hop : ∀ d k, op ≠ .replaceJwsKey d k) (hp : s.performs op a s') : s.KeepsKeys s' := by
  have hsame : s'.mcm = s.mcm → s.KeepsKeys s' := by
    intro hmcm d k hget _
    rw [hmcm, hget]
  cases op with
  | publishJwsKey dfspId publicKey =>
    rcases hp with rfl | ⟨-, rfl⟩
    · cases a with
      | done _ | lost _ => exact keepsKeys_store (h.pending i r _ _ hi hr) rfl
      | rejected _ => exact hsame rfl
    · exact hsame rfl
  | land x =>
    cases x with
    | kvField _ _ _ => exact hsame (sameKeys_of_performs rfl hp).mcm
    | jwsKey dfspId publicKey =>
      rw [show s' = _ from hp, Registry.land]
      split
      · rename_i hmem
        exact keepsKeys_store (h.late _ _ hmem) rfl
      · exact fun _ _ hget _ => hget
  | replaceJwsKey d k => exact absurd rfl (hop d k)
  | _ => exact hsame (sameKeys_of_performs rfl hp).mcm

end Moves

def TrustOp.isReplacement : TrustOp → Bool
  | .replaceJwsKey _ _ => true
  | _ => false

/-- Someone else replaces a key. -/
def Replaces : Label ι TrustOp TrustAnswer κ → Prop
  | .call _ e => e.op.isReplacement = true
  | _ => False

theorem Filling.keeps_move [DecidableEq ι] {settings : TrustSettings}
    {s s' : Registry settings.collate} {f f' : ι → Option Publication} {kinds : TrustJob → Prop}
    {l : Label ι TrustOp TrustAnswer { job // kinds job }} (h : Filling s f) (hl : ¬ Replaces l)
    (hm : (provisioning settings kinds).Move publication (fun _ => .initial) s f l s' f') :
    s.KeepsKeys s' := by
  cases hm with
  | start job hi => exact fun _ _ hget _ => hget
  | @call _ _ i r op a hi hr hp =>
    apply h.keepsKeys hi hr ?_ hp
    rintro d k rfl
    exact hl rfl
  | crash hi hr => exact fun _ _ hget _ => hget
  | background hb => exact hb.elim

/-- `Orderly`, of a step. -/
def OrderlyStep {settings : TrustSettings} {kinds : TrustJob → Prop}
    (c : Provisioning settings kinds ι)
    (l : Label ι TrustOp TrustAnswer { job // kinds job }) : Prop :=
  Orderly c.shared (c.records publication fun _ => .initial) l

/-- The scheduler never replaces a key: what the Connection Manager holds at one time of a run it
holds until someone else replaces it. -/
theorem publisher_never_replaces [DecidableEq ι] {settings : TrustSettings}
    {kinds : TrustJob → Prop} {s : Registry settings.collate} (hs : s.late = [])
    {c c' : Provisioning settings kinds ι}
    (h : (provisioning settings kinds).Reaches OrderlyStep (.initial s) c)
    (h' : (provisioning settings kinds).Reaches (fun c l => OrderlyStep c l ∧ ¬ Replaces l) c c') :
    c.shared.KeepsKeys c'.shared := by
  have hjob : ∀ job : { job // kinds job }, ((provisioning settings kinds).entry job).Obeys
      publication .initial fun _ _ => True := fun job => Publication.obeys_job settings job.val
  have hfilling : ∀ c'' : Provisioning settings kinds ι, (provisioning settings kinds).Reaches OrderlyStep 
      (.initial s) c'' → Filling c''.shared (c''.records publication fun _ => .initial) := by
    intro c'' hr
    apply hr.records_invariant (fun s f l => Orderly s f l) Filling hjob
    · refine ⟨?_, ?_⟩
      · rintro i r d k ⟨⟩
      · intro d k hlate
        rw [hs] at hlate
        cases hlate
    · exact fun s f l s' f' hP hl hm => hP.move hl hm
  induction h' with
  | refl => exact fun _ _ hget _ => hget
  | @tail c₁ c₂ l hr hl hstep ih =>
    have hreaches : (provisioning settings kinds).Reaches OrderlyStep (.initial s) c₁ :=
      h.trans (hr.mono fun _ _ _ hl => hl.1)
    have hkeeps := (hfilling c₁ hreaches).keeps_move hl.2 (hreaches.move hjob hstep)
    exact fun d k hget hblank => hkeeps d k (ih d k hget hblank) hblank

/-! A tenant whose key is not published, beside one whose key is. -/

section Sample

def sampleTenant : ParticipantKey := ⟨1, "a", .self, some "key", none, false, none, "off"⟩

def sampleRegistry : Registry sampleTrustSettings.collate where
  keys := .initial ⟨⟨[sampleTenant], by decide⟩, by decide⟩
  participants := .empty
  mcm := Js.Map.empty.set "b" "other"
  vault := .empty
  late := []
  keyPairs := []
  ledger := ⟨[], [], .empty⟩

/-- What `Orderly` asks of a call while nothing is about to be published by anyone else. -/
def OrderlyAlone (s : Registry collate) (e : Event TrustOp TrustAnswer) : Prop :=
  match e with
  | ⟨.getJwsKey _, .error _⟩ => False
  | ⟨.publishJwsKey _ _, _⟩ => s.late = []
  | ⟨.land _, _⟩ => False
  | ⟨.replaceJwsKey _ _, _⟩ => False
  | _ => True

instance (s : Registry collate) (e : Event TrustOp TrustAnswer) : Decidable (OrderlyAlone s e) := by
  obtain ⟨op, a⟩ := e
  cases op with
  | getJwsKey _ => cases a <;> (dsimp only [OrderlyAlone]; infer_instance)
  | _ => dsimp only [OrderlyAlone]; infer_instance

theorem OrderlyAlone.step {settings : TrustSettings} {kinds : TrustJob → Prop}
    {c : Provisioning settings kinds ι} {i : ι} {e : Event TrustOp TrustAnswer}
    (hc : ∀ j r, j ≠ i → c.records publication (fun _ => .initial) j = some r → r.stage = .idle)
    (he : OrderlyAlone c.shared e) : OrderlyStep c (.call i e) ∧
      ¬ Replaces (.call i e : Label ι TrustOp TrustAnswer { job // kinds job }) := by
  obtain ⟨op, a⟩ := e
  cases op with
  | getJwsKey _ =>
    cases a with
    | error _ => exact he.elim
    | ok _ => exact ⟨trivial, Bool.false_ne_true⟩
  | publishJwsKey d k =>
    refine ⟨fun _ => ⟨?_, ?_⟩, Bool.false_ne_true⟩
    · intro j r key hj hr hpending
      rw [Publication.Pending, hc j r hj hr] at hpending
      cases hpending.1
    · intro key hlate
      rw [show c.shared.late = [] from he] at hlate
      cases hlate
  | land _ | replaceJwsKey _ _ => exact he.elim
  | _ => exact ⟨trivial, Bool.false_ne_true⟩

/-- The passes, and whatever else there is. -/
abbrev samplePass : { _job : TrustJob // True } := ⟨.reconcile, trivial⟩

theorem publisher_never_replaces_sample :
    ∃ c : Provisioning sampleTrustSettings (fun _ => True) Bool,
      c.shared.mcm.get "a" = some "key" ∧ sampleRegistry.KeepsKeys c.shared := by
  have halone : (samplePass.val.execute sampleTrustSettings).SoloAll Registry.respond
      (fun s _ e => OrderlyAlone s e) sampleRegistry [] := by
    decide +kernel
  have hstep : ∀ (s : Registry sampleTrustSettings.collate) t e, OrderlyAlone s e → ∀ p,
      OrderlyStep (((Config.initial sampleRegistry).withShared s).put false
        (some ⟨samplePass, t, p⟩) : Provisioning sampleTrustSettings (fun _ => True) Bool)
        (.call false e) ∧
        ¬ Replaces (.call false e : Label Bool TrustOp TrustAnswer { _job : TrustJob // True }) := by
    intro s t e he p
    apply OrderlyAlone.step ?_ he
    intro j r hj hr
    rw [Config.records, Config.put_ne _ hj] at hr
    cases hr
  have hrun : (provisioning sampleTrustSettings fun _ => True).Reaches
      (fun c l => OrderlyStep c l ∧ ¬ Replaces l)
      (.initial sampleRegistry : Provisioning sampleTrustSettings (fun _ => True) Bool) _ :=
    System.Reaches.refl.solo false samplePass rfl Registry.performs_respond ⟨trivial, not_false⟩
      (halone.mono hstep)
  exact ⟨_, by decide +kernel, publisher_never_replaces rfl .refl hrun⟩

/-- The Connection Manager answers no read of a key. -/
def failing (s : Registry collate) : (op : TrustOp) → TrustAnswer op × Registry collate
  | .getJwsKey _ => (.error Registry.refused, s)
  | op => s.respond op

theorem performs_failing (s : Registry collate) (op : TrustOp) :
    s.performs op (failing s op).1 (failing s op).2 := by
  unfold failing
  split
  · refine ⟨rfl, ?_⟩
    rintro cert ⟨⟩
  · exact s.performs_respond _

/-- A rotation that is half done: the peers hold another key than the registry. -/
def sampleRotation : Registry sampleTrustSettings.collate :=
  { sampleRegistry with mcm := Js.Map.empty.set "a" "old key" }

/-- The key of a tenant cannot be read when a pass looks for it, and the pass publishes over it. -/
theorem not_publisher_never_replaces :
    ¬ ∀ c c' : Provisioning sampleTrustSettings (fun _ => True) Bool,
      (provisioning sampleTrustSettings fun _ => True).Reaches System.Any
        (.initial sampleRotation) c →
      (provisioning sampleTrustSettings fun _ => True).Reaches (fun _ l => ¬ Replaces l) c c' →
      c.shared.KeepsKeys c'.shared := by
  intro h
  have halone : (samplePass.val.execute sampleTrustSettings).SoloAll failing
      (fun _ _ e => ¬ e.op.isReplacement = true) sampleRotation [] := by
    decide +kernel
  have hrun : (provisioning sampleTrustSettings fun _ => True).Reaches (fun _ l => ¬ Replaces l)
      (.initial sampleRotation : Provisioning sampleTrustSettings (fun _ => True) Bool) _ :=
    System.Reaches.refl.solo false samplePass rfl performs_failing not_false
      (halone.mono fun _ _ _ he _ => he)
  have hkeeps := h _ _ .refl hrun "a" "old key" (by decide +kernel) (by decide +kernel)
  revert hkeeps
  decide +kernel

end Sample

end Trust
