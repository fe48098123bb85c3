import Pivotal.Trust.Copies

/-! What operators decide of a participant, beside the scheduler that publishes keys. -/
namespace Trust
open Async (Config Label Process System Written)
open Fspiop (FspiopVerifyMode JsError)
open Participant (ParticipantKey)

inductive OperatorChange where
  | suspended
  | verifyMode (mode : FspiopVerifyMode)
  | publicKey (key : String)
  deriving DecidableEq

/-- The row shows the change. -/
def OperatorChange.StandsIn (change : OperatorChange) (row : ParticipantKey) : Prop :=
  match change with
  | .suspended => row.jwsSignEnabled = false
  | .verifyMode mode => row.jwsVerifyMode = mode.value
  | .publicKey key => row.jwsPublicKey = some key

instance (change : OperatorChange) (row : ParticipantKey) : Decidable (change.StandsIn row) := by
  unfold OperatorChange.StandsIn
  cases change <;> infer_instance

namespace TrustJob

/-- The scheduler that publishes, the commands of an operator, and what happens of itself. -/
def isOperational : TrustJob → Prop
  | .sync => False
  | .onboardFsp _ => False
  | _ => True

/-- The command asks for the change. -/
def Asks (fspId : String) (change : OperatorChange) : TrustJob → Prop
  | .updateJwsPolicy input => Js.trim input.fspId = fspId ∧
    match change with
    | .suspended => input.jwsSignEnabled = some false
    | .verifyMode mode => input.jwsVerifyMode = some mode
    | .publicKey _ => False
  | .addSigningKeys input => input.name = fspId ∧ change = .publicKey input.jwsPublicKey
  | _ => False

end TrustJob

variable {ι : Type} {settings : TrustSettings}

/-- Passes of the scheduler and commands of operators, in any order. -/
abbrev operating (settings : TrustSettings) := provisioning settings TrustJob.isOperational

abbrev Operating (settings : TrustSettings) (ι : Type) :=
  Provisioning settings TrustJob.isOperational ι

abbrev OperatingLabel (ι : Type) := Label ι TrustOp TrustAnswer { job // TrustJob.isOperational job }

/-- A save of a command that asks for the change takes effect. -/
def TakesEffect (fspId : String) (change : OperatorChange) (c : Operating settings ι) :
    OperatingLabel ι → Prop
  | .call i ⟨.save _, a⟩ => a.isRejected = false ∧
    ∃ p, c.process i = some p ∧ p.job.val.Asks fspId change
  | _ => False

/-- A command saves another value. -/
def Supersedes (fspId : String) (change : OperatorChange) (c : Operating settings ι) :
    OperatingLabel ι → Prop
  | .call i ⟨.save entity, a⟩ => a.isRejected = false ∧
    settings.collate entity.fspId = settings.collate fspId ∧ ¬ change.StandsIn entity ∧
    ∃ p, c.process i = some p ∧ p.job.val.isAutomatic = false
  | _ => False

/-- The Connection Manager holds the key for the participant. -/
def Registry.HoldsKey {collate : String → String} (s : Registry collate) (fspId publicKey : String) :
    Prop :=
  ∃ dfspId held, collate dfspId = collate fspId ∧ s.mcm.get dfspId = some held ∧
    JwsKeyPublishScheduler.samePem held publicKey = true

/-- The copy may be saved over the row as it now is. -/
def TrustJob.Fits {collate : String → String} (s : Registry collate) (copy row : ParticipantKey) :
    TrustJob → Prop
  | .updateJwsPolicy input =>
    (row.jwsSignActivatedAt.isSome = true → copy.jwsSignActivatedAt.isSome = true) ∧
      (input.jwsSignEnabled = some false → copy.jwsSignActivatedAt.isSome = true) ∧
      (row.jwsSignEnabled = false → input.jwsSignEnabled.getD copy.jwsSignEnabled = true →
        ∃ publicKey, copy.jwsPublicKey = some publicKey ∧ s.HoldsKey copy.fspId publicKey)
  | .addSigningKeys _ =>
    (row.jwsSignActivatedAt.isSome = true → copy.jwsSignActivatedAt.isSome = true) ∧
      (row.jwsSignEnabled = false → copy.jwsSignEnabled = false)
  | _ => row.jwsPublicKey = copy.jwsPublicKey ∧ row.jwsVerifyMode = copy.jwsVerifyMode ∧
    (row.jwsSignEnabled = false → row.jwsSignActivatedAt = none)

/-- The condition of the result. What the scheduler saves does not hide a change since its read, nor
a suspension; a command takes no stamp away; who is suspended was activated, and a key is held
by the Connection Manager when signing is switched on by hand. -/
def DecidesFresh (c : Operating settings ι) : OperatingLabel ι → Prop
  | .call i ⟨.save entity, a⟩ => ∀ r, c.records (decision settings.toOnboardSettings)
      (fun job => .initial job.val) i = some r → a.isRejected = false →
    ∀ copy ∈ r.read, entity.id = copy.id → ∀ row ∈ c.shared.rows, row.id = copy.id →
      r.job.Fits c.shared copy row
  | _ => True

/-- The row of the participant shows the change; a suspension is of a row with a stamp. -/
def Registry.Stands {collate : String → String} (s : Registry collate) (fspId : String)
    (change : OperatorChange) : Prop :=
  ∃ row ∈ s.rows, collate row.fspId = collate fspId ∧ change.StandsIn row ∧
    (change = .suspended → row.jwsSignActivatedAt.isSome = true)

variable [DecidableEq ι] {s : Registry settings.collate} {c c' : Operating settings ι}
  {l : OperatingLabel ι} {ok : Operating settings ι → OperatingLabel ι → Prop} {fspId : String}
  {change : OperatorChange}

theorem ne_sync_of_isOperational (job : TrustJob) (h : job.isOperational) : job ≠ .sync := by
  rintro rfl
  exact h

omit [DecidableEq ι] in
theorem TakesEffect.isSave (h : TakesEffect fspId change c l) : IsSave l := by
  unfold TakesEffect at h
  split at h
  · trivial
  · exact h.elim

/-- A change stands once it is completed. -/
theorem stands_of_takesEffect (h : (operating settings).Reaches ok (.initial s) c)
    (hl : DecidesFresh c l) (hc : TakesEffect fspId change c l) (hs : (operating settings).Step c l c') :
    c'.shared.Stands fspId change := by
  rcases keys_or_saves ne_sync_of_isOperational h hs with ⟨-, hother⟩ |
    ⟨i, entity, a, p, r, rfl, hp, hr, hjob, -, hfound, hsaves, hperform⟩
  · exact absurd hc.isSave hother
  obtain ⟨ha, p', hp', hasks⟩ := hc
  obtain rfl : p = p' := Option.some.inj (hp.symm.trans hp')
  rw [← hjob] at hasks
  obtain ⟨hrejected, -⟩ | ⟨-, row, hsaved, hrows⟩ := Registry.rows_of_saves hperform
  · simp [ha] at hrejected
  refine ⟨row, (hrows row).mpr (.inl rfl), ?_⟩
  rw [Registry.savedAs_withId hsaved]
  have hfits := hl r hr ha
  unfold Decision.Saves at hsaves
  cases hkind : r.job with
  | updateJwsPolicy input =>
    simp only [hkind] at hsaves hasks
    obtain ⟨copy, activatedAt, hread, rfl, hkept, -⟩ := hsaves
    obtain ⟨rfl, hasks⟩ := hasks
    have hcopy : copy ∈ r.read := by simp [hread]
    obtain ⟨⟨row', hrow', hid, -⟩, hname⟩ := hfound copy hcopy
    have hfit := hfits copy hcopy rfl row' hrow' hid
    simp only [hkind, TrustJob.Fits] at hfit
    refine ⟨hname _ (by rw [hkind, TrustJob.subject]), ?_, ?_⟩
    · cases change with
      | suspended | verifyMode mode =>
        simp [OperatorChange.StandsIn, ParticipantKey.withId, UpdateJwsPolicyHandler.moved, hasks]
      | publicKey _ => exact hasks.elim
    · rintro rfl
      have hstamped := hfit.2.1 hasks
      simpa [ParticipantKey.withId, hkept hstamped] using hstamped
  | addSigningKeys input =>
    simp only [hkind] at hsaves hasks
    obtain ⟨existing, -, rfl⟩ := hsaves
    obtain ⟨rfl, rfl⟩ := hasks
    refine ⟨rfl, rfl, fun hsuspended => ?_⟩
    cases hsuspended
  | _ =>
    simp only [hkind] at hasks
    exact hasks.elim

/-- What the scheduler saves shows the change still, if its copy fits. -/
theorem standsIn_of_activates {r : Decision} {dfspId : ParticipantKey → String}
    {entity row : ParticipantKey} (h : r.Activates dfspId entity) (hid : row.id = entity.id)
    (hfits : ∀ copy ∈ r.read, entity.id = copy.id → row.jwsPublicKey = copy.jwsPublicKey ∧
      row.jwsVerifyMode = copy.jwsVerifyMode ∧
      (row.jwsSignEnabled = false → row.jwsSignActivatedAt = none))
    (hrow : change.StandsIn row) (hstamp : change = .suspended → row.jwsSignActivatedAt.isSome = true) :
    change.StandsIn entity ∧ entity.jwsSignActivatedAt.isSome = true := by
  obtain ⟨copy, hcopy, _, activatedAt, -, -, -, rfl⟩ := h
  obtain ⟨hkey, hverify, hoff⟩ := hfits copy hcopy rfl
  refine ⟨?_, rfl⟩
  cases change with
  | suspended =>
    have hstamped := hstamp rfl
    simp [hoff hrow] at hstamped
  | verifyMode mode => exact hverify.symm.trans hrow
  | publicKey key => exact hkey.symm.trans hrow

/-- No step but a command's takes a change back. -/
theorem stands_step (h : (operating settings).Reaches ok (.initial s) c) (hl : DecidesFresh c l)
    (hkept : ¬ Supersedes fspId change c l) (hs : (operating settings).Step c l c')
    (hstands : c.shared.Stands fspId change) : c'.shared.Stands fspId change := by
  obtain ⟨row, hrow, hname, hshown, hstamp⟩ := hstands
  rcases keys_or_saves ne_sync_of_isOperational h hs with ⟨hkeys, -⟩ |
    ⟨i, entity, a, p, r, rfl, hp, hr, hjob, hsync, hfound, hsaves, hperform⟩
  · refine ⟨row, ?_, hname, hshown, hstamp⟩
    rwa [Registry.rows, hkeys]
  rcases Decision.row_after_saves hsaves hsync hfound hperform hrow with hstays |
    ⟨ha, hentity, copy, hcopy, hcopied, hid, hnamed⟩
  · exact ⟨row, hstays, hname, hshown, hstamp⟩
  have hfits := fun copy hcopy hcopied => hl r hr ha copy hcopy hcopied row hrow
  have hfit := hfits copy hcopy hcopied hid
  have hby : r.job.isAutomatic = false → change.StandsIn entity := by
    intro hcommand
    by_contra hother
    exact hkept ⟨ha, hnamed.trans hname, hother, p, hp, hjob ▸ hcommand⟩
  refine ⟨entity, hentity, hnamed.trans hname, ?_⟩
  have hpass : ∀ dfspId, r.Activates dfspId entity → (∀ copy row : ParticipantKey,
      r.job.Fits c.shared copy row → row.jwsPublicKey = copy.jwsPublicKey ∧
        row.jwsVerifyMode = copy.jwsVerifyMode ∧
        (row.jwsSignEnabled = false → row.jwsSignActivatedAt = none)) →
      change.StandsIn entity ∧ (change = .suspended → entity.jwsSignActivatedAt.isSome = true) := by
    intro dfspId hactivates hfit
    obtain ⟨hin, hstamped⟩ := standsIn_of_activates hactivates (hid.trans hcopied.symm)
      (fun copy' hcopy' hcopied' => hfit _ _ (hfits copy' hcopy' hcopied'
        ((hid.trans hcopied.symm).trans hcopied'))) hshown hstamp
    exact ⟨hin, fun _ => hstamped⟩
  unfold Decision.Saves at hsaves
  cases hkind : r.job with
  | reconcile | publishAndEnable _ =>
    simp only [hkind] at hsaves
    refine hpass _ hsaves ?_
    rw [hkind]
    exact fun _ _ h => h
  | updateJwsPolicy input =>
    simp only [hkind] at hsaves
    rw [hkind] at hfit hby
    obtain ⟨copy', activatedAt, hread, rfl, hstamped, -⟩ := hsaves
    obtain rfl : copy = copy' := by simpa [hread] using hcopy
    refine ⟨hby rfl, fun hsuspended => ?_⟩
    have hcopy := hfit.1 (hstamp hsuspended)
    simpa [hstamped hcopy] using hcopy
  | addSigningKeys input =>
    simp only [hkind] at hsaves
    rw [hkind] at hfit hby
    obtain ⟨existing, hread, rfl⟩ := hsaves
    obtain rfl : existing = some copy := by
      cases existing with
      | none => simp [hread] at hcopy
      | some _ => simpa [hread, eq_comm] using hcopy
    exact ⟨hby rfl, fun hsuspended => hfit.1 (hstamp hsuspended)⟩
  | sync => exact absurd hkind hsync
  | onboardFsp _ =>
    have hproperty := p.job.property
    rw [← hjob, hkind] at hproperty
    exact hproperty.elim
  | land _ | replaceJwsKey _ _ => simp [hkind] at hsaves

/-- The key was confirmed by the job that makes the step, or the Connection Manager holds it. -/
def Confirms (c : Operating settings ι) (l : OperatingLabel ι) (fspId publicKey : String) : Prop :=
  (∃ i e r dfspId, l = .call i e ∧ c.records (decision settings.toOnboardSettings)
      (fun job => .initial job.val) i = some r ∧
    settings.collate dfspId = settings.collate fspId ∧ r.Confirmed dfspId publicKey) ∨
  c.shared.HoldsKey fspId publicKey

/-- Signing goes on for a key that was confirmed. -/
theorem switched_on_confirmed (h : (operating settings).Reaches ok (.initial s) c)
    (hl : DecidesFresh c l) (hs : (operating settings).Step c l c') {row : ParticipantKey}
    (hrow : row ∈ c'.shared.rows) (hsigns : row.jwsSignEnabled = true) :
    (∃ old ∈ c.shared.rows, settings.collate old.fspId = settings.collate row.fspId ∧
      old.jwsSignEnabled = true) ∨
    ∃ publicKey, row.jwsPublicKey = some publicKey ∧ Confirms c l row.fspId publicKey := by
  rcases keys_or_saves ne_sync_of_isOperational h hs with ⟨hkeys, -⟩ |
    ⟨i, entity, a, p, r, rfl, hp, hr, hjob, hsync, hfound, hsaves, hperform⟩
  · refine .inl ⟨row, ?_, rfl, hsigns⟩
    rwa [Registry.rows, hkeys] at hrow
  rcases Registry.rows_of_saves hperform with ⟨-, hsame⟩ | ⟨ha, saved, hsaved, hrows⟩
  · rw [hsame] at hrow
    exact .inl ⟨row, hrow, rfl, hsigns⟩
  rcases (hrows row).mp hrow with rfl | ⟨hold, -⟩
  swap
  · exact .inl ⟨row, hold, rfl, hsigns⟩
  rw [Registry.savedAs_withId hsaved] at hsigns ⊢
  have hpass : ∀ dfspId, r.Activates dfspId entity → (∀ copy ∈ r.read,
      settings.collate (dfspId copy) = settings.collate copy.fspId) →
      ∃ publicKey, entity.jwsPublicKey = some publicKey ∧
        Confirms c (.call i ⟨.save entity, a⟩) entity.fspId publicKey := by
    rintro dfspId ⟨copy, hcopy, publicKey, _, hkey, -, hconfirmed, hentity⟩ hname
    have hheld : copy.jwsPublicKey = some publicKey := by
      unfold JwsKeyPublishScheduler.tenantKey at hkey
      split at hkey
      · exact hkey
      · cases hkey
    have hfspId : entity.fspId = copy.fspId := by rw [hentity]
    refine ⟨publicKey, by rw [hentity]; exact hheld, .inl ⟨i, _, r, dfspId copy, rfl, hr, ?_, hconfirmed⟩⟩
    rw [hfspId]
    exact hname copy hcopy
  unfold Decision.Saves at hsaves
  cases hkind : r.job with
  | reconcile =>
    simp only [hkind] at hsaves
    exact .inr (hpass _ hsaves fun _ _ => rfl)
  | publishAndEnable fspId =>
    simp only [hkind] at hsaves
    exact .inr (hpass _ hsaves fun copy hcopy =>
      ((hfound copy hcopy).2 fspId (by rw [hkind, TrustJob.subject])).symm)
  | updateJwsPolicy input =>
    simp only [hkind] at hsaves
    obtain ⟨copy, activatedAt, hread, rfl, -, -⟩ := hsaves
    have hcopy : copy ∈ r.read := by simp [hread]
    obtain ⟨⟨old, hmem, hid, hname⟩, -⟩ := hfound copy hcopy
    have hfit := hl r hr ha copy hcopy rfl old hmem hid
    rw [hkind] at hfit
    cases hon : old.jwsSignEnabled with
    | true => exact .inl ⟨old, hmem, hname, hon⟩
    | false =>
      obtain ⟨publicKey, hkey, hheld⟩ := hfit.2.2 hon hsigns
      exact .inr ⟨publicKey, hkey, .inr hheld⟩
  | addSigningKeys input =>
    simp only [hkind] at hsaves
    obtain ⟨existing, hread, rfl⟩ := hsaves
    cases existing with
    | none => cases hsigns
    | some copy =>
      have hcopy : copy ∈ r.read := by simp [hread]
      obtain ⟨⟨old, hmem, hid, hname⟩, hsubject⟩ := hfound copy hcopy
      have hfit := hl r hr ha copy hcopy rfl old hmem hid
      rw [hkind] at hfit
      refine .inl ⟨old, hmem, hname.trans (hsubject input.name (by rw [hkind, TrustJob.subject])), ?_⟩
      by_contra hoff
      have hcopied := hfit.2 (Bool.eq_false_iff.mpr hoff)
      exact absurd (hcopied.symm.trans hsigns) Bool.false_ne_true
  | sync => exact absurd hkind hsync
  | onboardFsp _ =>
    have hproperty := p.job.property
    rw [← hjob, hkind] at hproperty
    exact hproperty.elim
  | land _ | replaceJwsKey _ _ => simp [hkind] at hsaves

/-- In a run that keeps to the condition, a change stands from its completion on until a command
takes it back, and signing goes on for keys that are confirmed. -/
theorem operator_decisions_survive (h : (operating settings).Reaches DecidesFresh (.initial s) c)
    (hl : DecidesFresh c l) (hs : (operating settings).Step c l c') :
    (∀ fspId change c'', TakesEffect fspId change c l →
      (operating settings).Reaches (fun c l => DecidesFresh c l ∧ ¬ Supersedes fspId change c l) c' c'' →
      ∃ row ∈ c''.shared.rows, settings.collate row.fspId = settings.collate fspId ∧
        change.StandsIn row) ∧
    ∀ row ∈ c'.shared.rows, row.jwsSignEnabled = true →
      (∃ old ∈ c.shared.rows, settings.collate old.fspId = settings.collate row.fspId ∧
        old.jwsSignEnabled = true) ∨
      ∃ publicKey, row.jwsPublicKey = some publicKey ∧ Confirms c l row.fspId publicKey := by
  refine ⟨?_, fun row hrow => switched_on_confirmed h hl hs hrow⟩
  intro fspId change c'' hc hlater
  have hrun : (operating settings).Reaches DecidesFresh (.initial s) c'' ∧
      c''.shared.Stands fspId change := by
    induction hlater with
    | refl => exact ⟨h.tail hl hs, stands_of_takesEffect h hl hc hs⟩
    | tail _ hl' hs' ih =>
      obtain ⟨hreached, hstands⟩ := ih
      exact ⟨hreached.tail hl'.1 hs', stands_step hreached hl'.1 hl'.2 hs' hstands⟩
  obtain ⟨row, hrow, hname, hshown, -⟩ := hrun.2
  exact ⟨row, hrow, hname, hshown⟩

/-! A tenant that was never activated, a pass of the scheduler, and an operator who tightens the
verification of the tenant. -/

section Sample

def sampleWaiting : ParticipantKey := ⟨1, "a", .self, some "key", none, false, none, "off"⟩

def sampleDeployment : Registry sampleTrustSettings.collate where
  keys := .initial ⟨⟨[sampleWaiting], by decide⟩, by decide⟩
  participants := .empty
  mcm := Js.Map.empty.set "a" "key"
  vault := .empty
  late := []
  keyPairs := []
  ledger := ⟨[], [], .empty⟩

abbrev sampleSweep : { job // TrustJob.isOperational job } := ⟨.reconcile, trivial⟩

abbrev sampleTighten : { job // TrustJob.isOperational job } :=
  ⟨.updateJwsPolicy ⟨"a", none, some .require⟩, trivial⟩

omit [DecidableEq ι] in
theorem DecidesFresh.of_not_isSave {i : ι} {e : Async.Event TrustOp TrustAnswer}
    (h : e.op.isSave = false) : DecidesFresh c (.call i e) := by
  obtain ⟨op, a⟩ := e
  cases op with
  | save entity => cases h
  | _ => trivial

omit [DecidableEq ι] in
theorem Supersedes.isSave {i : ι} {e : Async.Event TrustOp TrustAnswer}
    (h : Supersedes fspId change c (.call i e)) : e.op.isSave = true := by
  obtain ⟨op, a⟩ := e
  cases op with
  | save entity => rfl
  | _ => exact h.elim

omit [DecidableEq ι] in
theorem DecidesFresh.of_records {i : ι} {entity : ParticipantKey}
    {a : Written JsError ParticipantKey} (job : TrustJob) (read : List ParticipantKey)
    (hi : (c.records (decision settings.toOnboardSettings) (fun job => .initial job.val) i).map
      (fun r => (r.job, r.read)) = some (job, read))
    (h : ∀ copy ∈ read, ∀ row ∈ c.shared.rows, job.Fits c.shared copy row) :
    DecidesFresh c (.call i ⟨.save entity, a⟩) := by
  intro r hr _ copy hcopy _ row hrow _
  rw [hr, Option.map_some, Option.some.injEq, Prod.mk.injEq] at hi
  obtain ⟨rfl, rfl⟩ := hi
  exact h copy hcopy row hrow

/-- The operator's command is about to save. -/
def sampleTightening : Operating sampleTrustSettings Bool :=
  ((Config.initial sampleDeployment).put false (some ⟨sampleTighten, [],
    sampleTighten.val.execute sampleTrustSettings⟩)).advance Registry.respond false 1

/-- It has, and the scheduler is about to switch signing on. -/
def sampleActivating : Operating sampleTrustSettings Bool :=
  ((sampleTightening.advance Registry.respond false 1).put true (some ⟨sampleSweep, [],
    sampleSweep.val.execute sampleTrustSettings⟩)).advance Registry.respond true 3

abbrev sampleRequiring : ParticipantKey := { sampleWaiting with jwsVerifyMode := "require" }

/-- A job may run on from where its next calls are not saves. -/
theorem DecidesFresh.advance {c₀ c : Operating sampleTrustSettings Bool} (fspId : String) (change : OperatorChange)
    (h : (operating sampleTrustSettings).Reaches
      (fun c l => DecidesFresh c l ∧ ¬ Supersedes fspId change c l) c₀ c) (i : Bool) (n : ℕ)
    (hn : ∀ p, c.process i = some p → p.program.AdvanceAll Registry.respond
      (fun _ e => e.op.isSave = false) n c.shared) :
    (operating sampleTrustSettings).Reaches
      (fun c l => DecidesFresh c l ∧ ¬ Supersedes fspId change c l) c₀
      (c.advance Registry.respond i n) := by
  refine h.advanceAll i Registry.performs_respond ?_ n hn
  intro s e he p
  refine ⟨.of_not_isSave he, fun hsupersedes => ?_⟩
  rw [hsupersedes.isSave] at he
  cases he

theorem sampleTightening_reached :
    (operating sampleTrustSettings).Reaches DecidesFresh (.initial sampleDeployment) sampleTightening := by
  have hstarted : (operating sampleTrustSettings).Reaches DecidesFresh
      (.initial sampleDeployment : Operating sampleTrustSettings Bool)
      ((Config.initial sampleDeployment).put false (some ⟨sampleTighten, [],
        sampleTighten.val.execute sampleTrustSettings⟩)) :=
    System.Reaches.refl.tail (l := .start false sampleTighten) trivial (.start sampleTighten rfl)
  refine hstarted.advanceAll (P := fun _ e => e.op.isSave = false) false Registry.performs_respond
    (fun _ _ he _ => .of_not_isSave he) 1 ?_
  rintro _ ⟨⟩
  decide

theorem sampleTightening_step : (operating sampleTrustSettings).Step sampleTightening
    (.call false ⟨.save sampleRequiring, (Registry.respond sampleTightening.shared
      (.save sampleRequiring)).1⟩) (sampleTightening.advance Registry.respond false 1) :=
  System.step_advance Registry.performs_respond _ rfl

/-- Signing goes on, and the verification stays as the operator has set it. -/
theorem operator_decisions_survive_sample :
    (sampleActivating.advance Registry.respond true 1).shared.rows.map
      ParticipantKey.jwsSignEnabled = [true] ∧
    ∃ row ∈ (sampleActivating.advance Registry.respond true 1).shared.rows,
      row.fspId = "a" ∧ (OperatorChange.verifyMode .require).StandsIn row := by
  refine ⟨by decide +kernel, ?_⟩
  have hfits : DecidesFresh sampleTightening (.call false ⟨.save sampleRequiring,
      (Registry.respond sampleTightening.shared (.save sampleRequiring)).1⟩) := by
    apply DecidesFresh.of_records sampleTighten.val [sampleWaiting]
    · decide +kernel
    · have hrows : sampleTightening.shared.rows = [sampleWaiting] := by decide +kernel
      simp [hrows, TrustJob.Fits, sampleWaiting]
  refine (operator_decisions_survive sampleTightening_reached hfits sampleTightening_step).1 "a"
    (.verifyMode .require) _ ⟨by decide +kernel, _, rfl, rfl, rfl⟩ ?_
  have hstarted : (operating sampleTrustSettings).Reaches
      (fun c l => DecidesFresh c l ∧ ¬ Supersedes "a" (.verifyMode .require) c l)
      (sampleTightening.advance Registry.respond false 1)
      ((sampleTightening.advance Registry.respond false 1).put true (some ⟨sampleSweep, [],
        sampleSweep.val.execute sampleTrustSettings⟩)) :=
    System.Reaches.refl.tail (l := .start true sampleSweep) ⟨trivial, not_false⟩
      (.start sampleSweep rfl)
  have hreading := DecidesFresh.advance _ _ hstarted true 3 (by rintro _ ⟨⟩; decide +kernel)
  refine hreading.tail ⟨?_, ?_⟩ (System.step_advance Registry.performs_respond
    (.save { sampleRequiring with jwsSignActivatedAt := some 1000, jwsSignEnabled := true })
    (by decide +kernel))
  · apply DecidesFresh.of_records sampleSweep.val [sampleRequiring]
    · decide +kernel
    · have hrows : sampleActivating.shared.rows = [sampleRequiring] := by decide +kernel
      intro copy hcopy row hrow
      obtain rfl : copy = sampleRequiring := by simpa using hcopy
      have hmem : row ∈ sampleActivating.shared.rows := hrow
      obtain rfl : row = sampleRequiring := by simpa [hrows] using hmem
      exact ⟨rfl, rfl, fun _ => rfl⟩
  · rintro ⟨-, -, -, p, hp, hcommand⟩
    have hjob : (sampleActivating.process true).map (fun p => p.job.val.isAutomatic) = some true := by
      decide +kernel
    have hp' : sampleActivating.process true = some p := hp
    rw [hp', Option.map_some, hcommand] at hjob
    cases hjob

/-- The scheduler has read the tenant, and is about to switch signing on, when the operator's
command comes to save. -/
def sampleBothReading : Operating sampleTrustSettings Bool :=
  (sampleTightening.put true (some ⟨sampleSweep, [],
    sampleSweep.val.execute sampleTrustSettings⟩)).advance Registry.respond true 3

/-- The verification is off again. -/
theorem not_operator_decisions_survive :
    ¬ ∀ (c c' c'' : Operating sampleTrustSettings Bool) (l : OperatingLabel Bool) (fspId : String)
      (change : OperatorChange),
      (operating sampleTrustSettings).Reaches System.Any (.initial sampleDeployment) c →
      (operating sampleTrustSettings).Step c l c' → TakesEffect fspId change c l →
      (operating sampleTrustSettings).Reaches (fun c l => ¬ Supersedes fspId change c l) c' c'' →
      ∃ row ∈ c''.shared.rows, row.fspId = fspId ∧ change.StandsIn row := by
  intro h
  have hreading : (operating sampleTrustSettings).Reaches System.Any (.initial sampleDeployment)
      sampleBothReading :=
    ((sampleTightening_reached.mono fun _ _ _ _ => trivial).tail trivial
      (.start sampleSweep (i := true) rfl)).advance Registry.performs_respond true 3
  have hsaved : (operating sampleTrustSettings).Step sampleBothReading
      (.call false ⟨.save sampleRequiring, (Registry.respond sampleBothReading.shared
        (.save sampleRequiring)).1⟩) (sampleBothReading.advance Registry.respond false 1) :=
    System.step_advance Registry.performs_respond _ (by decide +kernel)
  have heffect : TakesEffect "a" (.verifyMode .require) sampleBothReading
      (.call false ⟨.save sampleRequiring, (Registry.respond sampleBothReading.shared
        (.save sampleRequiring)).1⟩) := ⟨by decide +kernel, _, rfl, rfl, rfl⟩
  have hactivated : (operating sampleTrustSettings).Reaches
      (fun c l => ¬ Supersedes "a" (.verifyMode .require) c l)
      (sampleBothReading.advance Registry.respond false 1)
      ((sampleBothReading.advance Registry.respond false 1).advance Registry.respond true 1) := by
    refine System.Reaches.refl.tail ?_ (System.step_advance Registry.performs_respond
      (.save { sampleWaiting with jwsSignActivatedAt := some 1000, jwsSignEnabled := true })
      (by decide +kernel))
    rintro ⟨-, -, -, p, hp, hcommand⟩
    have hjob : ((sampleBothReading.advance Registry.respond false 1).process true).map
        (fun p => p.job.val.isAutomatic) = some true := by decide +kernel
    rw [hp, Option.map_some, hcommand] at hjob
    cases hjob
  obtain ⟨row, hrow, -, hmode⟩ := h _ _ _ _ _ _ hreading hsaved heffect hactivated
  have hafter : ∀ row ∈ ((sampleBothReading.advance Registry.respond false 1).advance
      Registry.respond true 1).shared.rows, row.jwsVerifyMode ≠ "require" := by decide +kernel
  exact hafter row hrow hmode

end Sample

end Trust
