import Pivotal.Trust.Decisions

/-! The copies of rows that a job works on, beside the rows. A row may change under a job, but it
stays, and it stays that of one participant. -/
namespace Trust
open Async (Config Label System Written)
open Fspiop (JsError)
open Participant (ParticipantKey)

/-- The name that a job looks its row up by. -/
def TrustJob.subject : TrustJob → Option String
  | .publishAndEnable fspId => some fspId
  | .updateJwsPolicy input => some (Js.trim input.fspId)
  | .addSigningKeys input => some input.name
  | .onboardFsp input => some input.name
  | _ => none

variable {collate : String → String} {s s' : Registry collate} {settings : OnboardSettings}
  {r : Decision}

/-- A row that is saved is the entity, but for an identifier that is new. -/
theorem Registry.savedAs_withId {t : KeyTable collate} {entity row : ParticipantKey}
    (h : t.SavedAs ParticipantKey.withId entity row) : row = entity.withId row.id := by
  unfold Store.Indexed.SavedAs at h
  split at h
  · obtain ⟨id, -, -, rfl⟩ := h
    rfl
  · subst h
    rfl

/-- Every row is still there, under the same name. -/
def Registry.Persists (s s' : Registry collate) : Prop :=
  ∀ row ∈ s.rows, ∃ row' ∈ s'.rows, row'.id = row.id ∧ collate row'.fspId = collate row.fspId

theorem Registry.Persists.of_keys (h : s'.keys = s.keys) : s.Persists s' := by
  intro row hrow
  refine ⟨row, ?_, rfl, rfl⟩
  rwa [Registry.rows, h]

/-- The copies are of rows that are there, and of the participant that was looked up. -/
def Decision.Found (s : Registry collate) (r : Decision) : Prop :=
  ∀ copy ∈ r.read,
    (∃ row ∈ s.rows, row.id = copy.id ∧ collate row.fspId = collate copy.fspId) ∧
      ∀ fspId, r.job.subject = some fspId → collate copy.fspId = collate fspId

namespace Decision

theorem Found.initial (s : Registry collate) (job : TrustJob) : (initial job).Found s := by
  intro copy hcopy
  cases hcopy

theorem Found.persists (h : r.Found s) (hs : s.Persists s') : r.Found s' := by
  intro copy hcopy
  obtain ⟨⟨row, hrow, hid, hname⟩, hsubject⟩ := h copy hcopy
  obtain ⟨row', hrow', hid', hname'⟩ := hs row hrow
  exact ⟨⟨row', hrow', hid'.trans hid, hname'.trans hname⟩, hsubject⟩

/-- A row that is saved is new, or it is the copy of a row of the same participant. -/
theorem Saves.copy {entity : ParticipantKey} (h : r.Saves settings entity)
    (hjob : r.job ≠ .sync) (hr : r.Found s) :
    entity.id = 0 ∨ ∃ copy ∈ r.read, entity.id = copy.id ∧
      collate entity.fspId = collate copy.fspId := by
  unfold Saves at h
  split at h
  · obtain ⟨copy, hcopy, _, _, -, -, -, rfl⟩ := h
    exact .inr ⟨copy, hcopy, rfl, rfl⟩
  · obtain ⟨copy, hcopy, _, _, -, -, -, rfl⟩ := h
    exact .inr ⟨copy, hcopy, rfl, rfl⟩
  · rename_i hsync
    exact absurd hsync hjob
  · obtain ⟨copy, _, hread, rfl, -, -⟩ := h
    exact .inr ⟨copy, by simp [hread], rfl, rfl⟩
  · rename_i input hadd
    obtain ⟨existing, hread, rfl⟩ := h
    cases existing with
    | none => exact .inl rfl
    | some copy =>
      have hcopy : copy ∈ r.read := by simp [hread]
      refine .inr ⟨copy, hcopy, rfl, ?_⟩
      exact ((hr copy hcopy).2 input.name (by simp [hadd, TrustJob.subject])).symm
  · rename_i input honboard
    obtain ⟨existing, provisioned, hread, -, rfl, -⟩ := h
    cases existing with
    | none => exact .inl rfl
    | some copy =>
      have hcopy : copy ∈ r.read := by simp [hread]
      refine .inr ⟨copy, hcopy, rfl, ?_⟩
      exact ((hr copy hcopy).2 input.name (by simp [honboard, TrustJob.subject])).symm
  · exact h.elim
  · exact h.elim

/-- A row stays, or the entity that was saved takes its place. -/
theorem row_after_saves {entity row : ParticipantKey} {a : Written JsError ParticipantKey}
    (h : r.Saves settings entity) (hjob : r.job ≠ .sync) (hr : r.Found s)
    (hp : s.saves entity a s') (hrow : row ∈ s.rows) :
    row ∈ s'.rows ∨ a.isRejected = false ∧ entity ∈ s'.rows ∧ ∃ copy ∈ r.read,
      entity.id = copy.id ∧ row.id = copy.id ∧ collate entity.fspId = collate row.fspId := by
  rcases Registry.row_of_saves hp hrow with hkept | ⟨ha, hzero, hid, hentity⟩
  · exact .inl hkept
  obtain hnew | ⟨copy, hcopy, hcopied, hname⟩ := h.copy hjob hr
  · exact absurd hnew hzero
  obtain ⟨⟨row', hrow', hid', hname'⟩, -⟩ := hr copy hcopy
  have hsame : row' = row :=
    s.keys.primary.eq_of_key hrow' hrow (hid'.trans (hcopied.symm.trans hid.symm))
  refine .inr ⟨ha, hentity, copy, hcopy, hcopied, hid.trans hcopied, ?_⟩
  rw [hname, ← hname', hsame]

theorem persists_of_performs {op : TrustOp} {a : TrustAnswer op} (h : r.allows settings op)
    (hjob : r.job ≠ .sync) (hr : r.Found s) (hp : s.performs op a s') : s.Persists s' := by
  by_cases hop : ∃ entity, op = .save entity
  · obtain ⟨entity, rfl⟩ := hop
    intro row hrow
    rcases row_after_saves h hjob hr hp hrow with hkept | ⟨-, hsaved, copy, -, hcopied, hid, hname⟩
    · exact ⟨row, hkept, rfl, rfl⟩
    · exact ⟨entity, hsaved, hcopied.trans hid.symm, hname⟩
  · exact .of_keys (Registry.keys_of_performs (fun entity hsave => hop ⟨entity, hsave⟩) hp)

theorem read_of_find {fspId : String} {target : DbTarget} {a : Except JsError (Option ParticipantKey)}
    (h : r.LooksUp fspId target) (hjob : r.job ≠ .sync)
    (hp : s.performs (.findByFspId fspId target) a s') : r.job.subject = some fspId ∧
      ∀ copy ∈ (r.next (.findByFspId fspId target) a).read,
        copy ∈ s.rows ∧ collate copy.fspId = collate fspId := by
  have hsubject : target = .write ∧ r.job.subject = some fspId := by
    cases hj : r.job with
    | sync => exact absurd hj hjob
    | reconcile | land _ | replaceJwsKey _ _ => simp [LooksUp, hj] at h
    | publishAndEnable _ | updateJwsPolicy _ | addSigningKeys _ | onboardFsp _ =>
      simp only [LooksUp, hj] at h
      exact ⟨h.2, by rw [h.1]; rfl⟩
  obtain ⟨rfl, hsubject⟩ := hsubject
  refine ⟨hsubject, fun copy hcopy => ?_⟩
  rcases a with e | found
  · cases hcopy
  · obtain ⟨t, rfl, rfl⟩ := hp.2 found rfl
    apply Store.Indexed.findBy_eq_some_iff.mp
    simpa [next, Except.toOption] using hcopy

theorem read_of_findAll {target : DbTarget} {a : Except JsError (List ParticipantKey)}
    (h : r.allows settings (.findAll target)) (hp : s.performs (.findAll target) a s') :
    r.job = .reconcile ∧ ∀ copy ∈ (r.next (.findAll target) a).read, copy ∈ s.rows := by
  obtain ⟨hreconcile, rfl⟩ := h
  refine ⟨hreconcile, fun copy hcopy => ?_⟩
  rcases a with e | found
  · cases hcopy
  · obtain ⟨t, rfl, hperm⟩ := hp.2 found rfl
    exact hperm.mem_iff.mp (by simpa [next, Except.toOption] using hcopy)

theorem found_next {op : TrustOp} {a : TrustAnswer op} (h : r.allows settings op)
    (hjob : r.job ≠ .sync) (hr : r.Found s) (hp : s.performs op a s') : (r.next op a).Found s' := by
  have hkept : r.Found s' := hr.persists (persists_of_performs h hjob hr hp)
  cases op with
  | findByFspId fspId target =>
    obtain ⟨hsubject, hread⟩ := read_of_find h hjob hp
    intro copy hcopy
    obtain ⟨hmem, hname⟩ := hread copy hcopy
    refine ⟨⟨copy, hp.1 ▸ hmem, rfl, rfl⟩, fun fspId' hsubject' => ?_⟩
    obtain rfl : fspId = fspId' := Option.some.inj (hsubject.symm.trans hsubject')
    exact hname
  | findAll target =>
    obtain ⟨hreconcile, hread⟩ := read_of_findAll h hp
    intro copy hcopy
    refine ⟨⟨copy, hp.1 ▸ hread copy hcopy, rfl, rfl⟩, fun fspId hsubject => ?_⟩
    simp [next, hreconcile, TrustJob.subject] at hsubject
  | _ => exact hkept

end Decision

variable {ι : Type} [DecidableEq ι] {trust : TrustSettings} {kinds : TrustJob → Prop}

/-- In every run without the scheduler that reads from the replica. -/
theorem found_of_reaches (hkinds : ∀ job, kinds job → job ≠ .sync) {s : Registry trust.collate}
    {c : Provisioning trust kinds ι} {ok}
    (h : (provisioning trust kinds).Reaches ok (.initial s) c) {i : ι} {r : Decision}
    (hi : c.records (decision trust.toOnboardSettings) (fun job => .initial job.val) i = some r) :
    r.job ≠ .sync ∧ r.Found c.shared := by
  have hobeys : ∀ job : { job // kinds job }, ((provisioning trust kinds).entry job).Obeys
      (decision trust.toOnboardSettings) (.initial job.val)
      (Decision.Settled trust.toOnboardSettings job.val) :=
    fun job => Decision.obeys_job trust job.val
  have hany : (provisioning trust kinds).Reaches (fun _ _ => True) (.initial s) c :=
    h.mono fun _ _ _ _ => trivial
  refine hany.records_invariant (fun _ _ _ => True)
    (fun s f => ∀ (i : ι) r, f i = some r → r.job ≠ .sync ∧ r.Found s) hobeys (by simp) ?_ i r hi
  rintro s f l s' f' hf - hmove
  cases hmove with
  | start job hi =>
    rw [Async.forall_update]
    exact ⟨⟨hkinds _ job.property, .initial s _⟩, fun j r _ hj => hf j r hj⟩
  | @call _ _ i r op a hi hr hp =>
    rw [Async.forall_update]
    obtain ⟨hjob, hfound⟩ := hf i r hi
    refine ⟨⟨?_, Decision.found_next hr hjob hfound hp⟩, ?_⟩
    · have hsame := Decision.job_after trust.toOnboardSettings r [⟨op, a⟩]
      exact fun hsync => hjob (hsame.symm.trans hsync)
    · intro j r' _ hj
      exact ⟨(hf j r' hj).1, (hf j r' hj).2.persists
        (Decision.persists_of_performs hr hjob hfound hp)⟩
  | crash _ _ =>
    intro j r hj
    exact hf j r (Async.of_update_none hj).2
  | background hb => exact hb.elim

/-- The step answers a save. -/
def IsSave {κ : Type} : Label ι TrustOp TrustAnswer κ → Prop
  | .call _ ⟨.save _, _⟩ => True
  | _ => False

theorem keys_or_saves (hkinds : ∀ job, kinds job → job ≠ .sync) {s : Registry trust.collate}
    {c c' : Provisioning trust kinds ι} {l : Label ι TrustOp TrustAnswer { job // kinds job }} {ok}
    (h : (provisioning trust kinds).Reaches ok (.initial s) c)
    (hs : (provisioning trust kinds).Step c l c') :
    (c'.shared.keys = c.shared.keys ∧ ¬ IsSave l) ∨ ∃ i entity a p r, l = .call i ⟨.save entity, a⟩ ∧
      c.process i = some p ∧ c.records (decision trust.toOnboardSettings)
        (fun job => .initial job.val) i = some r ∧
      r.job = p.job.val ∧ r.job ≠ .sync ∧ r.Found c.shared ∧
      r.Saves trust.toOnboardSettings entity ∧ c.shared.saves entity a c'.shared := by
  cases hs with
  | start _ _ | crash _ => exact .inl ⟨rfl, not_false⟩
  | background hb => exact hb.elim
  | @call i job t op resume a s' hi hp =>
    by_cases hop : ∃ entity, op = .save entity
    · obtain ⟨entity, rfl⟩ := hop
      have hallows := h.allows (fun job => Decision.obeys_job trust job.val) hi
      have hrecord : c.records (decision trust.toOnboardSettings)
        (fun job : { job // kinds job } => .initial job.val) i = some _ := Config.records_eq hi
      obtain ⟨hjob, hfound⟩ := found_of_reaches hkinds h hrecord
      exact .inr ⟨i, entity, a, _, _, rfl, hi, hrecord,
        Decision.job_after trust.toOnboardSettings (.initial job.val) t, hjob, hfound, hallows, hp⟩
    · refine .inl ⟨Registry.keys_of_performs (fun entity hsave => hop ⟨entity, hsave⟩) hp, ?_⟩
      cases op with
      | save entity => exact absurd ⟨entity, rfl⟩ hop
      | _ => exact not_false

end Trust
