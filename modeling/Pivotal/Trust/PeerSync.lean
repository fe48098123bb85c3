import Pivotal.Trust.Decisions

/-! The scheduler that fetches the keys of peers, beside everything else that saves rows. -/
namespace Trust
open Async (Config Label Process System Written)
open Fspiop (JsError)
open Participant (ParticipantKey)

variable {ι : Type} {collate : String → String}

/-- The tenants are as they were, and so are the switches of the peers. -/
structure Registry.Spares (s s' : Registry collate) : Prop where
  tenant : ∀ row ∈ s.rows, row.role = .self → row ∈ s'.rows
  peer : ∀ row ∈ s.rows, row.role ≠ .self → ∃ row' ∈ s'.rows, row'.id = row.id ∧
    row'.jwsSignEnabled = row.jwsSignEnabled ∧ row'.jwsVerifyMode = row.jwsVerifyMode

theorem Registry.Spares.of_mem {s s' : Registry collate} (h : ∀ row ∈ s.rows, row ∈ s'.rows) :
    s.Spares s' :=
  ⟨fun row hrow _ => h row hrow, fun row hrow _ => ⟨row, h row hrow, rfl, rfl, rfl⟩⟩

variable {settings : TrustSettings} {kinds : TrustJob → Prop}

/-- A call of the scheduler. -/
def BySync (c : Provisioning settings kinds ι) :
    Label ι TrustOp TrustAnswer { job // kinds job } → Prop
  | .call i _ => ∃ p, c.process i = some p ∧ p.job.val = .sync
  | _ => False

/-- The condition of the result. When the scheduler saves the copy of a row, the row still has the
role and the switches that the copy was read with. -/
def SyncsFresh (c : Provisioning settings kinds ι) :
    Label ι TrustOp TrustAnswer { job // kinds job } → Prop
  | .call i ⟨.save _, a⟩ => ∀ r, c.records (decision settings.toOnboardSettings)
      (fun job => .initial job.val) i = some r → r.job = .sync → a.isRejected = false →
    ∀ copy ∈ r.read, ∀ row ∈ c.shared.rows, row.id = copy.id → row.role = copy.role ∧
      row.jwsSignEnabled = copy.jwsSignEnabled ∧ row.jwsVerifyMode = copy.jwsVerifyMode
  | _ => True

theorem Registry.Spares.of_saves {s s' : Registry collate} {entity : ParticipantKey}
    {a : Written JsError ParticipantKey} {r : Decision} (hr : r.Syncs entity)
    (hfresh : a.isRejected = false → ∀ copy ∈ r.read, ∀ row ∈ s.rows, row.id = copy.id →
      row.role = copy.role ∧ row.jwsSignEnabled = copy.jwsSignEnabled ∧
        row.jwsVerifyMode = copy.jwsVerifyMode) (hp : s.saves entity a s') : s.Spares s' := by
  constructor
  · intro row hrow hself
    rcases Registry.row_of_saves hp hrow with hkept | ⟨ha, hzero, hid, -⟩
    · exact hkept
    rcases hr with ⟨fspId, publicKey, -, rfl⟩ | ⟨copy, publicKey, hread, hrole, rfl⟩
    · exact absurd rfl hzero
    · have hrow' := hfresh ha copy (by simp [hread]) row hrow hid
      rw [hself] at hrow'
      exact absurd hrow'.1.symm hrole
  · intro row hrow hpeer
    rcases Registry.row_of_saves hp hrow with hkept | ⟨ha, hzero, hid, hsaved⟩
    · exact ⟨row, hkept, rfl, rfl, rfl⟩
    rcases hr with ⟨fspId, publicKey, -, rfl⟩ | ⟨copy, publicKey, hread, hrole, rfl⟩
    · exact absurd rfl hzero
    · obtain ⟨-, hsign, hverify⟩ := hfresh ha copy (by simp [hread]) row hrow hid
      exact ⟨_, hsaved, hid.symm, hsign.symm, hverify.symm⟩

/-- In a run that keeps to the condition, no call of the scheduler moves a switch, and none touches
the row of a tenant. -/
theorem sync_spares [DecidableEq ι] {s : Registry settings.collate}
    {c c' : Provisioning settings kinds ι} {l : Label ι TrustOp TrustAnswer { job // kinds job }}
    (h : (provisioning settings kinds).Reaches SyncsFresh (.initial s) c) (hl : SyncsFresh c l)
    (hsync : BySync c l) (hs : (provisioning settings kinds).Step c l c') :
    c.shared.Spares c'.shared := by
  cases hs with
  | start _ _ | crash _ | background _ => exact hsync.elim
  | @call i job t op resume a s' hi hp =>
    obtain ⟨p, hp', hjob⟩ := hsync
    obtain rfl : _ = p := Option.some.inj (hi.symm.trans hp')
    have hobeys := fun job : { job // kinds job } => Decision.obeys_job settings job.val
    have hallows := h.allows hobeys hi
    by_cases hop : ∃ entity, op = .save entity
    · obtain ⟨entity, rfl⟩ := hop
      have hrecord : c.records (decision settings.toOnboardSettings)
          (fun job : { job // kinds job } => .initial job.val) i = some _ := Config.records_eq hi
      have hrole := (Decision.job_after settings.toOnboardSettings (.initial job.val) t).trans hjob
      have hsyncs : Decision.Saves settings.toOnboardSettings _ entity := hallows
      rw [Decision.Saves, Process.record, hrole] at hsyncs
      exact .of_saves hsyncs (hl _ hrecord hrole) hp
    · have hkeys : s'.keys = c.shared.keys :=
        Registry.keys_of_performs (fun entity hsave => hop ⟨entity, hsave⟩) hp
      apply Registry.Spares.of_mem
      intro row hrow
      simpa [Registry.rows, hkeys] using hrow

/-! A peer that has published another key. -/

section Sample

def samplePeer : ParticipantKey := ⟨1, "b", .peer, some "old", none, false, none, "off"⟩

def samplePeers : Registry sampleTrustSettings.collate where
  keys := .initial ⟨⟨[samplePeer], by decide⟩, by decide⟩
  participants := .empty
  mcm := Js.Map.empty.set "b" "new"
  vault := .empty
  late := []
  keyPairs := []
  ledger := ⟨[], [], .empty⟩

abbrev sampleSync : { _job : TrustJob // True } := ⟨.sync, trivial⟩

/-- The scheduler has listed the keys and read the row. -/
def sampleReading : Provisioning sampleTrustSettings (fun _ => True) Bool :=
  ((Config.initial samplePeers).put false (some ⟨sampleSync, [],
    sampleSync.val.execute sampleTrustSettings⟩)).advance Registry.respond false 2

theorem SyncsFresh.of_not_isSave {c : Provisioning settings kinds ι} {i : ι}
    {e : Async.Event TrustOp TrustAnswer} (h : e.op.isSave = false) : SyncsFresh c (.call i e) := by
  obtain ⟨op, a⟩ := e
  cases op with
  | save entity => cases h
  | _ => trivial

theorem sampleReading_reached : (provisioning sampleTrustSettings fun _ => True).Reaches
    SyncsFresh (.initial samplePeers) sampleReading := by
  have hstarted : (provisioning sampleTrustSettings fun _ => True).Reaches SyncsFresh
      (.initial samplePeers : Provisioning sampleTrustSettings (fun _ => True) Bool)
      ((Config.initial samplePeers).put false (some ⟨sampleSync, [],
        sampleSync.val.execute sampleTrustSettings⟩)) :=
    System.Reaches.refl.tail (l := .start false sampleSync) trivial (.start sampleSync rfl)
  apply hstarted.advanceAll (P := fun _ e => e.op.isSave = false) false Registry.performs_respond
    fun _ _ he _ => .of_not_isSave he
  rintro _ ⟨⟩
  decide

theorem bySync_of_job {c : Provisioning sampleTrustSettings (fun _ => True) Bool}
    (h : (c.process false).map (fun p => p.job.val) = some .sync) (e) :
    BySync c (.call false e) := Option.map_eq_some_iff.mp h

theorem sync_spares_sample :
    (sampleReading.advance Registry.respond false 1).shared.rows.map ParticipantKey.jwsPublicKey =
      [some "new"] ∧
    sampleReading.shared.Spares (sampleReading.advance Registry.respond false 1).shared := by
  refine ⟨by decide +kernel, ?_⟩
  obtain ⟨⟨op, a⟩, hstep⟩ := System.exists_step (S := provisioning sampleTrustSettings fun _ => True)
    (c := sampleReading) Registry.performs_respond (i := false) (by decide +kernel)
  have hfresh : SyncsFresh sampleReading (.call false ⟨op, a⟩) := by
    cases op with
    | save entity =>
      intro r hr _ _
      have hread : (sampleReading.records (decision sampleTrustSettings.toOnboardSettings)
          (fun job => .initial job.val) false).map Decision.read = some [samplePeer] := by
        decide +kernel
      have hrows : sampleReading.shared.rows = [samplePeer] := by decide +kernel
      rw [hr, Option.map_some, Option.some_inj] at hread
      simp [hread, hrows]
    | _ => trivial
  exact sync_spares sampleReading_reached hfresh (bySync_of_job (by decide +kernel) _) hstep

abbrev samplePolicy : { _job : TrustJob // True } :=
  ⟨.updateJwsPolicy ⟨"b", none, some .require⟩, trivial⟩

/-- The operator has tightened the verification of the peer since. -/
def sampleTightened : Provisioning sampleTrustSettings (fun _ => True) Bool :=
  (sampleReading.put true (some ⟨samplePolicy, [],
    samplePolicy.val.execute sampleTrustSettings⟩)).advance Registry.respond true 20

/-- The scheduler saves what it had read, and the verification is off again. -/
theorem not_sync_spares :
    ¬ ∀ (c c' : Provisioning sampleTrustSettings (fun _ => True) Bool)
      (l : Label Bool TrustOp TrustAnswer { _job : TrustJob // True }),
      (provisioning sampleTrustSettings fun _ => True).Reaches System.Any (.initial samplePeers) c →
      BySync c l → (provisioning sampleTrustSettings fun _ => True).Step c l c' →
      c.shared.Spares c'.shared := by
  intro h
  have hread : (provisioning sampleTrustSettings fun _ => True).Reaches System.Any
      (.initial samplePeers) sampleReading := sampleReading_reached.mono fun _ _ _ _ => trivial
  have htightened : (provisioning sampleTrustSettings fun _ => True).Reaches System.Any
      (.initial samplePeers) sampleTightened :=
    (hread.tail trivial (.start samplePolicy (i := true) rfl)).advance Registry.performs_respond true 20
  obtain ⟨e, hstep⟩ := System.exists_step (S := provisioning sampleTrustSettings fun _ => True)
    (c := sampleTightened) Registry.performs_respond (i := false) (by decide +kernel)
  have hspares := h _ _ _ htightened (bySync_of_job (by decide +kernel) e) hstep
  have hbefore : ∃ row ∈ sampleTightened.shared.rows, row.role ≠ .self ∧ row.id = 1 ∧
      row.jwsVerifyMode = "require" := by decide +kernel
  have hafter : ∀ row ∈ (sampleTightened.advance Registry.respond false 1).shared.rows,
      row.jwsVerifyMode ≠ "require" := by decide +kernel
  obtain ⟨row, hrow, hrole, -, hmode⟩ := hbefore
  obtain ⟨row', hrow', -, -, hmode'⟩ := hspares.peer row hrow hrole
  exact hafter row' hrow' (hmode'.trans hmode)

end Sample

end Trust
