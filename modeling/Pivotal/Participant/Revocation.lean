import Mathlib.Data.List.Sort
import Pivotal.Participant.CertificateGuard

/-! Revocation against issuance. A save writes the columns in which an entity differs from the
row it reads first, so a certificate that was read before its revocation is saved over it. As
long as that does not happen, and the guard is shown completed revocations, they are final. -/
namespace Participant
open Async
open Fspiop (JsError)
open Async.Program (Keeps Obeys)

/-- What a process has read and written of the table. -/
structure CertRecord where
  usable : List ParticipantCert
  selected : Option (String × ParticipantCert)
  revoked : Option String

namespace CertRecord

def initial : CertRecord := ⟨[], none, none⟩

def afterUsable (r : CertRecord) (a : Except JsError (List ParticipantCert)) : CertRecord :=
  match a with
  | .ok rows => { r with usable := rows }
  | .error _ => r

def afterFind (r : CertRecord) (id : String) (a : Except JsError (Option ParticipantCert)) :
    CertRecord :=
  match a with
  | .ok found => { r with selected := found.map fun row => (id, row) }
  | .error _ => r

def afterInsert (r : CertRecord) (entity : ParticipantCert) (a : Written JsError String) :
    CertRecord :=
  match a with
  | .done id => if entity.status = .revoked then { r with revoked := some id } else r
  | _ => r

def afterUpdate (r : CertRecord) (entity : ParticipantCert) (a : Written JsError Unit) :
    CertRecord :=
  match a with
  | .done _ => if entity.status = .revoked then { r with revoked := some entity.id } else r
  | _ => r

def next (r : CertRecord) : (op : CertOp) → CertAnswer op → CertRecord
  | .findUsableByFspId _, a => r.afterUsable a
  | .findById id, a => r.afterFind id a
  | .insert entity, a => r.afterInsert entity a
  | .update _ entity, a => r.afterUpdate entity a
  | _, _ => r

/-- An entity that was read as usable and retires, or that is revoked. -/
def Saves (r : CertRecord) (entity : ParticipantCert) : Prop :=
  (entity.status = .revoked ∧ entity.revokedAt.isSome) ∨
    ∃ existing ∈ r.usable, entity = { existing with status := .retiring }

def allows (r : CertRecord) : CertOp → Prop
  | .insert entity => r.Saves entity ∨ (entity.status = .active ∧ entity.revokedAt = none)
  | .update before entity => r.selected = some (entity.id, before) ∧ r.Saves entity
  | _ => True

/-- The revocation of the row is written, or its row was found revoked. -/
def Completed (r : CertRecord) (id : String) : Prop :=
  r.revoked = some id ∨ ∃ row, r.selected = some (id, row) ∧ row.status = .revoked

end CertRecord

def certRecord : Monitor CertOp CertAnswer CertRecord := ⟨CertRecord.next, CertRecord.allows⟩

section Programs

variable (settings : CertSettings)

/-- A process that returns from a revocation has completed it. -/
def Settled (r : CertRecord) (result : Except JsError CertOutput) : Prop :=
  ∀ output, result = .ok (.revoked output) → r.Completed output.id

/-- A save leaves the usable certificates recorded, and completes a revocation it returns from. -/
def Saved (usable : List ParticipantCert) (entity : ParticipantCert) (r : CertRecord)
    (result : Except JsError ParticipantCert) : Prop :=
  r.usable = usable ∧
    (entity.status = .revoked → ∀ saved, result = .ok saved → r.Completed saved.id)

theorem saved_error {r : CertRecord} (entity : ParticipantCert) (e : JsError) :
    Saved r.usable entity r (.error e) := by
  refine ⟨rfl, ?_⟩
  intro _ saved h
  cases h

theorem saved_insert (r : CertRecord) (entity : ParticipantCert) (id : String) :
    Saved r.usable entity (r.afterInsert entity (.done id)) (.ok { entity with id := id }) := by
  constructor
  · simp only [CertRecord.afterInsert]
    split <;> rfl
  · rintro hrevoked _ ⟨⟩
    left
    simp [CertRecord.afterInsert, hrevoked]

theorem saved_update (r : CertRecord) (entity : ParticipantCert) (u : Unit) :
    Saved r.usable entity (r.afterUpdate entity (.done u)) (.ok entity) := by
  constructor
  · simp only [CertRecord.afterUpdate]
    split <;> rfl
  · rintro hrevoked _ ⟨⟩
    left
    simp [CertRecord.afterUpdate, hrevoked]

theorem obeys_saveOver {r : CertRecord} {entity : ParticipantCert} {before : Option ParticipantCert}
    (hinsert : r.allows (.insert entity))
    (hupdate : ∀ row, before = some row →
      r.selected = some (entity.id, row) ∧ r.Saves entity) :
    (ParticipantCertRepository.saveOver entity before).Obeys certRecord r
      (Saved r.usable entity) := by
  cases before with
  | none =>
    apply Obeys.afterPerform hinsert
    rintro (id | e | e)
    · exact saved_insert r entity id
    · exact saved_error entity e
    · exact saved_error entity e
  | some row =>
    obtain ⟨hselected, hsaves⟩ := hupdate row rfl
    by_cases hsame : row = entity
    · subst hsame
      simp only [ParticipantCertRepository.saveOver, if_true]
      refine ⟨rfl, ?_⟩
      rintro hrevoked _ ⟨⟩
      exact .inr ⟨row, hselected, hrevoked⟩
    · simp only [ParticipantCertRepository.saveOver, hsame, if_false]
      have hallows : r.allows (.update row entity) := ⟨hselected, hsaves⟩
      apply Obeys.afterPerform hallows
      rintro (u | e | e)
      · exact saved_update r entity u
      · exact saved_error entity e
      · exact saved_error entity e

theorem obeys_save {r : CertRecord} {entity : ParticipantCert}
    (hinsert : r.allows (.insert entity)) (hid : r.Saves entity ∨ entity.id = "") :
    (ParticipantCertRepository.save entity).Obeys certRecord r (Saved r.usable entity) := by
  rcases eq_or_ne entity.id "" with hempty | hne
  · simp only [ParticipantCertRepository.save, hempty, if_true]
    exact obeys_saveOver hinsert (by simp)
  · have hsaves : r.Saves entity := hid.resolve_right hne
    simp only [ParticipantCertRepository.save, hne, if_false]
    apply Obeys.afterPerform trivial
    rintro (e | found)
    · exact saved_error entity e
    · apply obeys_saveOver (r := { r with selected := found.map fun row => (entity.id, row) })
      · exact hinsert
      · rintro row rfl
        exact ⟨rfl, hsaves⟩

theorem retireEach_keeps {usable : List ParticipantCert} (rest : List ParticipantCert)
    (h : ∀ row ∈ rest, row ∈ usable) :
    (DfspCertificateIssuer.retireEach rest).Keeps certRecord fun r => r.usable = usable := by
  induction rest with
  | nil => exact Program.keeps_pure _
  | cons existing rest ih =>
    have hrest := ih fun row hrow => h row (List.mem_cons_of_mem _ hrow)
    simp only [DfspCertificateIssuer.retireEach]
    split
    · exact hrest
    · apply Keeps.bind
      · rintro r rfl
        have hsaves : r.Saves { existing with status := .retiring } :=
          .inr ⟨existing, h existing (List.mem_cons_self ..), rfl⟩
        exact (obeys_save (.inl hsaves) (.inl hsaves)).mono fun _ _ hsaved => hsaved.1
      · intro _
        exact hrest

theorem sign_keeps {R : CertRecord → Prop} (request : DfspCertificateIssuer.Request) :
    (DfspCertificateIssuer.sign settings request).Keeps certRecord R := by
  apply Keeps.tryCatch
  · apply Keeps.bind (Program.keeps_perform fun r hr => ⟨trivial, fun _ => hr⟩)
    intro signed
    exact Program.keeps_lift _
  · intro e
    exact Program.keeps_throw _

theorem retireExisting_keeps (fspId : String) :
    (DfspCertificateIssuer.retireExisting fspId).Keeps certRecord fun _ => True := by
  intro r _
  apply Obeys.afterPerform trivial
  rintro (e | usable)
  · trivial
  · apply (retireEach_keeps usable (fun _ h => h) { r with usable := usable } rfl).mono
    intro _ _ _
    trivial

theorem issue_keeps (request : DfspCertificateIssuer.Request) :
    (DfspCertificateIssuer.issue settings request).Keeps certRecord fun _ => True := by
  apply Keeps.bind (Program.keeps_lift _)
  intro _
  apply Keeps.bind (sign_keeps settings request)
  intro signed
  apply Keeps.bind (Program.keeps_lift _)
  intro parsed
  apply Keeps.bind (Program.keeps_lift _)
  intro _
  apply Keeps.bind (retireExisting_keeps request.fspId)
  intro _
  apply Keeps.bind (Program.keeps_perform fun r hr => ⟨trivial, fun _ => hr⟩)
  intro issuedAt r _
  exact (obeys_save (.inr ⟨rfl, rfl⟩) (.inr rfl)).mono fun _ _ _ => trivial

theorem obeys_revoke (input : RevokeDfspCertificateCommand.Input) :
    (RevokeDfspCertificateHandler.execute input).Obeys certRecord .initial fun r result =>
      ∀ output, result = .ok output → r.Completed output.id := by
  apply Obeys.afterPerform trivial
  intro found
  apply Obeys.afterLift
  · rintro e output ⟨⟩
  rintro (_ | certificate) _
  · rintro output ⟨⟩
  · by_cases hrevoked : certificate.status = .revoked
    · simp only [hrevoked, if_true]
      rintro output ⟨⟩
    · simp only [hrevoked, if_false]
      apply Obeys.afterPerform trivial
      intro revokedAt
      have hsaves : ∀ r : CertRecord, r.Saves
          { certificate with
            status := .revoked
            revokedAt := some revokedAt
            note := RevokeDfspCertificateHandler.note certificate.note input.reason } :=
        fun _ => .inl ⟨rfl, rfl⟩
      rw [Program.obeys_bind]
      apply (obeys_save (.inl (hsaves _)) (.inl (hsaves _))).mono
      rintro r (e | saved) ⟨-, hcompleted⟩
      · rintro output ⟨⟩
      · rintro output ⟨⟩
        exact hcompleted rfl saved rfl

/-- The guard looks up one certificate, and does not let a revoked one through. -/
def LetsThrough (t : List (Event CertOp CertAnswer)) (result : Except JsError Bool) : Prop :=
  ∀ activated, result = .ok activated → ∀ fingerprint certificate,
    ⟨.findByFingerprint fingerprint, .ok (some certificate)⟩ ∈ t → certificate.status ≠ .revoked

theorem letsThrough_error (t : List (Event CertOp CertAnswer)) (e : JsError) :
    LetsThrough t (.error e) := by
  rintro activated ⟨⟩

theorem letsThrough_nil (result : Except JsError Bool) : LetsThrough [] result := by
  rintro activated _ fingerprint certificate ⟨⟩

theorem letsThrough_usable {certificate : ParticipantCert} (h : certificate.status ≠ .revoked)
    (fingerprintSha256 : String) (now : Js.Date) (result : Except JsError Bool) :
    LetsThrough [⟨.findByFingerprint fingerprintSha256, .ok (some certificate)⟩, ⟨.now, now⟩]
      result := by
  intro activated _ fingerprint other hmem
  rcases List.mem_cons.mp hmem with hfirst | hrest
  · cases hfirst
    exact h
  · cases List.mem_singleton.mp hrest

theorem obeys_assertUsable (certificate : ParticipantCert) (t : List (Event CertOp CertAnswer)) :
    (DfspCertificateGuard.assertUsable certificate).Obeys Monitor.trace t fun t' result =>
      result = .ok () → certificate.status ≠ .revoked ∧ ∃ now, t' = t ++ [⟨.now, now⟩] := by
  by_cases hrevoked : certificate.status = .revoked
  · simp only [DfspCertificateGuard.assertUsable, hrevoked, if_true]
    rintro ⟨⟩
  · simp only [DfspCertificateGuard.assertUsable, hrevoked, if_false]
    apply Obeys.afterPerform trivial
    intro now
    split
    · rintro ⟨⟩
    · exact fun _ => ⟨hrevoked, now, rfl⟩

theorem obeys_canActivate (request : CertRequest) :
    (DfspCertificateGuard.canActivate settings request).Obeys Monitor.trace [] LetsThrough := by
  simp only [DfspCertificateGuard.canActivate]
  split
  · exact letsThrough_nil _
  split
  · split
    · exact letsThrough_nil _
    · exact letsThrough_nil _
  · rename_i presented _
    apply Obeys.afterLift (fun e => letsThrough_error _ e)
    intro source _
    apply Obeys.afterPerform trivial
    intro found
    apply Obeys.afterLift (fun e => letsThrough_error _ e)
    rintro (_ | certificate) hfound
    · exact letsThrough_error _ _
    · subst hfound
      rw [Program.obeys_bind]
      apply (obeys_assertUsable certificate _).mono
      rintro t (e | u) h
      · exact letsThrough_error _ e
      · obtain ⟨husable, now, rfl⟩ := h rfl
        simp only [Program.onOk_ok]
        split
        · exact letsThrough_error _ _
        · exact letsThrough_usable husable presented.hash now _

theorem assertUsable_keeps {R : CertRecord → Prop} (certificate : ParticipantCert) :
    (DfspCertificateGuard.assertUsable certificate).Keeps certRecord R := by
  simp only [DfspCertificateGuard.assertUsable]
  split
  · exact Program.keeps_throw _
  · apply Keeps.bind (Program.keeps_perform fun r hr => ⟨trivial, fun _ => hr⟩)
    intro now
    split
    · exact Program.keeps_throw _
    · exact Program.keeps_pure _

theorem canActivate_keeps {R : CertRecord → Prop} (request : CertRequest) :
    (DfspCertificateGuard.canActivate settings request).Keeps certRecord R := by
  simp only [DfspCertificateGuard.canActivate]
  split
  · exact Program.keeps_pure _
  split
  · split
    · exact Program.keeps_pure _
    · exact Program.keeps_throw _
  · apply Keeps.bind (Program.keeps_lift _)
    intro source
    apply Keeps.bind (Program.keeps_perform fun r hr => ⟨trivial, fun _ => hr⟩)
    intro found
    apply Keeps.bind (Program.keeps_lift _)
    rintro (_ | certificate)
    · exact Program.keeps_throw _
    · apply Keeps.bind (assertUsable_keeps certificate)
      intro _
      split
      · exact Program.keeps_throw _
      · exact Program.keeps_pure _

theorem obeys_entry (job : CertJob) :
    (CertJob.execute settings job).Obeys certRecord .initial Settled := by
  cases job with
  | issue request =>
    apply (issue_keeps settings request .initial trivial).seq
    · rintro saved r _ output ⟨⟩
    · rintro e r _ output ⟨⟩
  | revoke input =>
    simp only [CertJob.execute, Program.obeys_bind]
    apply (obeys_revoke input).mono
    rintro r (e | output) h
    · rintro output ⟨⟩
    · rintro _ ⟨⟩
      exact h output rfl
  | present request =>
    apply Obeys.seq (R := fun _ => True)
    · exact canActivate_keeps settings request .initial trivial
    · rintro saved r _ output ⟨⟩
    · rintro e r _ output ⟨⟩

/-- Only a guarded request is let through, and only as the guard lets it. -/
theorem obeys_admitted (job : CertJob) :
    (CertJob.execute settings job).Obeys Monitor.trace [] fun t result =>
      ∀ activated, result = .ok (.admitted activated) → LetsThrough t (.ok activated) := by
  cases job with
  | issue request =>
    simp only [CertJob.execute, Program.obeys_bind]
    apply (Program.obeys_of_allows (fun _ _ => trivial) _ _).mono
    rintro t (e | saved) _
    · rintro _ ⟨⟩
    · rintro _ ⟨⟩
  | revoke input =>
    simp only [CertJob.execute, Program.obeys_bind]
    apply (Program.obeys_of_allows (fun _ _ => trivial) _ _).mono
    rintro t (e | output) _
    · rintro _ ⟨⟩
    · rintro _ ⟨⟩
  | present request =>
    simp only [CertJob.execute, Program.obeys_bind]
    apply (obeys_canActivate settings request).mono
    rintro t (e | activated) hlets
    · rintro _ ⟨⟩
    · rintro _ ⟨⟩
      exact hlets

end Programs

section Rows

/-- Only a revoked row says when it was revoked. -/
def ParticipantCert.Consistent (row : ParticipantCert) : Prop :=
  row.status = .revoked ↔ row.revokedAt.isSome

theorem ParticipantCert.Consistent.revokedAt_eq_none {row : ParticipantCert}
    (h : row.Consistent) (hstatus : row.status ≠ .revoked) : row.revokedAt = none := by
  by_contra hsome
  exact hstatus (h.mpr (Option.isSome_iff_ne_none.mpr hsome))

/-- The row is there and carries its revocation. -/
structure Marked (s : ParticipantCerts) (id : String) : Prop where
  exists_row : ∃ row ∈ s.rows, row.id = id
  revoked : ∀ row ∈ s.rows, row.id = id → row.status = .revoked ∧ row.revokedAt.isSome

def Unique (s : ParticipantCerts) : Prop :=
  ∀ row ∈ s.rows, ∀ row' ∈ s.rows, row.id = row'.id → row = row'

/-- What a write may do to the table. -/
structure Extends (s s' : ParticipantCerts) : Prop where
  unique : Unique s → Unique s'
  consistent : ∀ row ∈ s'.rows, row.Consistent
  exists_row : ∀ row ∈ s.rows, ∃ row' ∈ s'.rows, row'.id = row.id
  marked : ∀ id, Marked s id → Marked s' id

variable {s : ParticipantCerts}

theorem extends_insert (hs : ∀ row ∈ s.rows, row.Consistent) {entity : ParticipantCert}
    (hadmits : s.Admits entity) (hentity : entity.Consistent) : Extends s (s.insert entity) where
  unique := by
    intro hunique row hrow row' hrow' hid
    rcases List.mem_append.mp hrow with hold | hnew <;>
      rcases List.mem_append.mp hrow' with hold' | hnew'
    · exact hunique row hold row' hold' hid
    · obtain rfl := List.mem_singleton.mp hnew'
      exact absurd hid (hadmits row hold).1
    · obtain rfl := List.mem_singleton.mp hnew
      exact absurd hid.symm (hadmits row' hold').1
    · rw [List.mem_singleton.mp hnew, List.mem_singleton.mp hnew']
  consistent := by
    intro row hrow
    rcases List.mem_append.mp hrow with hrow | hrow
    · exact hs row hrow
    · obtain rfl := List.mem_singleton.mp hrow
      exact hentity
  exists_row := by
    intro row hrow
    exact ⟨row, List.mem_append_left _ hrow, rfl⟩
  marked := by
    rintro id ⟨⟨row, hrow, hid⟩, hrevoked⟩
    refine ⟨⟨row, List.mem_append_left _ hrow, hid⟩, ?_⟩
    intro other hother hsame
    rcases List.mem_append.mp hother with hother | hother
    · exact hrevoked other hother hsame
    · obtain rfl := List.mem_singleton.mp hother
      exact absurd (hid.trans hsame.symm) (hadmits row hrow).1

theorem marked_insert {entity : ParticipantCert} (hadmits : s.Admits entity)
    (hstatus : entity.status = .revoked) (hrevokedAt : entity.revokedAt.isSome) :
    Marked (s.insert entity) entity.id where
  exists_row := ⟨entity, List.mem_append_right _ (List.mem_singleton.mpr rfl), rfl⟩
  revoked := by
    intro row hrow hid
    rcases List.mem_append.mp hrow with hrow | hrow
    · exact absurd hid (hadmits row hrow).1
    · obtain rfl := List.mem_singleton.mp hrow
      exact ⟨hstatus, hrevokedAt⟩

variable {before entity : ParticipantCert}

theorem overwrite_revoked (hbefore : before.Consistent)
    (hmarked : before.status = .revoked → Marked s before.id) (hstatus : entity.status = .revoked)
    (hrevokedAt : entity.revokedAt.isSome) {row : ParticipantCert} (hrow : row ∈ s.rows)
    (hid : row.id = before.id) :
    (ParticipantCerts.overwrite before entity row).status = .revoked ∧
      (ParticipantCerts.overwrite before entity row).revokedAt.isSome := by
  simp only [ParticipantCerts.overwrite, ParticipantCerts.column, hstatus]
  by_cases hwas : before.status = .revoked
  · obtain ⟨hrevoked, hsome⟩ := (hmarked hwas).revoked row hrow hid
    rw [if_pos hwas.symm]
    refine ⟨hrevoked, ?_⟩
    split
    · exact hsome
    · exact hrevokedAt
  · have hnone := hbefore.revokedAt_eq_none hwas
    rw [if_neg (Ne.symm hwas), if_neg]
    · exact ⟨rfl, hrevokedAt⟩
    · intro hsame
      rw [hsame, hnone] at hrevokedAt
      cases hrevokedAt

/-- Saving a retiring entity leaves a row as it is, or finds it unrevoked and retires it. -/
theorem overwrite_retiring (hbefore : before.Consistent)
    (hmarked : before.status = .revoked → Marked s before.id) (hstatus : entity.status = .retiring)
    (hrevokedAt : entity.revokedAt = none) {row : ParticipantCert} (hrow : row ∈ s.rows)
    (hconsistent : row.Consistent) (hid : row.id = before.id)
    (hunrevoked : before.status ≠ .retiring → row.status ≠ .revoked) :
    (ParticipantCerts.overwrite before entity row).Consistent ∧
      (row.status = .revoked → (ParticipantCerts.overwrite before entity row).status = .revoked) := by
  have hnone : before.revokedAt = none := by
    apply hbefore.revokedAt_eq_none
    intro hwas
    apply hunrevoked
    · simp [hwas]
    · exact ((hmarked hwas).revoked row hrow hid).1
  have hsame : (ParticipantCerts.overwrite before entity row).revokedAt = row.revokedAt := by
    simp [ParticipantCerts.overwrite, ParticipantCerts.column, hrevokedAt, hnone]
  by_cases hwas : before.status = .retiring
  · have hstatus' : (ParticipantCerts.overwrite before entity row).status = row.status := by
      simp [ParticipantCerts.overwrite, ParticipantCerts.column, hstatus, hwas]
    rw [ParticipantCert.Consistent, hstatus', hsame]
    exact ⟨hconsistent, fun h => h⟩
  · have hstatus' : (ParticipantCerts.overwrite before entity row).status = .retiring := by
      simp [ParticipantCerts.overwrite, ParticipantCerts.column, hstatus, Ne.symm hwas]
    have hrowNone := hconsistent.revokedAt_eq_none (hunrevoked hwas)
    refine ⟨?_, fun h => absurd h (hunrevoked hwas)⟩
    rw [ParticipantCert.Consistent, hstatus', hsame, hrowNone]
    simp

theorem overwrite_id (hid : entity.id = before.id) (row : ParticipantCert) :
    (ParticipantCerts.overwrite before entity row).id = row.id := by
  simp [ParticipantCerts.overwrite, ParticipantCerts.column, hid]

/-- An update that keeps the rows consistent and their revocations. -/
theorem extends_update (hs : ∀ row ∈ s.rows, row.Consistent) (hid : entity.id = before.id)
    (hrow : ∀ row ∈ s.rows, row.id = before.id →
      (ParticipantCerts.overwrite before entity row).Consistent ∧ (row.status = .revoked →
        (ParticipantCerts.overwrite before entity row).status = .revoked)) :
    Extends s (s.update before entity) := by
  have hkeeps : ∀ row ∈ s.rows, ∃ row', row' = (if row.id = before.id then
      ParticipantCerts.overwrite before entity row else row) ∧ row'.id = row.id ∧
        row'.Consistent ∧ (row.status = .revoked → row'.status = .revoked) := by
    intro row hmem
    refine ⟨_, rfl, ?_⟩
    split
    · rename_i hsame
      exact ⟨overwrite_id hid row, hrow row hmem hsame⟩
    · exact ⟨rfl, hs row hmem, fun h => h⟩
  constructor
  · intro hunique row₁ hmem₁ row₂ hmem₂ hsame
    obtain ⟨row, hrowMem, rfl⟩ := List.mem_map.mp hmem₁
    obtain ⟨row', hrowMem', rfl⟩ := List.mem_map.mp hmem₂
    obtain ⟨_, rfl, hrowId, -⟩ := hkeeps row hrowMem
    obtain ⟨_, rfl, hrowId', -⟩ := hkeeps row' hrowMem'
    rw [hunique row hrowMem row' hrowMem' (hrowId.symm.trans (hsame.trans hrowId'))]
  · intro row' hmem
    obtain ⟨row, hrowMem, rfl⟩ := List.mem_map.mp hmem
    obtain ⟨_, rfl, -, hconsistent, -⟩ := hkeeps row hrowMem
    exact hconsistent
  · intro row hmem
    obtain ⟨row', hrow', hsame, -⟩ := hkeeps row hmem
    exact ⟨row', List.mem_map.mpr ⟨row, hmem, hrow'.symm⟩, hsame⟩
  · rintro id ⟨⟨row, hmem, rfl⟩, hrevoked⟩
    constructor
    · obtain ⟨row', hrow', hsame, -⟩ := hkeeps row hmem
      exact ⟨row', List.mem_map.mpr ⟨row, hmem, hrow'.symm⟩, hsame⟩
    · intro other' hother' hsame
      obtain ⟨other, hother, rfl⟩ := List.mem_map.mp hother'
      obtain ⟨_, rfl, hotherId, hconsistent, hstatus⟩ := hkeeps other hother
      have hmark := hstatus (hrevoked other hother (hotherId.symm.trans hsame)).1
      exact ⟨hmark, hconsistent.mp hmark⟩

end Rows

/-- What a process has recorded is true of the primary. -/
structure CertRecord.Sound (r : CertRecord) (s : ParticipantCerts) : Prop where
  usable : ∀ row ∈ r.usable, row.revokedAt = none
  selected : ∀ id row, r.selected = some (id, row) → row.id = id ∧ row.Consistent ∧
    (∃ row' ∈ s.rows, row'.id = id) ∧ (row.status = .revoked → Marked s id)
  revoked : ∀ id, r.revoked = some id → Marked s id

namespace CertRecord.Sound

variable {r : CertRecord} {s s' : ParticipantCerts}

theorem initial : CertRecord.initial.Sound s := by
  constructor <;> simp [CertRecord.initial]

theorem mono (h : r.Sound s) (hs : Extends s s') : r.Sound s' where
  usable := h.usable
  selected := by
    intro id row hrow
    obtain ⟨hid, hconsistent, ⟨row', hmem, hid'⟩, hmarked⟩ := h.selected id row hrow
    obtain ⟨row'', hmem', hid''⟩ := hs.exists_row row' hmem
    exact ⟨hid, hconsistent, ⟨row'', hmem', hid''.trans hid'⟩, fun hr => hs.marked id (hmarked hr)⟩
  revoked := by
    intro id hid
    exact hs.marked id (h.revoked id hid)

theorem afterUsable (h : r.Sound s) {a : Except JsError (List ParticipantCert)}
    (ha : ∀ rows, a = .ok rows → ∀ row ∈ rows, row.revokedAt = none) :
    (r.afterUsable a).Sound s := by
  rcases a with e | rows
  · exact h
  · exact ⟨ha rows rfl, h.selected, h.revoked⟩

theorem afterFind (h : r.Sound s) (hs : ∀ row ∈ s.rows, row.Consistent) (hunique : Unique s)
    {id : String}
    {a : Except JsError (Option ParticipantCert)}
    (ha : ∀ found, a = .ok found → found = s.rows.find? (fun row => row.id = id)) :
    (r.afterFind id a).Sound s := by
  rcases a with e | found
  · exact h
  · obtain rfl := ha found rfl
    refine ⟨h.usable, ?_, h.revoked⟩
    intro id' selected hrow
    simp only [CertRecord.afterFind, Option.map_eq_some_iff, Prod.mk.injEq] at hrow
    obtain ⟨row, hfind, rfl, rfl⟩ := hrow
    have hmem := List.mem_of_find?_eq_some hfind
    have hid : row.id = id := by simpa using List.find?_some hfind
    refine ⟨hid, hs row hmem, ⟨row, hmem, hid⟩, ?_⟩
    intro hrevoked
    refine ⟨⟨row, hmem, hid⟩, ?_⟩
    intro other hother hother'
    obtain rfl := hunique other hother row hmem (hother'.trans hid.symm)
    exact ⟨hrevoked, (hs other hother).mp hrevoked⟩

theorem afterInsert (h : r.Sound s) {entity : ParticipantCert} {a : Written JsError String}
    (ha : ∀ id, a = .done id → entity.status = .revoked → Marked s id) :
    (r.afterInsert entity a).Sound s := by
  rcases a with id | e | e
  · simp only [CertRecord.afterInsert]
    split
    · rename_i hrevoked
      refine ⟨h.usable, h.selected, ?_⟩
      rintro _ ⟨⟩
      exact ha id rfl hrevoked
    · exact h
  · exact h
  · exact h

theorem afterUpdate (h : r.Sound s) {entity : ParticipantCert} {a : Written JsError Unit}
    (ha : ∀ u, a = .done u → entity.status = .revoked → Marked s entity.id) :
    (r.afterUpdate entity a).Sound s := by
  rcases a with u | e | e
  · simp only [CertRecord.afterUpdate]
    split
    · rename_i hrevoked
      refine ⟨h.usable, h.selected, ?_⟩
      rintro _ ⟨⟩
      exact ha u rfl hrevoked
    · exact h
  · exact h
  · exact h

end CertRecord.Sound

/-- A retiring certificate is not saved over a revoked row. -/
def Retires (s : Replicated ParticipantCerts) : Event CertOp CertAnswer → Prop
  | ⟨.update before entity, a⟩ => a.isRejected = false → entity.status = .retiring →
    before.status ≠ .retiring → ∀ row ∈ s.primary.rows, row.id = before.id → row.status ≠ .revoked
  | _ => True

/-- The rows, in every state a reader may be shown, and what the processes have recorded. -/
structure Kept {ι : Type} (s : Replicated ParticipantCerts) (f : ι → Option CertRecord) : Prop where
  consistent : ∀ t, s.Shows t → ∀ row ∈ t.rows, row.Consistent
  unique : Unique s.primary
  sound : ∀ i r, f i = some r → r.Sound s.primary

section Calls

variable {ι : Type} {s s' : Replicated ParticipantCerts} {f : ι → Option CertRecord} {r : CertRecord}

theorem Kept.write (h : Kept s f) {next : ParticipantCerts} (hnext : Extends s.primary next) :
    Kept (s.write next) f where
  consistent := by
    intro t ht
    rcases Replicated.shows_write.mp ht with rfl | hold
    · exact hnext.consistent
    · exact h.consistent t hold
  unique := hnext.unique h.unique
  sound := by
    intro i r hi
    exact (h.sound i r hi).mono hnext

theorem CertRecord.Saves.consistent {entity : ParticipantCert} (h : r.Saves entity)
    (hr : r.Sound s.primary) : entity.Consistent := by
  rcases h with ⟨hstatus, hrevokedAt⟩ | ⟨existing, hmem, rfl⟩
  · exact iff_of_true hstatus hrevokedAt
  · have hnone := hr.usable existing hmem
    simp [ParticipantCert.Consistent, hnone]

/-- An insert that takes effect extends the table, and marks the row it is to mark. -/
theorem insert_extends (h : Kept s f) (hr : r.Sound s.primary) {entity : ParticipantCert}
    (hallows : r.allows (.insert entity)) {id : String}
    (hadmits : s.primary.Admits { entity with id := id }) :
    Extends s.primary (s.primary.insert { entity with id := id }) ∧
      (entity.status = .revoked → Marked (s.primary.insert { entity with id := id }) id) := by
  have hentity : entity.Consistent := by
    rcases hallows with hsaves | ⟨hstatus, hnone⟩
    · exact hsaves.consistent hr
    · simp [ParticipantCert.Consistent, hstatus, hnone]
  constructor
  · exact extends_insert (h.consistent _ s.shows_primary) hadmits hentity
  · intro hstatus
    exact marked_insert hadmits hstatus (hentity.mp hstatus)

/-- An update that takes effect extends the table, and marks the row it is to mark. -/
theorem update_extends (h : Kept s f) (hr : r.Sound s.primary) {before entity : ParticipantCert}
    (hallows : r.allows (.update before entity)) (hretires : entity.status = .retiring →
      before.status ≠ .retiring → ∀ row ∈ s.primary.rows, row.id = before.id →
        row.status ≠ .revoked) :
    Extends s.primary (s.primary.update before entity) ∧
      (entity.status = .revoked → Marked (s.primary.update before entity) entity.id) := by
  obtain ⟨hselected, hsaves⟩ := hallows
  obtain ⟨hid, hbefore, ⟨row', hmem', hrow'⟩, hmarked⟩ := hr.selected _ _ hselected
  have hrows := h.consistent _ s.shows_primary
  rw [← hid] at hmarked
  rcases hsaves with ⟨hstatus, hrevokedAt⟩ | ⟨existing, hmem, rfl⟩
  · have hover : ∀ row ∈ s.primary.rows, row.id = before.id →
        (ParticipantCerts.overwrite before entity row).status = .revoked ∧
          (ParticipantCerts.overwrite before entity row).revokedAt.isSome :=
      fun row hrow hsame => overwrite_revoked hbefore hmarked hstatus hrevokedAt hrow hsame
    constructor
    · apply extends_update hrows hid.symm
      intro row hrow hsame
      obtain ⟨hrevoked, hsome⟩ := hover row hrow hsame
      exact ⟨iff_of_true hrevoked hsome, fun _ => hrevoked⟩
    · intro _
      constructor
      · refine ⟨_, List.mem_map_of_mem hmem', ?_⟩
        rw [if_pos (hrow'.trans hid.symm), overwrite_id hid.symm, hrow']
      · intro row hrow hrowId
        obtain ⟨old, hold, rfl⟩ := List.mem_map.mp hrow
        by_cases hsame : old.id = before.id
        · rw [if_pos hsame]
          exact hover old hold hsame
        · rw [if_neg hsame] at hrowId
          exact absurd (hrowId.trans hid.symm) hsame
  · have hstatus : ({ existing with status := .retiring } : ParticipantCert).status = .retiring := rfl
    constructor
    · apply extends_update hrows hid.symm
      intro row hrow hsame
      exact overwrite_retiring hbefore hmarked hstatus (hr.usable existing hmem) hrow (hrows row hrow)
        hsame fun hne => hretires rfl hne row hrow hsame
    · rintro ⟨⟩

variable [DecidableEq ι] {i : ι}

theorem Kept.record (h : Kept s f) (hr : r.Sound s.primary) :
    Kept s (Function.update f i (some r)) where
  consistent := h.consistent
  unique := h.unique
  sound := forall_update.mpr ⟨hr, fun j r _ hj => h.sound j r hj⟩

theorem Kept.usable (h : Kept s f) (hr : r.Sound s.primary) {fspId : String}
    {a : CertAnswer (.findUsableByFspId fspId)}
    (hp : ParticipantCerts.performs s (.findUsableByFspId fspId) a s') :
    Kept s' (Function.update f i (some (r.afterUsable a))) := by
  obtain ⟨rfl, hrows⟩ := hp
  apply h.record
  apply hr.afterUsable
  intro rows ha row hrow
  obtain ⟨t, ht, hperm, -⟩ := hrows rows ha
  obtain ⟨hmem, husable⟩ := List.mem_filter.mp (hperm.mem_iff.mp hrow)
  apply (h.consistent t ht row hmem).revokedAt_eq_none
  intro hrevoked
  simp [ParticipantCerts.usable, hrevoked] at husable

theorem Kept.insert (h : Kept s f) (hr : r.Sound s.primary) {entity : ParticipantCert}
    {a : Written JsError String} (hallows : r.allows (.insert entity))
    (hp : ParticipantCerts.performs s (.insert entity) a s') :
    Kept s' (Function.update f i (some (r.afterInsert entity a))) := by
  obtain ⟨id, -, hdone, hadmits, rfl⟩ := hp
  by_cases hfresh : s.primary.Admits { entity with id := id }
  · obtain ⟨hextends, hmarks⟩ := insert_extends h hr hallows hfresh
    cases a with
    | done answered =>
      obtain rfl := hdone answered rfl
      apply (h.write hextends).record
      apply (hr.mono hextends).afterInsert
      rintro _ ⟨⟩ hrevoked
      exact hmarks hrevoked
    | lost e => exact (h.write hextends).record (hr.mono hextends)
    | rejected e => exact h.record hr
  · have hrejected := hadmits hfresh
    cases a with
    | done answered => cases hrejected
    | lost e => cases hrejected
    | rejected e => exact h.record hr

theorem Kept.update (h : Kept s f) (hr : r.Sound s.primary) {before entity : ParticipantCert}
    {a : Written JsError Unit} (hallows : r.allows (.update before entity))
    (hp : ParticipantCerts.performs s (.update before entity) a s')
    (hl : Retires s ⟨.update before entity, a⟩) :
    Kept s' (Function.update f i (some (r.afterUpdate entity a))) := by
  obtain rfl := hp
  cases a with
  | done u =>
    obtain ⟨hextends, hmarks⟩ := update_extends h hr hallows (hl rfl)
    apply (h.write hextends).record
    apply (hr.mono hextends).afterUpdate
    intro _ _ hrevoked
    exact hmarks hrevoked
  | lost e =>
    obtain ⟨hextends, -⟩ := update_extends h hr hallows (hl rfl)
    exact (h.write hextends).record (hr.mono hextends)
  | rejected e => exact h.record hr

theorem Kept.call (h : Kept s f) (hi : f i = some r) {op : CertOp} {a : CertAnswer op}
    (hallows : r.allows op) (hp : ParticipantCerts.performs s op a s') (hl : Retires s ⟨op, a⟩) :
    Kept s' (Function.update f i (some (r.next op a))) := by
  have hr := h.sound i r hi
  cases op with
  | findUsableByFspId fspId => exact h.usable hr hp
  | findById id =>
    obtain ⟨rfl, hfound⟩ := hp
    exact h.record (hr.afterFind (h.consistent _ s'.shows_primary) h.unique hfound)
  | insert entity => exact h.insert hr hallows hp
  | update before entity => exact h.update hr hallows hp hl
  | findByFingerprint fingerprintSha256 =>
    obtain ⟨rfl, -⟩ := hp
    exact h.record hr
  | now | signCertificate =>
    obtain rfl : s' = s := hp
    exact h.record hr

omit [DecidableEq ι] in
theorem Kept.initial : Kept (.initial .empty) fun _ : ι => none where
  consistent := by
    intro t ht row hrow
    rw [Replicated.shows_initial.mp ht] at hrow
    cases hrow
  unique := by
    intro row hrow
    cases hrow
  sound := by
    rintro i r ⟨⟩

/-- The first condition, of the step that the label takes. -/
def RetiresAt (s : Replicated ParticipantCerts) : Label ι CertOp CertAnswer CertJob → Prop
  | .call _ e => Retires s e
  | _ => True

theorem Kept.move (settings : CertSettings) {f' : ι → Option CertRecord}
    {l : Label ι CertOp CertAnswer CertJob} (h : Kept s f) (hl : RetiresAt s l)
    (hm : (certificates settings).Move certRecord (fun _ => .initial) s f l s' f') : Kept s' f' := by
  cases hm with
  | start job hi => exact h.record .initial
  | call hi hr hp => exact h.call hi hr hp hl
  | crash hi _ =>
    refine ⟨h.consistent, h.unique, ?_⟩
    intro j r hj
    exact h.sound j r (of_update_none hj).2
  | background hb => cases hb

end Calls

section Runs

variable {ι : Type} [DecidableEq ι] {settings : CertSettings}

/-- The processes over the table. -/
abbrev CertConfig (ι : Type) :=
  Config ι CertOp CertAnswer JsError CertOutput CertJob (Replicated ParticipantCerts)

abbrev CertProcess := Process CertOp CertAnswer JsError CertOutput CertJob

/-- The process has returned from the revocation of the row. -/
def Revoked (p : CertProcess) (id : String) : Prop :=
  ∃ output, p.program = .done (.ok (.revoked output)) ∧ output.id = id

/-- The process was shown the certificate for a fingerprint. -/
def Shown (p : CertProcess) (certificate : ParticipantCert) : Prop :=
  ∃ fingerprintSha256, ⟨.findByFingerprint fingerprintSha256, .ok (some certificate)⟩ ∈ p.trace

/-- The guard has let a request through that presents the certificate. -/
def Accepted (p : CertProcess) (certificate : ParticipantCert) : Prop :=
  Shown p certificate ∧ ∃ activated, p.program = .done (.ok (.admitted activated))

/-- The second condition. What the replica shows of a row whose revocation has returned is
revoked. -/
def ShowsRevoked (c : CertConfig ι) : Label ι CertOp CertAnswer CertJob → Prop
  | .call _ ⟨.findByFingerprint _, .ok (some certificate)⟩ =>
    ∀ i p, c.process i = some p → Revoked p certificate.id → certificate.status = .revoked
  | _ => True

/-- The conditions of the result. -/
def KeepsRevocations (c : CertConfig ι) (l : Label ι CertOp CertAnswer CertJob) : Prop :=
  RetiresAt c.shared l ∧ ShowsRevoked c l

/-- From `c₁` to `c₂` the row stays revoked, and what the guard accepts of it was shown to it
before `c₁`. -/
structure RevocationFinal (c₁ c₂ : CertConfig ι) (id : String) : Prop where
  marked : Marked c₂.shared.primary id
  notAccepted : ∀ j p certificate, c₂.process j = some p → Accepted p certificate →
    certificate.id = id → ∃ p₁, c₁.process j = some p₁ ∧ Shown p₁ certificate

variable {c c₁ c₂ : CertConfig ι}

theorem marked_of_revoked {i : ι} {p : CertProcess} {id : String}
    (h : (certificates settings).Reaches KeepsRevocations (.initial (.initial .empty)) c)
    (hp : c.process i = some p) (hrevoked : Revoked p id) : Marked c.shared.primary id := by
  have hretires : (certificates settings).Reaches (fun c l => RetiresAt c.shared l)
      (.initial (.initial .empty)) c := h.mono fun c l _ hl => hl.1
  have hkept : Kept c.shared (c.records certRecord fun _ => .initial) :=
    hretires.records_invariant (fun s _ l => RetiresAt s l) Kept
      (fun job => obeys_entry settings job) .initial
      fun s f l s' f' hP hl hm => hP.move settings hl hm
  obtain ⟨job, trace, program⟩ := p
  obtain ⟨output, hprogram, rfl⟩ := hrevoked
  simp only at hprogram
  subst hprogram
  have hsound := hkept.sound i _ (Config.records_eq hp)
  rcases h.settled (fun job => obeys_entry settings job) hp output rfl with hid | ⟨row, hrow, hst⟩
  · exact hsound.revoked _ hid
  · obtain ⟨-, -, -, hmarked⟩ := hsound.selected _ _ hrow
    exact hmarked hst

/-- Once a revocation has returned, what the guard is newly shown of the row is revoked. -/
theorem shown_revoked {i : ι} {p : CertProcess} {id : String}
    (h : (certificates settings).Reaches KeepsRevocations c₁ c₂) (hp : c₁.process i = some p)
    (hrevoked : Revoked p id) : ∀ j q certificate, c₂.process j = some q → Shown q certificate →
      certificate.id = id → certificate.status = .revoked ∨
        ∃ p₁, c₁.process j = some p₁ ∧ Shown p₁ certificate := by
  refine h.invariant (P := fun c => ∀ j q certificate, c.process j = some q →
    Shown q certificate → certificate.id = id → certificate.status = .revoked ∨
      ∃ p₁, c₁.process j = some p₁ ∧ Shown p₁ certificate) ?_ ?_
  · intro j q certificate hq hshown _
    exact .inr ⟨q, hq, hshown⟩
  · rintro c c' l hr hP ⟨-, hl⟩ hs j q certificate hq ⟨fingerprintSha256, hmem⟩ hid
    cases hs with
    | @start k job hk =>
      by_cases hjk : j = k
      · subst hjk
        simp only [Config.put_self, Option.some.injEq] at hq
        subst hq
        cases hmem
      · rw [Config.put_ne _ hjk] at hq
        exact hP j q certificate hq ⟨fingerprintSha256, hmem⟩ hid
    | @call k job t op resume a s hk _ =>
      by_cases hjk : j = k
      · subst hjk
        simp only [Config.put_self, Option.some.injEq] at hq
        subst hq
        rcases List.mem_append.mp hmem with hold | hnew
        · exact hP j _ certificate hk ⟨fingerprintSha256, hold⟩ hid
        · -- The row is the one that this step shows.
          cases List.mem_singleton.mp hnew
          obtain ⟨job₀, t₀, program⟩ := p
          obtain ⟨output, hprogram, houtput⟩ := hrevoked
          simp only at hprogram
          subst hprogram
          exact .inl (hl i _ (hr.settled_stays hp) ⟨output, rfl, houtput.trans hid.symm⟩)
      · rw [Config.put_ne _ hjk] at hq
        exact hP j q certificate hq ⟨fingerprintSha256, hmem⟩ hid
    | @crash k job t op resume hk =>
      by_cases hjk : j = k
      · subst hjk
        simp at hq
      · rw [Config.put_ne _ hjk] at hq
        exact hP j q certificate hq ⟨fingerprintSha256, hmem⟩ hid
    | background hb => cases hb

/-- The guard never accepts a certificate that it was shown as revoked. -/
theorem accepted_unrevoked
    {ok : CertConfig ι → Label ι CertOp CertAnswer CertJob → Prop} {j : ι} {q : CertProcess}
    {certificate : ParticipantCert} {s : Replicated ParticipantCerts}
    (h : (certificates settings).Reaches ok (.initial s) c) (hq : c.process j = some q)
    (haccepted : Accepted q certificate) : certificate.status ≠ .revoked := by
  obtain ⟨⟨fingerprintSha256, hmem⟩, activated, hprogram⟩ := haccepted
  obtain ⟨job, t, program⟩ := q
  simp only at hprogram
  subst hprogram
  have hlets := (obeys_admitted settings job).runs (h.process_runs hq) activated rfl
  simp only [Monitor.trace_after, List.nil_append] at hlets
  exact hlets activated rfl fingerprintSha256 certificate hmem

/-- A completed revocation is final. -/
theorem revocation_final {i : ι} {p : CertProcess} {id : String}
    (h₁ : (certificates settings).Reaches KeepsRevocations (.initial (.initial .empty)) c₁)
    (h₂ : (certificates settings).Reaches KeepsRevocations c₁ c₂) (hp : c₁.process i = some p)
    (hrevoked : Revoked p id) : RevocationFinal c₁ c₂ id where
  marked := by
    have hstays : c₂.process i = some p := by
      obtain ⟨job, t, program⟩ := p
      obtain ⟨output, hprogram, -⟩ := hrevoked
      simp only at hprogram
      subst hprogram
      exact h₂.settled_stays hp
    exact marked_of_revoked (h₁.trans h₂) hstays hrevoked
  notAccepted := by
    intro j q certificate hq haccepted hid
    rcases shown_revoked h₂ hp hrevoked j q certificate hq haccepted.1 hid with hst | hshown
    · exact absurd hst (accepted_unrevoked (h₁.trans h₂) hq haccepted)
    · exact hshown

end Runs

/-! A world in which no call fails and the replica does not lag. -/

def sampleCertSettings : CertSettings where
  mount := "m"
  role := "r"
  ttl := none
  mandatory := true
  parseCsr _ := .rsa 2048
  parse pem := .ok ⟨pem, "f", pem, pem, 0, 1⟩

/-- A name that depends on the number of rows. -/
def ParticipantCerts.name (s : ParticipantCerts) : String :=
  String.ofList ('a' :: List.replicate s.rows.length 'b')

/-- The entity under the identifier of its row. -/
def ParticipantCerts.identify (s : ParticipantCerts) (entity : ParticipantCert) : ParticipantCert :=
  { entity with id := if entity.id = "" then s.name else entity.id }

def ParticipantCerts.respond (s : Replicated ParticipantCerts) :
    (op : CertOp) → CertAnswer op × Replicated ParticipantCerts
  | .now => (0, s)
  | .signCertificate _ _ _ _ _ => (.ok ⟨s.primary.name, none, s.primary.name, none⟩, s)
  | .findUsableByFspId fspId => (.ok ((s.primary.rows.filter (usable fspId)).insertionSort
      fun row row' => row'.issuedAt ≤ row.issuedAt), s)
  | .findById id => (.ok (s.primary.rows.find? fun row => row.id = id), s)
  | .findByFingerprint fingerprintSha256 =>
    (.ok (s.primary.rows.find? fun row => row.fingerprintSha256 = fingerprintSha256), s)
  | .insert entity =>
    if s.primary.Admits (s.primary.identify entity) then
      (.done (s.primary.identify entity).id, s.write (s.primary.insert (s.primary.identify entity)))
    else (.rejected .other, s)
  | .update before entity => (.done (), s.write (s.primary.update before entity))

theorem ParticipantCerts.performs_respond (s : Replicated ParticipantCerts) (op : CertOp) :
    performs s op (respond s op).1 (respond s op).2 := by
  cases op with
  | findUsableByFspId fspId =>
    refine ⟨rfl, ?_⟩
    rintro _ ⟨⟩
    refine ⟨s.primary, s.shows_primary, List.perm_insertionSort _ _, ?_⟩
    exact List.pairwise_insertionSort _ _
  | findById id =>
    refine ⟨rfl, ?_⟩
    rintro _ ⟨⟩
    rfl
  | findByFingerprint fingerprintSha256 =>
    refine ⟨rfl, ?_⟩
    rintro _ ⟨⟩
    exact ⟨s.primary, s.shows_primary, rfl⟩
  | insert entity =>
    refine ⟨(s.primary.identify entity).id, ?_, ?_⟩
    · by_cases hid : entity.id = ""
      · exact .inl hid
      · exact .inr (if_neg hid)
    · have hsame : { entity with id := (s.primary.identify entity).id } =
          s.primary.identify entity := rfl
      rw [hsame]
      by_cases hadmits : s.primary.Admits (s.primary.identify entity)
      · simp [respond, hadmits]
      · simp [respond, hadmits, Written.isRejected]
  | _ => rfl

instance (s : Replicated ParticipantCerts) (e : Event CertOp CertAnswer) :
    Decidable (Retires s e) := by
  unfold Retires
  split <;> infer_instance

def looksUp : CertOp → Bool
  | .findByFingerprint _ => true
  | _ => false

/-- What the conditions ask of a call, when no certificate is looked up. -/
theorem keepsRevocations_of_retires {c : CertConfig (Fin 3)} {i : Fin 3}
    {e : Event CertOp CertAnswer} (h : Retires c.shared e ∧ looksUp e.op = false) :
    KeepsRevocations c (.call i e) := by
  refine ⟨h.1, ?_⟩
  obtain ⟨op, a⟩ := e
  cases op with
  | findByFingerprint fingerprintSha256 => cases h.2
  | _ => trivial

def sampleIssue : CertJob := .issue ⟨"f", "csr", none⟩

/-- An issue, a revocation and another issue. -/
theorem revocation_final_sample : ∃ c₁ c₂ : CertConfig (Fin 3),
    (∃ p, c₁.process 1 = some p ∧ Revoked p "a") ∧ RevocationFinal c₁ c₂ "a" := by
  have hsafe : ∀ (c : CertConfig (Fin 3)) i job s t e, Retires s e ∧ looksUp e.op = false →
      ∀ p, KeepsRevocations ((c.withShared s).put i (some ⟨job, t, p⟩)) (.call i e) :=
    fun _ _ _ _ _ _ he _ => keepsRevocations_of_retires he
  have hstart : (certificates sampleCertSettings).Reaches (ι := Fin 3) KeepsRevocations
      (.initial (.initial .empty)) _ := .refl
  have hissued := hstart.solo 0 sampleIssue rfl ParticipantCerts.performs_respond
    ⟨trivial, trivial⟩ (Program.SoloAll.mono (hsafe _ _ _) (by decide +kernel))
  have hrevoked := hissued.solo 1 (.revoke ⟨"a", none⟩) rfl ParticipantCerts.performs_respond
    ⟨trivial, trivial⟩ (Program.SoloAll.mono (hsafe _ _ _) (by decide +kernel))
  refine ⟨_, _, ⟨_, rfl, ⟨_, rfl, rfl⟩⟩, revocation_final (i := 1) hrevoked
    (System.Reaches.refl.solo 2 sampleIssue rfl ParticipantCerts.performs_respond
      ⟨trivial, trivial⟩ (Program.SoloAll.mono (hsafe _ _ _) ?_)) rfl ⟨_, rfl, rfl⟩⟩
  decide +kernel

/-- Without the conditions it is not: an issue that has read the certificate before its
revocation saves it as retiring afterwards. -/
theorem not_revocation_final : ¬ ∀ (c₁ c₂ : CertConfig (Fin 3)) p,
    (certificates sampleCertSettings).Reaches System.Any (.initial (.initial .empty)) c₁ →
    (certificates sampleCertSettings).Reaches System.Any c₁ c₂ → c₁.process 1 = some p →
    Revoked p "a" → RevocationFinal c₁ c₂ "a" := by
  intro h
  have hanswers := ParticipantCerts.performs_respond
  have hstart : (certificates sampleCertSettings).Reaches (ι := Fin 3) System.Any
      (.initial (.initial .empty)) _ := .refl
  have hissued := (hstart.tail trivial (.start (i := 0) sampleIssue rfl)).advance hanswers 0 20
  have hread := (hissued.tail trivial (.start (i := 2) sampleIssue rfl)).advance hanswers 2 3
  have hrevoked := (hread.tail trivial (.start (i := 1) (.revoke ⟨"a", none⟩) rfl)).advance
    hanswers 1 20
  have hfinal := (h _ _ _ hrevoked (System.Reaches.refl.advance hanswers 2 1) rfl
    ⟨_, rfl, rfl⟩).marked
  obtain ⟨row, hrow, hid⟩ := hfinal.exists_row
  have hstatus := (hfinal.revoked row hrow hid).1
  revert row
  decide +kernel

end Participant
