import Pivotal.Js.Map
import Pivotal.Store.Index
import Pivotal.Trust.Components

/-! The parties to the provisioning of signing keys, and what each call answers and does there. -/
namespace Trust
open Async (Replicated Written)
open Fspiop (JsError)
open Participant (ParticipantKey)

/-- `participant_key`, with its unique index; two texts are the same to the database if they fold
to one. -/
abbrev KeyTable (collate : String → String) :=
  Store.Indexed (fun k : ParticipantKey => k.id) fun k => collate k.fspId

abbrev ParticipantTable (collate : String → String) :=
  Store.Indexed (fun p : ParticipantEntity => p.id) fun p => collate p.name

/-- The central ledger: accounts and initial positions by participant, and endpoints. -/
structure Ledger where
  accounts : List (String × CentralLedgerAccount)
  positions : List (String × PostInitialPositionAndLimitsRequest)
  endpoints : Js.Map (String × String) String
  deriving DecidableEq

namespace Ledger

def accountsOf (l : Ledger) (name : String) : List CentralLedgerAccount :=
  (l.accounts.filter fun a => a.1 = name).map Prod.snd

/-- The participant has accounts in the currency. -/
def Holds (l : Ledger) (name currency : String) : Prop :=
  ∃ a ∈ l.accountsOf name, a.currency = currency

instance (l : Ledger) (name currency : String) : Decidable (l.Holds name currency) :=
  inferInstanceAs (Decidable (∃ a ∈ l.accountsOf name, _))

def HasPosition (l : Ledger) (name currency : String) : Prop :=
  ∃ p ∈ l.positions, p.1 = name ∧ p.2.currency = currency

instance (l : Ledger) (name currency : String) : Decidable (l.HasPosition name currency) :=
  inferInstanceAs (Decidable (∃ p ∈ l.positions, _))

def createParticipant (l : Ledger) (name currency : String) (position settlement : ℕ) : Ledger :=
  { l with accounts := l.accounts ++
      [(name, ⟨position, "POSITION", currency, false⟩),
        (name, ⟨settlement, "SETTLEMENT", currency, false⟩)] }

def updateAccount (l : Ledger) (name : String) (accountId : ℕ) (isActive : Bool) : Ledger :=
  { l with accounts := l.accounts.map fun a =>
      if a.1 = name ∧ a.2.id = accountId then (a.1, { a.2 with isActive := isActive }) else a }

def createPosition (l : Ledger) (name : String)
    (request : PostInitialPositionAndLimitsRequest) : Ledger :=
  { l with positions := l.positions ++ [(name, request)] }

def upsertEndpoint (l : Ledger) (name type value : String) : Ledger :=
  { l with endpoints := l.endpoints.set (name, type) value }

end Ledger

/-- The tables, what the Connection Manager and Vault hold, the writes that may still be made, the
keys that were ever generated, and the ledger. -/
structure Registry (collate : String → String) where
  keys : Replicated (KeyTable collate)
  participants : ParticipantTable collate
  mcm : Js.Map String String
  vault : Js.Map (String × String) String
  late : List Late
  keyPairs : List RsaKeyPair
  ledger : Ledger

/-- A call that may save a row, or that makes or stores a key. -/
def TrustOp.isProviding : TrustOp → Bool
  | .save _ => true
  | .generateKeyPair => true
  | .writeKvField _ _ _ => true
  | .land _ => true
  | _ => false

namespace Registry

variable {collate : String → String} (s : Registry collate)

abbrev rows : List ParticipantKey := s.keys.primary.rows

def withKeys (t : KeyTable collate) : Registry collate := { s with keys := s.keys.write t }

def storeJwsKey (dfspId publicKey : String) : Registry collate :=
  { s with mcm := s.mcm.set dfspId publicKey }

def writeKvField (path field value : String) : Registry collate :=
  { s with vault := s.vault.set (path, field) value }

def delay (x : Late) : Registry collate := { s with late := x :: s.late }

def withLedger (l : Ledger) : Registry collate := { s with ledger := l }

/-- The key of a DFSP is replaced, or taken away. -/
def replaceJwsKey (dfspId : String) (publicKey : Option String) : Registry collate :=
  match publicKey with
  | some publicKey => s.storeJwsKey dfspId publicKey
  | none => { s with mcm := s.mcm.delete dfspId }

/-- A late write is made, if it is still to be made. -/
def land (x : Late) : Registry collate :=
  if x ∈ s.late then
    match x with
    | .jwsKey dfspId publicKey => { s with late := s.late.erase x }.storeJwsKey dfspId publicKey
    | .kvField path field value => { s with late := s.late.erase x }.writeKvField path field value
  else s

/-- `save`: the row becomes the entity, unless the identifier of the FSP is another row's. -/
def saves (entity : ParticipantKey) (a : Written JsError ParticipantKey) (s' : Registry collate) :
    Prop :=
  ∃ row, s.keys.primary.SavedAs ParticipantKey.withId entity row ∧
    ((∃ h : s.keys.primary.Admits row, s' = a.applies s (s.withKeys (s.keys.primary.put row h)) ∧
      ∀ saved, a = .done saved → saved = row) ∨
    ¬ s.keys.primary.Admits row ∧ (∃ e, a = .rejected e) ∧ s' = s)

/-- The same of `participant`. -/
def savesParticipant (entity : ParticipantEntity) (a : Written JsError ParticipantEntity)
    (s' : Registry collate) : Prop :=
  ∃ row, s.participants.SavedAs ParticipantEntity.withId entity row ∧
    ((∃ h : s.participants.Admits row,
      s' = a.applies s { s with participants := s.participants.put row h } ∧
        ∀ saved, a = .done saved → saved = row) ∨
    ¬ s.participants.Admits row ∧ (∃ e, a = .rejected e) ∧ s' = s)

/-- A write over the network: one that was not made by the time its caller gave it up may be made
later. -/
def writes {α : Type} (x : Late) (a : Written JsError α) (next s' : Registry collate) : Prop :=
  s' = a.applies s next ∨ a.isRejected = true ∧ s' = s.delay x

/-- What a read of one of the databases may show. -/
def Shows (target : DbTarget) (t : KeyTable collate) : Prop :=
  match target with
  | .write => t = s.keys.primary
  | .read => s.keys.Shows t

/-- What one call answers and does. -/
def performs : (op : TrustOp) → TrustAnswer op → Registry collate → Prop
  | .findByFspId fspId target, a, s' => s' = s ∧ ∀ found, a = .ok found →
    ∃ t, s.Shows target t ∧ found = t.findBy (collate fspId)
  | .findAll target, a, s' => s' = s ∧ ∀ found, a = .ok found →
    ∃ t, s.Shows target t ∧ found.Perm t.rows
  | .save entity, a, s' => s.saves entity a s'
  | .now, _, s' => s' = s
  | .ensureRegistered _, _, s' => s' = s
  | .getJwsKey dfspId, a, s' => s' = s ∧ ∀ cert, a = .ok cert → cert.publicKey = s.mcm.get dfspId
  | .publishJwsKey dfspId publicKey, a, s' =>
    s.writes (.jwsKey dfspId publicKey) a (s.storeJwsKey dfspId publicKey) s'
  | .listAllJwsKeys, _, s' => s' = s
  | .generateKeyPair, a, s' => s' = { s with keyPairs := a :: s.keyPairs } ∧
    Js.blank (some a.publicKey) = false ∧ ∀ p ∈ s.keyPairs, p.publicKey ≠ a.publicKey
  | .readKvField path field, a, s' => s' = s ∧ ∀ found, a = .ok found →
    found = s.vault.get (path, field)
  | .writeKvField path field value, a, s' =>
    s.writes (.kvField path field value) a (s.writeKvField path field value) s'
  | .createParticipant name currency, a, s' =>
    if s.ledger.Holds name currency then (∃ e, a = .rejected e) ∧ s' = s
    else ∃ position settlement,
      (∀ x ∈ s.ledger.accounts, x.2.id ≠ position ∧ x.2.id ≠ settlement) ∧ position ≠ settlement ∧
      s' = a.applies s (s.withLedger (s.ledger.createParticipant name currency position settlement)) ∧
      ∀ p, a = .done p → p.accounts = none ∨ p.accounts = some (s'.ledger.accountsOf name)
  | .getParticipant name, a, s' => s' = s ∧ ∀ p, a = .ok p →
    p.accounts = some (s.ledger.accountsOf name)
  | .updateParticipantAccount name accountId isActive, a, s' =>
    s' = a.applies s (s.withLedger (s.ledger.updateAccount name accountId isActive))
  | .createParticipantInitialPositionAndLimits name request, a, s' =>
    if s.ledger.HasPosition name request.currency then (∃ e, a = .rejected e) ∧ s' = s
    else s' = a.applies s (s.withLedger (s.ledger.createPosition name request))
  | .upsertParticipantEndpoints name type value, a, s' =>
    s' = a.applies s (s.withLedger (s.ledger.upsertEndpoint name type value))
  | .findByName name, a, s' => s' = s ∧ ∀ found, a = .ok found →
    found = s.participants.findBy (collate name)
  | .saveParticipant entity, a, s' => s.savesParticipant entity a s'
  | .announce _, _, s' => s' = s
  | .land x, _, s' => s' = s.land x
  | .replaceJwsKey dfspId publicKey, _, s' => s' = s.replaceJwsKey dfspId publicKey

/-! Every call is made at once, and succeeds where it can. -/

def refused : JsError := .plain ⟨"Error", "refused", none, none⟩

def nextAccountId : ℕ := (s.ledger.accounts.map fun a => a.2.id).max?.getD 0 + 1

/-- A pair of keys, longer than the others. -/
def nextKeyPair : RsaKeyPair :=
  let size := (s.keyPairs.map fun p => p.publicKey.length).max?.getD 0 + 1
  ⟨String.ofList (List.replicate size 'k'), String.ofList (List.replicate size 'p')⟩

def respond : (op : TrustOp) → TrustAnswer op × Registry collate
  | .findByFspId fspId _ => (.ok (s.keys.primary.findBy (collate fspId)), s)
  | .findAll _ => (.ok s.rows, s)
  | .save entity =>
    let row := s.keys.primary.rowFor ParticipantKey.withId entity
    if h : s.keys.primary.Admits row then (.done row, s.withKeys (s.keys.primary.put row h))
    else (.rejected refused, s)
  | .now => (1000, s)
  | .ensureRegistered _ => (.ok (), s)
  | .getJwsKey dfspId => (.ok ⟨some dfspId, s.mcm.get dfspId⟩, s)
  | .publishJwsKey dfspId publicKey =>
    (.done ⟨some dfspId, some publicKey⟩, s.storeJwsKey dfspId publicKey)
  | .listAllJwsKeys => (.ok (s.mcm.entries.map fun e => ⟨some e.1, some e.2⟩), s)
  | .generateKeyPair => (s.nextKeyPair, { s with keyPairs := s.nextKeyPair :: s.keyPairs })
  | .readKvField path field => (.ok (s.vault.get (path, field)), s)
  | .writeKvField path field value => (.done (), s.writeKvField path field value)
  | .createParticipant name currency =>
    if s.ledger.Holds name currency then (.rejected refused, s)
    else
      let l := s.ledger.createParticipant name currency s.nextAccountId (s.nextAccountId + 1)
      (.done ⟨name, some (l.accountsOf name)⟩, s.withLedger l)
  | .getParticipant name => (.ok ⟨name, some (s.ledger.accountsOf name)⟩, s)
  | .updateParticipantAccount name accountId isActive =>
    (.done (), s.withLedger (s.ledger.updateAccount name accountId isActive))
  | .createParticipantInitialPositionAndLimits name request =>
    if s.ledger.HasPosition name request.currency then (.rejected refused, s)
    else (.done (), s.withLedger (s.ledger.createPosition name request))
  | .upsertParticipantEndpoints name type value =>
    (.done (), s.withLedger (s.ledger.upsertEndpoint name type value))
  | .findByName name => (.ok (s.participants.findBy (collate name)), s)
  | .saveParticipant entity =>
    let row := s.participants.rowFor ParticipantEntity.withId entity
    if h : s.participants.Admits row then
      (.done row, { s with participants := s.participants.put row h })
    else (.rejected refused, s)
  | .announce _ => ((), s)
  | .land x => ((), s.land x)
  | .replaceJwsKey dfspId publicKey => ((), s.replaceJwsKey dfspId publicKey)

theorem lt_nextAccountId {x : String × CentralLedgerAccount} (hx : x ∈ s.ledger.accounts) :
    x.2.id < s.nextAccountId :=
  Nat.lt_succ_of_le (List.le_max?_getD_of_mem (List.mem_map_of_mem (f := fun a => a.2.id) hx))

theorem nextKeyPair_spec : Js.blank (some s.nextKeyPair.publicKey) = false ∧
    ∀ p ∈ s.keyPairs, p.publicKey ≠ s.nextKeyPair.publicKey := by
  constructor
  · rw [Bool.eq_false_iff, ne_eq, Js.trim_blank_iff]
    apply Js.trim_ne_empty (c := 'k')
    · simp [nextKeyPair]
    · decide
  · intro p hp hsame
    have hlength : p.publicKey.length ≤ (s.keyPairs.map fun p => p.publicKey.length).max?.getD 0 :=
      List.le_max?_getD_of_mem (List.mem_map_of_mem (f := fun p => p.publicKey.length) hp)
    rw [hsame] at hlength
    simp [nextKeyPair] at hlength

theorem performs_respond (op : TrustOp) : s.performs op (s.respond op).1 (s.respond op).2 := by
  cases op with
  | findByFspId fspId target | findAll target =>
    refine ⟨rfl, ?_⟩
    rintro found ⟨⟩
    refine ⟨s.keys.primary, ?_, ?_⟩
    · cases target with
      | write => rfl
      | read => exact s.keys.shows_primary
    · rfl
  | save entity =>
    refine ⟨_, s.keys.primary.savedAs_rowFor ParticipantKey.withId entity, ?_⟩
    by_cases h : s.keys.primary.Admits (s.keys.primary.rowFor ParticipantKey.withId entity)
    · left
      simp only [respond, h, dite_true]
      exact ⟨trivial, rfl, fun saved hsaved => by cases hsaved; rfl⟩
    · right
      simp only [respond, h, dite_false]
      exact ⟨not_false, ⟨refused, rfl⟩, trivial⟩
  | saveParticipant entity =>
    refine ⟨_, s.participants.savedAs_rowFor ParticipantEntity.withId entity, ?_⟩
    by_cases h : s.participants.Admits (s.participants.rowFor ParticipantEntity.withId entity)
    · left
      simp only [respond, h, dite_true]
      exact ⟨trivial, rfl, fun saved hsaved => by cases hsaved; rfl⟩
    · right
      simp only [respond, h, dite_false]
      exact ⟨not_false, ⟨refused, rfl⟩, trivial⟩
  | getJwsKey dfspId | readKvField path field | getParticipant name | findByName name =>
    refine ⟨rfl, ?_⟩
    rintro found ⟨⟩
    rfl
  | publishJwsKey _ _ | writeKvField _ _ _ => exact .inl rfl
  | generateKeyPair => exact ⟨rfl, s.nextKeyPair_spec⟩
  | createParticipant name currency =>
    simp only [respond, performs]
    split
    · exact ⟨⟨_, rfl⟩, rfl⟩
    · refine ⟨s.nextAccountId, s.nextAccountId + 1, ?_, Nat.succ_ne_self _ |>.symm, rfl, ?_⟩
      · intro x hx
        have hid := s.lt_nextAccountId hx
        omega
      · rintro p ⟨⟩
        exact .inr rfl
  | createParticipantInitialPositionAndLimits name request =>
    simp only [respond, performs]
    split
    · exact ⟨⟨_, rfl⟩, rfl⟩
    · rfl
  | now | ensureRegistered _ | listAllJwsKeys | updateParticipantAccount _ _ _
    | upsertParticipantEndpoints _ _ _ | announce _ | land _ | replaceJwsKey _ _ => rfl

/-! What a call leaves alone. -/

section Frame

variable {s} {s' : Registry collate}

/-- The rows, the secrets and the pairs are as they were. -/
structure Untouched (s s' : Registry collate) : Prop where
  keys : s'.keys = s.keys
  vault : s'.vault = s.vault
  keyPairs : s'.keyPairs = s.keyPairs

theorem Untouched.refl (s : Registry collate) : s.Untouched s := ⟨rfl, rfl, rfl⟩

theorem Untouched.applies {ε α : Type} (a : Written ε α) (h : s.Untouched s') :
    s.Untouched (a.applies s s') := by
  cases a with
  | done _ | lost _ => exact h
  | rejected _ => exact .refl s

theorem untouched_of_performs {op : TrustOp} {a : TrustAnswer op} (hop : op.isProviding = false)
    (hp : s.performs op a s') : s.Untouched s' := by
  cases op with
  | save _ | generateKeyPair | writeKvField _ _ _ | land _ => cases hop
  | findByFspId _ _ | findAll _ | getJwsKey _ | readKvField _ _ | getParticipant _ | findByName _ =>
    exact hp.1 ▸ .refl s
  | now | ensureRegistered _ | listAllJwsKeys | announce _ =>
    rw [show s' = s from hp]
    exact .refl s
  | publishJwsKey _ _ =>
    rcases hp with rfl | ⟨-, rfl⟩
    · exact .applies a ⟨rfl, rfl, rfl⟩
    · exact ⟨rfl, rfl, rfl⟩
  | saveParticipant _ =>
    obtain ⟨row, -, ⟨h, rfl, -⟩ | ⟨-, -, rfl⟩⟩ := hp
    · exact .applies a ⟨rfl, rfl, rfl⟩
    · exact .refl _
  | createParticipant _ _ =>
    simp only [performs] at hp
    split at hp
    · exact hp.2 ▸ .refl s
    · obtain ⟨position, settlement, -, -, rfl, -⟩ := hp
      exact .applies a ⟨rfl, rfl, rfl⟩
  | createParticipantInitialPositionAndLimits _ _ =>
    simp only [performs] at hp
    split at hp
    · exact hp.2 ▸ .refl s
    · exact hp ▸ .applies a ⟨rfl, rfl, rfl⟩
  | updateParticipantAccount _ _ _ | upsertParticipantEndpoints _ _ _ =>
    rw [show s' = _ from hp]
    exact .applies a ⟨rfl, rfl, rfl⟩
  | replaceJwsKey _ publicKey =>
    rw [show s' = _ from hp]
    cases publicKey with
    | none | some _ => exact ⟨rfl, rfl, rfl⟩

theorem keys_of_performs {op : TrustOp} {a : TrustAnswer op} (hop : ∀ entity, op ≠ .save entity)
    (hp : s.performs op a s') : s'.keys = s.keys := by
  cases op with
  | save entity => exact absurd rfl (hop entity)
  | generateKeyPair =>
    rw [show s' = _ from hp.1]
  | writeKvField _ _ _ =>
    rcases hp with rfl | ⟨-, rfl⟩
    · cases a with
      | done _ | lost _ | rejected _ => rfl
    · rfl
  | land x =>
    rw [show s' = _ from hp]
    unfold land
    split
    · cases x with
      | jwsKey _ _ | kvField _ _ _ => rfl
    · rfl
  | _ => exact (untouched_of_performs rfl hp).keys

theorem rows_of_saves {entity : ParticipantKey} {a : Written JsError ParticipantKey}
    (hp : s.saves entity a s') : a.isRejected = true ∧ s' = s ∨ a.isRejected = false ∧
      ∃ row, s.keys.primary.SavedAs ParticipantKey.withId entity row ∧
        ∀ row', row' ∈ s'.rows ↔ row' = row ∨ row' ∈ s.rows ∧ row'.id ≠ row.id := by
  obtain ⟨row, hrow, ⟨h, rfl, -⟩ | ⟨-, ⟨e, rfl⟩, rfl⟩⟩ := hp
  · cases a with
    | done _ | lost _ => exact .inr ⟨rfl, row, hrow, fun _ => Store.Indexed.mem_put (h := h)⟩
    | rejected _ => exact .inl ⟨rfl, rfl⟩
  · exact .inl ⟨rfl, rfl⟩

theorem row_of_saves {entity row : ParticipantKey} {a : Written JsError ParticipantKey}
    (hp : s.saves entity a s') (hrow : row ∈ s.rows) :
    row ∈ s'.rows ∨ a.isRejected = false ∧ entity.id ≠ 0 ∧ row.id = entity.id ∧
      entity ∈ s'.rows := by
  rcases rows_of_saves hp with ⟨-, rfl⟩ | ⟨ha, saved, hsaved, hrows⟩
  · exact .inl hrow
  by_cases hid : row.id = saved.id
  · right
    unfold Store.Indexed.SavedAs at hsaved
    split at hsaved
    · obtain ⟨id, -, hfresh, rfl⟩ := hsaved
      exact absurd hid (hfresh row hrow)
    · rename_i hzero
      subst hsaved
      exact ⟨ha, hzero, hid, (hrows saved).mpr (.inl rfl)⟩
  · exact .inl ((hrows row).mpr (.inr ⟨hrow, hid⟩))

end Frame
end Registry

end Trust
