import Pivotal.Vault.VaultClient

/-! What several writes leave of a secret, each of which writes what it has read. -/
namespace Vault
open Async (Config Event Label Monitor Process Program System Written exists_update forall_update
  update_eq_some)
open Fspiop (JsError)
open VaultClient (authenticated isTokenRejection)

/-- What a write has read, and whether Vault has confirmed it. -/
structure Writing where
  command : WriteKvField
  existing : Option Fields
  applied : Bool
  deriving DecidableEq

/-- The fields that a reader takes from an answer. -/
def Response.fields (response : Response) : Fields :=
  if response.status = 404 then Js.Map.empty else response.data.getD Js.Map.empty

namespace Writing

def next (r : Writing) : (op : VaultOp) → VaultAnswer op → Writing
  | .get _, .ok response =>
    if isTokenRejection response.status then r else { r with existing := some response.fields }
  | .post _ _, .done response => { r with applied := r.applied || response.status < 400 }
  | _, _ => r

/-- A write goes to its own path, with what has been read there and its own field. -/
def allows (r : Writing) : VaultOp → Prop
  | .get path => path = r.command.path
  | .post path data => path = r.command.path ∧
    ∃ existing, r.existing = some existing ∧ data = existing.set r.command.field r.command.value
  | _ => True

end Writing

def writings : Monitor VaultOp VaultAnswer Writing where
  next := Writing.next
  allows := Writing.allows

def WriteKvField.writing (command : WriteKvField) : Writing := ⟨command, none, false⟩

theorem not_success_of_isTokenRejection {status : ℕ} (h : isTokenRejection status = true) :
    ¬ status < 400 := by
  simp only [isTokenRejection, Bool.or_eq_true, decide_eq_true_eq] at h
  omega

section Obeys

variable (settings : VaultSettings) {R : Writing → Prop} {T : Writing → Response → Prop}

/-- A request that may be sent twice, from what one sending does. -/
theorem authenticated_obeys (describe : String) {send : VaultProgram Response}
    (hsend : ∀ r, R r → send.Obeys writings r fun r' res => ∀ response, res = .ok response →
      if isTokenRejection response.status then R r' else T r' response)
    {r : Writing} (hr : R r) :
    (authenticated settings describe send).Obeys writings r fun r' res =>
      ∀ response, res = .ok response → T r' response := by
  apply Program.Obeys.afterPerform trivial
  intro token
  apply Program.Obeys.afterLift (by simp)
  intro _ _
  apply (hsend r hr).andThen
  · intro first r₁ hfirst
    cases hrejected : isTokenRejection first.status with
    | false =>
      rw [hrejected, if_neg Bool.false_ne_true] at hfirst
      simpa using hfirst
    | true =>
      rw [hrejected, if_pos rfl] at hfirst
      apply Program.Obeys.afterPerform trivial
      intro _
      apply Program.Obeys.afterPerform trivial
      intro token'
      apply Program.Obeys.afterLift (by simp)
      intro _ _
      apply (hsend r₁ hfirst).andThen
      · intro second r₂ hsecond
        cases hrejected' : isTokenRejection second.status with
        | false =>
          rw [hrejected', if_neg Bool.false_ne_true] at hsecond
          simpa using hsecond
        | true => simp
      · simp
  · simp

theorem readKv_obeys {r : Writing} {path : String} (hr : path = r.command.path) :
    (VaultClient.readKv settings path).Obeys writings r fun r' res => ∀ existing,
      res = .ok existing → r' = { r with existing := some existing } := by
  have hsend : ∀ r', r' = r → (VaultClient.sendGet path).Obeys writings r' fun r'' res =>
      ∀ response, res = .ok response → if isTokenRejection response.status then r'' = r else
        r'' = { r with existing := some response.fields } := by
    rintro r' rfl
    apply Program.Obeys.afterPerform hr
    rintro (e | response)
    · simp
    · simp only [Program.obeys_lift, Except.ok.injEq, forall_eq']
      cases hrejected : isTokenRejection response.status <;>
        simp [writings, Writing.next, hrejected]
  refine (authenticated_obeys settings _ hsend rfl).andThen ?_ (by simp)
  rintro response r' rfl
  by_cases hmissing : response.status = 404
  · simp [hmissing, Response.fields]
  · simp [hmissing, Response.fields]

theorem writeKvField_obeys (command : WriteKvField) :
    (VaultClient.writeKvField settings command).Obeys writings command.writing fun r res =>
      res = .ok () → r.applied = true := by
  have hassert : (VaultClient.assertKvVersionTwo settings).Obeys writings command.writing
      fun r _ => r = command.writing := by
    apply Program.Obeys.afterPerform trivial
    rintro (_ | _)
    · apply Program.Obeys.afterPerform trivial
      intro version
      cases hversion : Option.any (· ≠ "2") (version : Option String) with
      | true =>
        simp only [if_true]
        rfl
      | false =>
        simp only [Bool.false_eq_true, if_false]
        exact ⟨trivial, fun _ => rfl⟩
    · rfl
  apply hassert.seq
  · rintro _ r rfl
    apply (readKv_obeys settings rfl).andThen
    · rintro existing r rfl
      have hsend : ∀ r, r = { command.writing with existing := some existing } →
          (VaultClient.sendPost command.path
            (existing.set command.field command.value)).Obeys writings r fun r' res =>
          ∀ response, res = .ok response → if isTokenRejection response.status then
            r' = { command.writing with existing := some existing } else
            (response.status < 400 → r'.applied = true) := by
        rintro r rfl
        apply Program.Obeys.afterPerform (M := writings)
        · exact ⟨rfl, existing, rfl, rfl⟩
        rintro (response | e | e)
        · simp only [Written.toExcept_done, Program.obeys_lift, Except.ok.injEq, forall_eq']
          cases hrejected : isTokenRejection response.status with
          | false =>
            intro hsuccess
            simp [writings, Writing.next, hsuccess]
          | true =>
            have hfailed := not_success_of_isTokenRejection hrejected
            simp [writings, Writing.next, WriteKvField.writing, hfailed]
        · simp
        · simp
      refine (authenticated_obeys settings _ hsend rfl).andThen ?_ (by simp)
      intro response r hr
      by_cases hfailed : response.status ≥ 400
      · simp [hfailed]
      · simpa [hfailed] using hr (by omega)
    · simp
  · simp

end Obeys

variable {ι : Type}

/-- Some call writes the value to the field. -/
def Requested (f : ι → Option Writing) (path field value : String) : Prop :=
  ∃ j r, f j = some r ∧ r.command = ⟨path, field, value⟩

/-- Every other field of the secret, where a confirmed write comes to it, is as the call has read
it, or the call has read it as some call writes it. -/
def Covers (s : Secrets) (f : ι → Option Writing) (command : WriteKvField) (existing : Fields) :
    Prop :=
  ∀ field, field ≠ command.field → existing.get field = s.field command.path field ∨
    ∃ value, existing.get field = some value ∧ Requested f command.path field value

/-- The value of a field, where it had `before` at first. -/
def Stands (f : ι → Option Writing) (path field before : String) : Option String → Prop
  | none => False
  | some value => value = before ∨ Requested f path field value

structure FieldsKept (s₀ s : Secrets) (f : ι → Option Writing) : Prop where
  before : ∀ path field value, s₀.field path field = some value →
    Stands f path field value (s.field path field)
  read : ∀ i r existing, f i = some r → r.existing = some existing →
    ∀ field value, s₀.field r.command.path field = some value →
      Stands f r.command.path field value (existing.get field)
  written : ∀ i r, f i = some r → r.applied = true →
    ∃ value, s.field r.command.path r.command.field = some value ∧
      Requested f r.command.path r.command.field value

section Moves

variable [DecidableEq ι] {s₀ s : Secrets} {f : ι → Option Writing} {i : ι}

theorem Requested.update {path field value : String} (h : Requested f path field value)
    {r' : Writing} (hi : ∀ r, f i = some r → r'.command = r.command) :
    Requested (Function.update f i (some r')) path field value := by
  obtain ⟨j, r, hj, hr⟩ := h
  by_cases hji : j = i
  · subst hji
    exact ⟨j, r', Function.update_self .., (hi r hj).trans hr⟩
  · exact ⟨j, r, by rwa [Function.update_of_ne hji], hr⟩

theorem Stands.update {path field before : String} {value : Option String}
    (h : Stands f path field before value) {r' : Writing}
    (hi : ∀ r, f i = some r → r'.command = r.command) :
    Stands (Function.update f i (some r')) path field before value := by
  cases value with
  | none => exact h
  | some value => exact h.imp_right fun h => h.update hi

theorem FieldsKept.goesOn (h : FieldsKept s₀ s f) {r' : Writing}
    (hi : ∀ r, f i = some r → r'.command = r.command)
    (hread : ∀ existing, r'.existing = some existing →
      ∀ field value, s₀.field r'.command.path field = some value →
        Stands f r'.command.path field value (existing.get field))
    (happlied : r'.applied = true → ∃ r, f i = some r ∧ r.applied = true) :
    FieldsKept s₀ s (Function.update f i (some r')) where
  before := fun path field value h₀ => (h.before path field value h₀).update hi
  read := by
    intro j r existing hj hexisting field value h₀
    rcases update_eq_some.mp hj with ⟨-, heq⟩ | ⟨-, hj⟩
    · cases heq
      exact (hread existing hexisting field value h₀).update hi
    · exact (h.read j r existing hj hexisting field value h₀).update hi
  written := by
    intro j r hj hr
    rcases update_eq_some.mp hj with ⟨-, heq⟩ | ⟨-, hj⟩
    · cases heq
      obtain ⟨r₀, hr₀, happlied₀⟩ := happlied hr
      obtain ⟨value, hvalue, hrequested⟩ := h.written i r₀ hr₀ happlied₀
      rw [← hi r₀ hr₀] at hvalue hrequested
      exact ⟨value, hvalue, hrequested.update hi⟩
    · obtain ⟨value, hvalue, hrequested⟩ := h.written j r hj hr
      exact ⟨value, hvalue, hrequested.update hi⟩

theorem Secrets.field_write (s : Secrets) (path path' field : String) (data : Fields) :
    (s.write path data).field path' field =
      if path' = path then data.get field else s.field path' field := by
  by_cases h : path' = path
  · subst h
    simp [Secrets.field, Secrets.write]
  · simp [Secrets.field, Secrets.write, h]

theorem Secrets.field_set (s : Secrets) (path field value : String) (existing : Fields)
    (path' field' : String) : (s.write path (existing.set field value)).field path' field' =
      if path' = path then if field' = field then some value else existing.get field'
      else s.field path' field' := by
  rw [Secrets.field_write, Js.Map.get_set]

/-- A write takes effect where it covers what has been written. -/
theorem FieldsKept.writes (h : FieldsKept s₀ s f) {r r' : Writing} (hi : f i = some r)
    {existing : Fields} (hexisting : r.existing = some existing)
    (hcovers : Covers s f r.command existing) (hr' : r'.command = r.command)
    (hread : r'.existing = r.existing) :
    FieldsKept s₀ (s.write r.command.path (existing.set r.command.field r.command.value))
      (Function.update f i (some r')) := by
  have hsame : ∀ r₁, f i = some r₁ → r'.command = r₁.command := by
    intro r₁ hr₁
    rw [hi, Option.some.injEq] at hr₁
    rw [hr', hr₁]
  have hown : Requested (Function.update f i (some r')) r.command.path r.command.field
      r.command.value := ⟨i, r', Function.update_self .., hr'⟩
  refine ⟨?_, ?_, ?_⟩
  · intro path field value h₀
    rw [Secrets.field_set]
    split
    · rename_i hpath
      split
      · rename_i hfield
        rw [hpath, hfield]
        exact .inr hown
      · rw [hpath] at h₀ ⊢
        exact (h.read i r existing hi hexisting field value h₀).update hsame
    · exact (h.before path field value h₀).update hsame
  · intro j r₁ existing₁ hj hexisting₁ field value h₀
    rcases update_eq_some.mp hj with ⟨-, heq⟩ | ⟨-, hj⟩
    · cases heq
      rw [hr'] at h₀ ⊢
      exact (h.read i r existing₁ hi (hread ▸ hexisting₁) field value h₀).update hsame
    · exact (h.read j r₁ existing₁ hj hexisting₁ field value h₀).update hsame
  · intro j r₁ hj happlied
    rw [Secrets.field_set]
    rcases update_eq_some.mp hj with ⟨-, heq⟩ | ⟨-, hj⟩
    · cases heq
      rw [hr', if_pos rfl, if_pos rfl]
      exact ⟨_, rfl, hown⟩
    · obtain ⟨value, hvalue, hrequested⟩ := h.written j r₁ hj happlied
      split
      · rename_i hpath
        split
        · rename_i hfield
          rw [hpath, hfield]
          exact ⟨_, rfl, hown⟩
        · rename_i hfield
          rw [hpath] at hvalue hrequested ⊢
          rcases hcovers _ hfield with hunchanged | ⟨value', hvalue', hrequested'⟩
          · exact ⟨value, hunchanged.trans hvalue, hrequested.update hsame⟩
          · exact ⟨value', hvalue', hrequested'.update hsame⟩
      · exact ⟨value, hvalue, hrequested.update hsame⟩

end Moves

/-- A write takes effect only where it covers what has been written, and no call is lost. -/
def WritesCovered (s : Secrets) (f : ι → Option Writing) :
    Label ι VaultOp VaultAnswer WriteKvField → Prop
  | .call i ⟨.post _ _, .done response⟩ => response.status < 400 → ∀ r existing, f i = some r →
    r.existing = some existing → Covers s f r.command existing
  | .call i ⟨.post _ _, .lost _⟩ => ∀ r existing, f i = some r →
    r.existing = some existing → Covers s f r.command existing
  | .crash _ => False
  | _ => True

section Run

variable [DecidableEq ι] {settings : VaultSettings} {s₀ s s' : Secrets} {f f' : ι → Option Writing}
  {i : ι}

/-- What a reader takes from an answer is what the secret holds. -/
theorem get_fields {path : String} {response : Response}
    (h : Secrets.Shows (s path) response) (hread : isTokenRejection response.status = false)
    (field : String) : response.fields.get field = s.field path field := by
  rcases h with ⟨hsuccess, hsome, hdata⟩ | ⟨hmissing, hnone⟩ | hrejected
  · obtain ⟨fields, hfields⟩ := Option.isSome_iff_exists.mp hsome
    have hfound : response.status ≠ 404 := by omega
    simp [Response.fields, hfound, hdata, hfields, Secrets.field]
  · simp [Response.fields, hmissing, hnone, Secrets.field]
  · rw [hread] at hrejected
    cases hrejected

theorem FieldsKept.call (h : FieldsKept s₀ s f) {r : Writing} {op : VaultOp} {a : VaultAnswer op}
    (hi : f i = some r) (hr : r.allows op) (hp : s.performs op a s')
    (hl : WritesCovered s f (.call i ⟨op, a⟩)) :
    FieldsKept s₀ s' (Function.update f i (some (r.next op a))) := by
  have hstays : FieldsKept s₀ s (Function.update f i (some r)) := by
    rw [← hi, Function.update_eq_self]
    exact h
  cases op with
  | get path =>
    obtain rfl : path = r.command.path := hr
    cases a with
    | error e =>
      obtain rfl : s' = s := hp
      exact hstays
    | ok response =>
      obtain ⟨hshows, rfl⟩ := hp
      cases hrejected : isTokenRejection response.status with
      | true =>
        have hnext : r.next (.get r.command.path) (.ok response) = r := by
          simp [Writing.next, hrejected]
        rwa [hnext]
      | false =>
        have hnext : r.next (.get r.command.path) (.ok response) =
            { r with existing := some response.fields } := by
          simp [Writing.next, hrejected]
        rw [hnext]
        refine h.goesOn (by simp [hi]) ?_ fun happlied => ⟨r, hi, happlied⟩
        rintro _ ⟨⟩ field value h₀
        rw [get_fields hshows hrejected]
        exact h.before _ field value h₀
  | post path data =>
    obtain ⟨rfl, existing, hexisting, rfl⟩ := hr
    cases a with
    | done response =>
      by_cases hsuccess : response.status < 400
      · have hs' : s' = s.write r.command.path _ := hp.trans (if_pos hsuccess)
        rw [hs']
        exact h.writes hi hexisting (hl hsuccess r existing hi hexisting) rfl rfl
      · have hs' : s' = s := hp.trans (if_neg hsuccess)
        have hnext : ∀ data, r.next (.post r.command.path data) (.done response) = r := by
          simp [Writing.next, hsuccess]
        rwa [hs', hnext]
    | lost e =>
      have hs' : s' = s.write r.command.path _ := hp
      rw [hs']
      exact h.writes hi hexisting (hl r existing hi hexisting) rfl rfl
    | rejected e =>
      obtain rfl : s' = s := hp
      exact hstays
  | _ =>
    obtain rfl : s' = s := hp
    exact hstays

/-- The call is a job of the run. -/
def Vaults.Requests (c : Vaults ι) (command : WriteKvField) : Prop :=
  ∃ j p, c.process j = some p ∧ p.job = command

/-- Whether what the writes of a run have confirmed is in the secrets, beside what was there. -/
def Vaults.KeepsFields (s₀ : Secrets) (c : Vaults ι) : Prop :=
  (∀ i p, c.process i = some p → p.program.result = some (.ok ()) →
    ∃ value, c.shared.field p.job.path p.job.field = some value ∧
      c.Requests { p.job with value := value }) ∧
  ∀ path field before, s₀.field path field = some before →
    ∃ value, c.shared.field path field = some value ∧
      (value = before ∨ c.Requests ⟨path, field, value⟩)

theorem fieldsKept_reached {c : Vaults ι} (h : (vault settings).Reaches
      (fun c l => WritesCovered c.shared (c.records writings WriteKvField.writing) l)
      (.initial s₀) c) :
    FieldsKept s₀ c.shared (c.records writings WriteKvField.writing) := by
  refine System.Reaches.records_invariant WritesCovered (FieldsKept s₀) h
    (writeKvField_obeys settings) ?_ ?_
  · exact ⟨fun _ _ _ h₀ => by rw [h₀]; exact .inl rfl, nofun, nofun⟩
  · intro s f l s' f' hinv hl hmove
    cases hmove with
    | start job hi =>
      exact hinv.goesOn (by simp [hi]) (by simp [WriteKvField.writing])
        (by simp [WriteKvField.writing])
    | call hi hr hp => exact hinv.call hi hr hp hl
    | crash hi hr => exact hl.elim
    | background hb => exact hb.elim

theorem command_next (r : Writing) (op : VaultOp) (a : VaultAnswer op) :
    (r.next op a).command = r.command := by
  unfold Writing.next
  split
  · split <;> rfl
  · rfl
  · rfl

theorem command_after (r : Writing) (t : List (Event VaultOp VaultAnswer)) :
    (writings.after r t).command = r.command := by
  induction t generalizing r with
  | nil => rfl
  | cons e t ih => exact (ih _).trans (command_next r e.op e.answer)

omit [DecidableEq ι] in
theorem requests_of_requested {c : Vaults ι} {path field value : String}
    (h : Requested (c.records writings WriteKvField.writing) path field value) :
    c.Requests ⟨path, field, value⟩ := by
  obtain ⟨j, r, hj, hr⟩ := h
  obtain ⟨p, hp, hrecord⟩ := Option.map_eq_some_iff.mp hj
  refine ⟨j, p, hp, ?_⟩
  rw [← hr, ← hrecord]
  exact (command_after p.job.writing p.trace).symm

/-- Where every write that takes effect covers what has been written, the field of every write
that has succeeded has the value of some write, and every field that was there is there. -/
theorem field_writes_kept {c : Vaults ι} (h : (vault settings).Reaches
      (fun c l => WritesCovered c.shared (c.records writings WriteKvField.writing) l)
      (.initial s₀) c) : c.KeepsFields s₀ := by
  have hinv := fieldsKept_reached h
  refine ⟨?_, ?_⟩
  · rintro i ⟨command, t, p⟩ hi hresult
    cases p with
    | call op resume => cases hresult
    | done r =>
      have happlied := h.settled (writeKvField_obeys settings) hi (Option.some.inj hresult)
      have hcommand := command_after command.writing t
      obtain ⟨value, hvalue, hrequested⟩ := hinv.written i _ (Config.records_eq hi) happlied
      rw [Process.record, hcommand] at hvalue hrequested
      exact ⟨value, hvalue, requests_of_requested hrequested⟩
  · intro path field before h₀
    have hstands := hinv.before path field before h₀
    cases hvalue : c.shared.field path field with
    | none =>
      rw [hvalue] at hstands
      exact hstands.elim
    | some value =>
      rw [hvalue] at hstands
      exact ⟨value, rfl, hstands.imp_right requests_of_requested⟩

end Run

section Sample

/-- A Vault that does what it is asked. -/
def Secrets.respond (s : Secrets) : (op : VaultOp) → VaultAnswer op × Secrets
  | .kvVersionAccepted => (true, s)
  | .mountVersion => (some "2", s)
  | .acceptKvVersion => ((), s)
  | .currentToken => (.ok (), s)
  | .invalidateToken => ((), s)
  | .get path => (.ok ⟨if (s path).isSome then 200 else 404, s path⟩, s)
  | .post path data => (.done ⟨200, none⟩, s.write path data)

theorem Secrets.performs_respond (s : Secrets) (op : VaultOp) :
    s.performs op (s.respond op).1 (s.respond op).2 := by
  cases op with
  | get path =>
    refine ⟨?_, rfl⟩
    cases hsecret : s path with
    | none => exact .inr (.inl ⟨by simp, rfl⟩)
    | some fields => exact .inl ⟨by simp, rfl, rfl⟩
  | post path data => exact rfl
  | _ => exact rfl

def sampleVault : VaultSettings := ⟨"secret", "hub"⟩

def sampleReference : WriteKvField := ⟨"dfsp/a", "keyReference", "k-1"⟩

def samplePassword : WriteKvField := ⟨"dfsp/a", "password", "1234"⟩

/-- A call is made. -/
def Vaults.begin [DecidableEq ι] (c : Vaults ι) (i : ι) (command : WriteKvField) : Vaults ι :=
  c.put i (some ⟨command, [], VaultClient.writeKvField sampleVault command⟩)

/-- A secret with a password. -/
def samplePasswords : Secrets := fun path =>
  if path = "dfsp/a" then some (Js.Map.empty.set "password" "0") else none

/-- The call has read it. -/
def sampleRead : Vaults Bool :=
  (Vaults.begin (.initial samplePasswords) false sampleReference).advance Secrets.respond false 4

section Covered

variable {c : Vaults Bool} {i : Bool}

/-- The schedule of the calls that cover what has been written. -/
abbrev SampleReached (c : Vaults Bool) : Prop :=
  (vault sampleVault).Reaches
    (fun c l => WritesCovered c.shared (c.records writings WriteKvField.writing) l)
    (.initial samplePasswords) c

theorem reached_read (h : SampleReached c) (hi : c.process i = none) (command : WriteKvField)
    (hall : (VaultClient.writeKvField sampleVault command).AdvanceAll Secrets.respond
      (fun _ e => ∀ path data, e.op ≠ .post path data) 4 c.shared) :
    SampleReached ((Vaults.begin c i command).advance Secrets.respond i 4) := by
  refine (h.tail (l := .start i command) trivial (.start command hi)).advanceAll
    (P := fun _ e => ∀ path data, e.op ≠ .post path data) i Secrets.performs_respond ?_ 4 ?_
  · rintro s ⟨op, a⟩ hop p
    cases op with
    | post path data => exact (hop path data rfl).elim
    | _ => trivial
  · intro p hp
    rw [Config.put_self] at hp
    cases hp
    exact hall

theorem reached_posted (h : SampleReached c) (path : String) (data : Fields) (r : Writing)
    (hawaits : (c.process i).bind (fun p => p.program.awaits) = some (.post path data))
    (hrecord : c.records writings WriteKvField.writing i = some r)
    (hcovers : ∀ existing, r.existing = some existing →
      Covers c.shared (c.records writings WriteKvField.writing) r.command existing) :
    SampleReached (c.advance Secrets.respond i 1) := by
  refine h.tail ?_ (System.step_advance Secrets.performs_respond (.post path data) hawaits)
  intro _ r' existing hr' hexisting
  rw [hrecord] at hr'
  cases hr'
  exact hcovers existing hexisting

end Covered

/-- The call has written. -/
def sampleWritten : Vaults Bool := sampleRead.advance Secrets.respond false 1

/-- A second call, of the password, reads and writes after it. -/
def sampleReadAgain : Vaults Bool :=
  (Vaults.begin sampleWritten true samplePassword).advance Secrets.respond true 4

def sampleWrittenAgain : Vaults Bool := sampleReadAgain.advance Secrets.respond true 1

theorem field_writes_kept_sample :
    sampleWrittenAgain.shared.field "dfsp/a" "keyReference" = some "k-1" ∧
      sampleWrittenAgain.shared.field "dfsp/a" "password" = some "1234" ∧
      Vaults.KeepsFields samplePasswords sampleWrittenAgain := by
  have hread : SampleReached sampleRead :=
    reached_read .refl rfl sampleReference ⟨by simp, by simp, by simp, by simp, trivial⟩
  have hwritten : SampleReached sampleWritten := by
    refine reached_posted hread "dfsp/a"
      ((Js.Map.empty.set "password" "0").set "keyReference" "k-1")
      ⟨sampleReference, some (Js.Map.empty.set "password" "0"), false⟩
      (by decide +kernel) (by decide +kernel) ?_
    rintro _ ⟨⟩ field -
    exact .inl rfl
  have hreadAgain : SampleReached sampleReadAgain :=
    reached_read hwritten rfl samplePassword ⟨by simp, by simp, by simp, by simp, trivial⟩
  have hwrittenAgain : SampleReached sampleWrittenAgain := by
    refine reached_posted hreadAgain "dfsp/a"
      ((Js.Map.empty.set "password" "1234").set "keyReference" "k-1")
      ⟨samplePassword, some ((Js.Map.empty.set "password" "0").set "keyReference" "k-1"), false⟩
      (by decide +kernel) (by decide +kernel) ?_
    rintro _ ⟨⟩ field -
    exact .inl rfl
  exact ⟨by decide +kernel, by decide +kernel, field_writes_kept hwrittenAgain⟩

def sampleUsername : WriteKvField := ⟨"dfsp/a", "username", "signer"⟩

/-- A second call reads the secret before the first one writes. -/
def sampleBothRead : Vaults Bool :=
  (Vaults.begin sampleRead true sampleUsername).advance Secrets.respond true 4

/-- Both have written. -/
def sampleBothWritten : Vaults Bool :=
  (sampleBothRead.advance Secrets.respond false 1).advance Secrets.respond true 1

theorem sampleBothWritten_reached :
    (vault sampleVault).Reaches System.NoCrash (.initial samplePasswords) sampleBothWritten := by
  have hfirst : (vault sampleVault).Reaches System.NoCrash (.initial samplePasswords) sampleRead :=
    (System.Reaches.refl.tail (System.noCrash_start false sampleReference)
      (.start sampleReference rfl)).advance_noCrash Secrets.performs_respond false 4
  have hsecond : (vault sampleVault).Reaches System.NoCrash (.initial samplePasswords)
      (Vaults.begin sampleRead true sampleUsername) :=
    hfirst.tail (System.noCrash_start true sampleUsername) (.start sampleUsername rfl)
  have hboth : (vault sampleVault).Reaches System.NoCrash (.initial samplePasswords)
      sampleBothRead := hsecond.advance_noCrash Secrets.performs_respond true 4
  exact (hboth.advance_noCrash Secrets.performs_respond false 1).advance_noCrash
    Secrets.performs_respond true 1

/-- Both calls have succeeded, and the field of the first one is lost. -/
theorem not_field_writes_kept :
    ¬ ∀ c : Vaults Bool, (vault sampleVault).Reaches System.NoCrash (.initial samplePasswords) c →
      c.KeepsFields samplePasswords := by
  intro h
  have hsettled : (sampleBothWritten.process false).map (fun p => (p.job, p.program.result)) =
      some (sampleReference, some (.ok ())) := by decide +kernel
  have hlost : sampleBothWritten.shared.field sampleReference.path sampleReference.field = none := by
    decide +kernel
  obtain ⟨p, hp, hjob⟩ := Option.map_eq_some_iff.mp hsettled
  obtain ⟨value, hvalue, -⟩ :=
    (h _ sampleBothWritten_reached).1 false p hp (congrArg Prod.snd hjob)
  rw [show p.job = sampleReference from congrArg Prod.fst hjob, hlost] at hvalue
  cases hvalue

end Sample

end Vault
