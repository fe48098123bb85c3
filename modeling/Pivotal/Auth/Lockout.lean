import Pivotal.Auth.Calls

/-! Logins interleaved over one directory. A failed attempt is counted by a statement of its own,
and whether it locks the account is decided on the count that was read before the password was
compared; a login that succeeds resets both. -/
namespace Auth
open Async (Config Event Label Monitor System Written update_eq_some)
open Async.Program (Obeys Within)

/-- Logins on any number of replicas, over one directory. -/
def logins (settings : DirectorySettings) :
    System DirectoryOp DirectoryAnswer DirectoryError LoginCommand.Output LoginCommand.Input
      Directory where
  entry := LoginHandler.execute settings
  perform := Directory.performs settings
  background _ _ := False

abbrev Logins (ι : Type) :=
  Config ι DirectoryOp DirectoryAnswer DirectoryError LoginCommand.Output LoginCommand.Input
    Directory

/-- The account's lock is in force. It stays on the row after it has run out. -/
def Account.LockedAt (u : Account) (now : Js.Date) : Prop :=
  ∃ lockedUntil, u.lockedUntil = some lockedUntil ∧ now < lockedUntil

/-- What a login has read, when it began to check the credentials, and how far it has come. -/
structure Attempt where
  input : LoginCommand.Input
  found : Option Account
  checked : Option Js.Date
  valid : Bool
  counted : Bool
  locks : Bool
  deriving DecidableEq

namespace Attempt

def initial (input : LoginCommand.Input) : Attempt := ⟨input, none, none, false, false, false⟩

def afterFind (r : Attempt) : Except DirectoryError (Option Account) → Attempt
  | .ok user => { r with found := r.found <|> user }
  | .error _ => r

def afterVerify (r : Attempt) : Except DirectoryError Bool → Attempt
  | .ok valid => { r with valid := valid }
  | .error _ => r

def afterIncrement (r : Attempt) : Written DirectoryError Unit → Attempt
  | .done _ => { r with counted := true }
  | _ => r

def next (r : Attempt) : (op : DirectoryOp) → DirectoryAnswer op → Attempt
  | .auth .now, a => { r with checked := r.checked <|> some a }
  | .findUserByEmail _, a => r.afterFind a
  | .verifyPassword _ _, a => r.afterVerify a
  | .incrementFailedAttempts _, a => r.afterIncrement a
  | .lockUntil _ _, _ => { r with locks := true }
  | _, _ => r

/-- A login compares the password it was given with the hash of the row it read, if the row was
not locked. It counts one failed attempt, of that account, and locks no other. -/
def allows (r : Attempt) : DirectoryOp → Prop
  | .verifyPassword plaintext hash => ∃ read now, r.found = some read ∧ r.checked = some now ∧
    ¬ read.LockedAt now ∧ plaintext = r.input.password ∧ hash = read.passwordHash
  | .incrementFailedAttempts id => r.counted = false ∧ r.locks = false ∧
    ∃ read, r.found = some read ∧ read.id = id
  | .lockUntil id _ => ∃ read, r.found = some read ∧ read.id = id
  | .recordSuccessfulLogin _ _ => r.valid = true
  | .insertUser _ => False
  | .updateUser _ _ => False
  | .deactivate _ => False
  | .updatePasswordHash _ _ _ => False
  | .invalidateTokens _ _ => False
  | .invalidateTokensForRole _ _ => False
  | _ => True

/-- The attempt is counted, and has yet to lock the account. -/
def Pending (threshold : ℕ) (id : String) (r : Attempt) : Prop :=
  r.counted = true ∧ r.locks = false ∧
    ∃ read, r.found = some read ∧ read.id = id ∧ threshold ≤ read.failedLoginAttempts + 1

/-- A login that succeeds has found the password good; none ends with a lock to set. -/
def Settled {α : Type} (threshold : ℕ) (r : Attempt) (result : Except DirectoryError α) : Prop :=
  (∀ a, result = .ok a → r.valid = true) ∧ ∀ id, ¬ r.Pending threshold id

end Attempt

def attempts : Monitor DirectoryOp DirectoryAnswer Attempt := ⟨Attempt.next, Attempt.allows⟩

/-- A call that a login makes once the password is known to be good. -/
def DirectoryOp.opensSession : DirectoryOp → Bool
  | .auth _ => true
  | .findRoleById _ => true
  | .findPermissionKeysByRoleId _ => true
  | .recordSuccessfulLogin _ _ => true
  | _ => false

section Programs

variable {α : Type} {threshold : ℕ} {r : Attempt} (settings : DirectorySettings)

open Attempt (Settled)

theorem settled_uncounted (hcounted : r.counted = false) (e : DirectoryError) :
    Settled threshold r (.error e : Except DirectoryError α) := by
  constructor
  · rintro a ⟨⟩
  · rintro id ⟨hc, -⟩
    simp [hcounted] at hc

theorem ofAuth_opensSession (p : AuthProgram α) : (ofAuth p).Within (·.opensSession) := by
  apply Within.mapError
  exact Within.embed (P := fun op : DirectoryOp => op.opensSession = true)
    (Async.Program.within_of_forall (fun _ => rfl) p)

theorem openSession_within (user : Account) :
    (LoginHandler.openSession settings user).Within (·.opensSession) := by
  refine Within.bind (answer_within rfl) ?_
  rintro (_ | role)
  · trivial
  refine Within.bind (stamped_within rfl fun _ => rfl) ?_
  intro _
  refine Within.bind (answer_within rfl) ?_
  intro permissions
  refine Within.bind (Async.Program.within_perform.mpr rfl) ?_
  intro familyId
  refine Within.bind (ofAuth_opensSession _) ?_
  intro issued
  refine Within.bind (ofAuth_opensSession _) ?_
  intro accessToken
  refine Within.bind (ofAuth_opensSession _) ?_
  intro saved
  trivial

/-- A good password stays so, and nothing is counted. -/
theorem opensSession_next {op : DirectoryOp} (hop : op.opensSession = true)
    (h : r.valid = true ∧ r.counted = false) : attempts.allows r op ∧
      ∀ a, (attempts.next r op a).valid = true ∧ (attempts.next r op a).counted = false := by
  cases op with
  | auth op => cases op <;> exact ⟨trivial, fun _ => h⟩
  | findRoleById _ | findPermissionKeysByRoleId _ => exact ⟨trivial, fun _ => h⟩
  | recordSuccessfulLogin _ _ => exact ⟨h.1, fun _ => h⟩
  | _ => cases hop

theorem obeys_openSession_valid (user : Account) (hvalid : r.valid = true)
    (hcounted : r.counted = false) :
    (LoginHandler.openSession settings user).Obeys attempts r (Settled threshold) := by
  have hkeeps := Within.keeps (M := attempts) (openSession_within settings user)
    (R := fun r => r.valid = true ∧ r.counted = false) fun r op h hop => opensSession_next hop h
  refine (hkeeps r ⟨hvalid, hcounted⟩).mono ?_
  rintro r' (e | output) ⟨hv, hc⟩
  · exact settled_uncounted hc e
  · refine ⟨fun _ _ => hv, ?_⟩
    rintro id ⟨hc', -⟩
    simp [hc] at hc'

/-- The attempt is counted, and then the account is locked if the count that was read says so. -/
theorem obeys_failed (read : Account) (hfound : r.found = some read) (hcounted : r.counted = false)
    (hlocks : r.locks = false) :
    (LoginHandler.handleFailedAttempt settings read.id (read.failedLoginAttempts + 1)).Obeys
      attempts r fun r' _ => ∀ id, ¬ r'.Pending settings.loginLockoutThreshold id := by
  refine ⟨⟨hcounted, hlocks, read, hfound, rfl⟩, fun a => ?_⟩
  have hrejected : ∀ id, ¬ r.Pending settings.loginLockoutThreshold id := by
    rintro id ⟨hc, -⟩
    simp [hcounted] at hc
  rcases a with a | e | e
  · change ((if settings.loginLockoutThreshold ≤ read.failedLoginAttempts + 1 then _ else _ :
      DirectoryProgram Bool)).Obeys attempts { r with counted := true } _
    split
    · refine ⟨trivial, fun now => ⟨⟨read, hfound, rfl⟩, fun a => ?_⟩⟩
      have hlocked : ∀ id, ¬ Attempt.Pending settings.loginLockoutThreshold id
          { r with counted := true, checked := r.checked <|> some now, locks := true } := by
        rintro id ⟨-, hl, -⟩
        cases hl
      rcases a with a | e | e <;> exact hlocked
    · rintro id ⟨-, -, read', hread, -, hle⟩
      obtain rfl : read = read' := Option.some.inj (hfound.symm.trans hread)
      exact absurd hle ‹_›
  · exact hrejected
  · exact hrejected

theorem obeys_login_attempt (input : LoginCommand.Input) :
    (LoginHandler.execute settings input).Obeys attempts (.initial input)
      (Settled settings.loginLockoutThreshold) := by
  refine ⟨trivial, fun a => ?_⟩
  rcases a with e | _ | read
  · exact settled_uncounted rfl _
  · exact settled_uncounted rfl _
  refine Obeys.unless (fun _ => settled_uncounted rfl _) fun _ => ?_
  apply Obeys.afterPerform trivial
  intro now
  refine Obeys.unless (fun _ => settled_uncounted rfl _) fun hunlocked => ?_
  have hopen : ¬ read.LockedAt now := by
    rintro ⟨lockedUntil, hlocked, hbefore⟩
    simp [hlocked, hbefore] at hunlocked
  refine ⟨⟨read, now, rfl, rfl, hopen, rfl, rfl⟩, fun a => ?_⟩
  rcases a with e | _ | _
  · exact settled_uncounted rfl _
  · have hfails : ∀ (e : DirectoryError) (r : Attempt),
        (∀ id, ¬ r.Pending settings.loginLockoutThreshold id) →
        Settled settings.loginLockoutThreshold r
          (.error e : Except DirectoryError LoginCommand.Output) := by
      refine fun e r h => ⟨?_, h⟩
      rintro a ⟨⟩
    change ((LoginHandler.handleFailedAttempt settings read.id (read.failedLoginAttempts + 1)) >>=
      fun locked => if locked then throw _ else throw _ :
        DirectoryProgram LoginCommand.Output).Obeys attempts _ _
    refine Obeys.seq (obeys_failed settings read rfl rfl rfl) ?_ hfails
    intro locked r h
    cases locked <;> exact hfails _ r h
  · exact obeys_openSession_valid settings read rfl rfl

end Programs

section Lockout

variable {ι : Type}

/-- The account is locked, or an attempt that is counted has yet to lock it. -/
def Account.Covered (threshold : ℕ) (f : ι → Option Attempt) (u : Account) : Prop :=
  u.lockedUntil ≠ none ∨ ∃ i r, f i = some r ∧ r.Pending threshold u.id

/-- Every account whose failed attempts reach the threshold carries a lock. -/
def Directory.LocksOut (threshold : ℕ) (d : Directory) : Prop :=
  ∀ u ∈ d.users.rows, threshold ≤ u.failedLoginAttempts → u.lockedUntil ≠ none

/-- If the attempt brings an account that nothing covers to the threshold, then so did the count
that was read, and the answer is not lost. -/
def CountsInTime (threshold : ℕ) (d : Directory) (f : ι → Option Attempt) (r : Attempt)
    (id : String) (a : Written DirectoryError Unit) : Prop :=
  ∀ u ∈ d.users.rows, u.id = id → threshold ≤ u.failedLoginAttempts + 1 →
    ¬ u.Covered threshold f → a.isRejected = true ∨ a = .done () ∧
      ∃ read, r.found = some read ∧ threshold ≤ read.failedLoginAttempts + 1

/-- If the password is good and the account is locked as its check begins, then so was the row
that was read. -/
def ChecksInTime (settings : DirectorySettings) (d : Directory) (r : Attempt) (now : Js.Date) :
    Prop :=
  r.checked = none → ∀ read, r.found = some read →
    settings.compare r.input.password read.passwordHash = true →
      ∀ u ∈ d.users.rows, u.id = read.id → u.LockedAt now → read.LockedAt now

/-- Attempts are counted and checked in time, and none is lost before it locks. -/
def InTime (settings : DirectorySettings) (d : Directory) (f : ι → Option Attempt) :
    Label ι DirectoryOp DirectoryAnswer LoginCommand.Input → Prop
  | .call i ⟨.auth .now, now⟩ => ∀ r, f i = some r → ChecksInTime settings d r now
  | .call i ⟨.incrementFailedAttempts id, a⟩ =>
    ∀ r, f i = some r → CountsInTime settings.loginLockoutThreshold d f r id a
  | .call _ ⟨.lockUntil _ _, a⟩ => a.isRejected = false
  | .crash i => ∀ r, f i = some r → ∀ id, ¬ r.Pending settings.loginLockoutThreshold id
  | _ => True

/-- What holds between any two steps. -/
structure Lockout (settings : DirectorySettings) (d : Directory) (f : ι → Option Attempt) :
    Prop where
  covered : ∀ u ∈ d.users.rows, settings.loginLockoutThreshold ≤ u.failedLoginAttempts →
    u.Covered settings.loginLockoutThreshold f
  valid : ∀ i r, f i = some r → r.valid = true → ∃ read now, r.found = some read ∧
    r.checked = some now ∧ ¬ read.LockedAt now ∧
      settings.compare r.input.password read.passwordHash = true

variable {settings : DirectorySettings} {d d' : Directory} {f : ι → Option Attempt} {i : ι}
  {r r' : Attempt} {threshold : ℕ}

theorem Lockout.initial (h : d.LocksOut settings.loginLockoutThreshold) :
    Lockout settings d (fun _ : ι => none) where
  covered u hu hle := .inl (h u hu hle)
  valid i r hi := by cases hi

/-- What a login knows stays as it is. -/
structure Attempt.Grows (r r' : Attempt) : Prop where
  input : r'.input = r.input
  found : ∀ read, r.found = some read → r'.found = some read
  checked : ∀ now, r.checked = some now → r'.checked = some now
  counted : r.counted = true → r'.counted = true

theorem Attempt.grows_next (r : Attempt) (op : DirectoryOp) (a : DirectoryAnswer op) :
    r.Grows (r.next op a) := by
  have hsame : ∀ valid locks, r.Grows { r with valid := valid, locks := locks } :=
    fun _ _ => ⟨rfl, fun _ h => h, fun _ h => h, fun h => h⟩
  cases op with
  | auth op =>
    cases op with
    | now => exact ⟨rfl, fun _ h => h, fun now h => by simp [next, h], fun h => h⟩
    | _ => exact hsame r.valid r.locks
  | findUserByEmail email =>
    rcases a with e | user
    · exact hsame r.valid r.locks
    · exact ⟨rfl, fun read h => by simp [next, afterFind, h], fun _ h => h, fun h => h⟩
  | verifyPassword plaintext hash => rcases a with e | valid <;> exact hsame _ r.locks
  | incrementFailedAttempts id =>
    rcases a with a | e | e
    · exact ⟨rfl, fun _ h => h, fun _ h => h, fun _ => rfl⟩
    · exact hsame r.valid r.locks
    · exact hsame r.valid r.locks
  | lockUntil id lockedUntil => exact hsame r.valid true
  | _ => exact hsame r.valid r.locks

theorem Attempt.locks_next (r : Attempt) {op : DirectoryOp} (hop : ∀ id d, op ≠ .lockUntil id d)
    (a : DirectoryAnswer op) : (r.next op a).locks = r.locks := by
  cases op with
  | auth op => cases op <;> rfl
  | findUserByEmail email => rcases a with e | user <;> rfl
  | verifyPassword plaintext hash => rcases a with e | valid <;> rfl
  | incrementFailedAttempts id => rcases a with a | e | e <;> rfl
  | lockUntil id lockedUntil => exact absurd rfl (hop id lockedUntil)
  | _ => rfl

theorem Attempt.valid_next (r : Attempt) {op : DirectoryOp}
    (hop : ∀ plaintext hash, op ≠ .verifyPassword plaintext hash) (a : DirectoryAnswer op) :
    (r.next op a).valid = r.valid := by
  cases op with
  | auth op => cases op <;> rfl
  | findUserByEmail email => rcases a with e | user <;> rfl
  | verifyPassword plaintext hash => exact absurd rfl (hop plaintext hash)
  | incrementFailedAttempts id => rcases a with a | e | e <;> rfl
  | _ => rfl

/-- An attempt stays pending until it locks. -/
theorem Attempt.Pending.next {id : String} (h : r.Pending threshold id) {op : DirectoryOp}
    (hop : ∀ id d, op ≠ .lockUntil id d) (a : DirectoryAnswer op) :
    (r.next op a).Pending threshold id := by
  obtain ⟨hcounted, hlocks, read, hfound, hid, hle⟩ := h
  have hgrows := r.grows_next op a
  exact ⟨hgrows.counted hcounted, (r.locks_next hop a).trans hlocks, read,
    hgrows.found read hfound, hid, hle⟩

/-- Only counted attempts, locks and successful logins change a row of a user. -/
theorem users_of_performs {op : DirectoryOp} {a : DirectoryAnswer op} (hr : r.allows op)
    (hp : Directory.performs settings d op a d')
    (hincrement : ∀ id, op ≠ .incrementFailedAttempts id)
    (hlock : ∀ id lockedUntil, op ≠ .lockUntil id lockedUntil)
    (hsuccess : ∀ id at', op ≠ .recordSuccessfulLogin id at') : d'.users = d.users := by
  cases op with
  | auth op =>
    cases op with
    | now => rw [hp]
    | nextId => rw [hp.2]
    | randomBytes => rw [hp]
    | findUser _ | findRole _ | findPermissionKeys _ => rw [hp.1]
    | sign claims => rcases a with e | jwt <;> rw [hp]
    | findByTokenHash _ | revokeFamily _ _ | markRevoked _ _ _ | insert _ =>
      obtain ⟨t, -, rfl⟩ := hp
      rfl
  | insertUser _ | updateUser _ _ | deactivate _ | updatePasswordHash _ _ _ | invalidateTokens _ _
    | invalidateTokensForRole _ _ => exact hr.elim
  | incrementFailedAttempts id => exact absurd rfl (hincrement id)
  | lockUntil id lockedUntil => exact absurd rfl (hlock id lockedUntil)
  | recordSuccessfulLogin id at' => exact absurd rfl (hsuccess id at')
  | replaceForRole _ _ | revokeAllForUser _ _ =>
    rcases a.applies_cases d _ with ha | ⟨-, ha⟩
    · rw [hp, ha]
      rfl
    · rw [hp, ha]
  | generateTempPassword | hashPassword _ => rw [hp]
  | _ => rw [hp.1]

/-- The password of an attempt is good only if it was compared with the row it read. -/
theorem Lockout.valid_call (h : Lockout settings d f) (hi : f i = some r) {op : DirectoryOp}
    {a : DirectoryAnswer op} (hr : r.allows op) (hp : Directory.performs settings d op a d')
    (hvalid : (r.next op a).valid = true) : ∃ read now, (r.next op a).found = some read ∧
      (r.next op a).checked = some now ∧ ¬ read.LockedAt now ∧
        settings.compare (r.next op a).input.password read.passwordHash = true := by
  have hgrows := r.grows_next op a
  have hknown : r.valid = true ∨ ∃ plaintext hash, op = .verifyPassword plaintext hash := by
    by_cases hop : ∃ plaintext hash, op = .verifyPassword plaintext hash
    · exact .inr hop
    · exact .inl ((r.valid_next (fun p q heq => hop ⟨p, q, heq⟩) a).symm.trans hvalid)
  rcases hknown with hold | ⟨plaintext, hash, rfl⟩
  · obtain ⟨read, now, hfound, hchecked, hopen, hcompare⟩ := h.valid i r hi hold
    rw [hgrows.input]
    exact ⟨read, now, hgrows.found read hfound, hgrows.checked now hchecked, hopen, hcompare⟩
  · obtain ⟨read, now, hfound, hchecked, hopen, rfl, rfl⟩ := hr
    rcases a with e | valid
    · obtain ⟨read', now', hfound', hchecked', hrest⟩ := h.valid i r hi hvalid
      exact ⟨read', now', hfound', hchecked', hrest⟩
    · obtain rfl : valid = true := hvalid
      exact ⟨read, now, hfound, hchecked, hopen, (hp.2 true rfl).symm⟩

variable [DecidableEq ι]

theorem Account.Covered.update {u : Account} (h : u.Covered threshold f) (hi : f i = some r)
    (hr : r.Pending threshold u.id → r'.Pending threshold u.id) :
    u.Covered threshold (Function.update f i (some r')) :=
  h.imp id (Async.exists_update hi hr)

/-- The account that is locked is covered by its lock, and the others by what covered them. -/
theorem Lockout.covered_lock (h : Lockout settings d f) (hi : f i = some r) {id : String}
    {lockedUntil : Js.Date} {a : Written DirectoryError Unit}
    (hr : r.allows (.lockUntil id lockedUntil)) (ha : a.isRejected = false)
    (hp : Directory.performs settings d (.lockUntil id lockedUntil) a d') :
    ∀ u ∈ d'.users.rows, settings.loginLockoutThreshold ≤ u.failedLoginAttempts →
      u.Covered settings.loginLockoutThreshold
        (Function.update f i (some (r.next (.lockUntil id lockedUntil) a))) := by
  obtain ⟨read, hfound, hread⟩ := hr
  obtain rfl : d' = d.lockUntil id (settings.datetime.store lockedUntil) := by
    rw [hp]
    cases a with
    | rejected e => cases ha
    | _ => rfl
  intro u hu hle
  obtain ⟨u', hu', rfl⟩ := (d.mem_updateUsers).mp hu
  by_cases hid : u'.id = id
  · left
    simp [hid]
  · simp only [hid, decide_false, Bool.false_eq_true, if_false] at hle ⊢
    refine (h.covered u' hu' hle).update hi ?_
    rintro ⟨-, -, read', hfound', hread', -⟩
    obtain rfl : read = read' := Option.some.inj (hfound.symm.trans hfound')
    exact absurd (hread'.symm.trans hread) hid

/-- A login that succeeds leaves no failed attempt. -/
theorem Lockout.covered_success (h : Lockout settings d f) (hi : f i = some r)
    (hthreshold : 0 < settings.loginLockoutThreshold) {id : String} {lastLoginAt : Js.Date}
    {a : Written DirectoryError Unit}
    (hp : Directory.performs settings d (.recordSuccessfulLogin id lastLoginAt) a d') :
    ∀ u ∈ d'.users.rows, settings.loginLockoutThreshold ≤ u.failedLoginAttempts →
      u.Covered settings.loginLockoutThreshold
        (Function.update f i (some (r.next (.recordSuccessfulLogin id lastLoginAt) a))) := by
  have hop : ∀ id' at', DirectoryOp.recordSuccessfulLogin id lastLoginAt ≠ .lockUntil id' at' := by
    simp
  have hkept : ∀ u ∈ d.users.rows, settings.loginLockoutThreshold ≤ u.failedLoginAttempts →
      u.Covered settings.loginLockoutThreshold
        (Function.update f i (some (r.next (.recordSuccessfulLogin id lastLoginAt) a))) :=
    fun u hu hle => (h.covered u hu hle).update hi fun hpending => hpending.next hop a
  intro u hu hle
  rcases a.applies_isRejected d (d.recordSuccessfulLogin id (settings.datetime.store lastLoginAt))
    with ⟨-, ha⟩ | ⟨-, ha⟩
  · rw [hp, ha] at hu
    obtain ⟨u', hu', rfl⟩ := (d.mem_updateUsers).mp hu
    by_cases hid : u'.id = id
    · simp only [hid, decide_true, if_true] at hle
      omega
    · simp only [hid, decide_false, Bool.false_eq_true, if_false] at hle ⊢
      exact hkept u' hu' hle
  · rw [hp, ha] at hu
    exact hkept u hu hle

/-- An attempt that brings its account to the threshold is pending. -/
theorem Lockout.covered_increment (h : Lockout settings d f) (hi : f i = some r) {id : String}
    {a : Written DirectoryError Unit} (hr : r.allows (.incrementFailedAttempts id))
    (hin : CountsInTime settings.loginLockoutThreshold d f r id a)
    (hp : Directory.performs settings d (.incrementFailedAttempts id) a d') :
    ∀ u ∈ d'.users.rows, settings.loginLockoutThreshold ≤ u.failedLoginAttempts →
      u.Covered settings.loginLockoutThreshold
        (Function.update f i (some (r.next (.incrementFailedAttempts id) a))) := by
  have hop : ∀ id' at', DirectoryOp.incrementFailedAttempts id ≠ .lockUntil id' at' := by simp
  have hkept : ∀ u : Account, u.Covered settings.loginLockoutThreshold f →
      u.Covered settings.loginLockoutThreshold
        (Function.update f i (some (r.next (.incrementFailedAttempts id) a))) :=
    fun u hu => hu.update hi fun hpending => hpending.next hop a
  intro u hu hle
  rcases a.applies_isRejected d (d.incrementFailedAttempts id) with ⟨happlied, ha⟩ | ⟨-, ha⟩
  · rw [hp, ha] at hu
    obtain ⟨u', hu', rfl⟩ := (d.mem_updateUsers).mp hu
    by_cases hid : u'.id = id
    · simp only [hid, decide_true, if_true] at hle ⊢
      by_cases hcovered : u'.Covered settings.loginLockoutThreshold f
      · exact hkept u' hcovered
      · rcases hin u' hu' hid hle hcovered with hrejected | ⟨rfl, read, hfound, hread⟩
        · simp [happlied] at hrejected
        · obtain ⟨-, hlocks, read', hfound', hid'⟩ := hr
          obtain rfl : read = read' := Option.some.inj (hfound.symm.trans hfound')
          exact .inr ⟨i, _, Function.update_self .., rfl, hlocks, read, hfound,
            hid'.trans hid.symm, hread⟩
    · simp only [hid, decide_false, Bool.false_eq_true, if_false] at hle ⊢
      exact hkept u' (h.covered u' hu' hle)
  · rw [hp, ha] at hu
    exact hkept u (h.covered u hu hle)

theorem Lockout.call (h : Lockout settings d f) (hthreshold : 0 < settings.loginLockoutThreshold)
    (hi : f i = some r) {op : DirectoryOp} {a : DirectoryAnswer op} (hr : r.allows op)
    (hin : InTime settings d f (.call i ⟨op, a⟩)) (hp : Directory.performs settings d op a d') :
    Lockout settings d' (Function.update f i (some (r.next op a))) where
  covered := by
    by_cases hincrement : ∃ id, op = .incrementFailedAttempts id
    · obtain ⟨id, rfl⟩ := hincrement
      exact h.covered_increment hi hr (hin r hi) hp
    by_cases hlock : ∃ id lockedUntil, op = .lockUntil id lockedUntil
    · obtain ⟨id, lockedUntil, rfl⟩ := hlock
      exact h.covered_lock hi hr hin hp
    by_cases hsuccess : ∃ id at', op = .recordSuccessfulLogin id at'
    · obtain ⟨id, at', rfl⟩ := hsuccess
      exact h.covered_success hi hthreshold hp
    · have husers : d'.users = d.users := users_of_performs hr hp
        (fun id heq => hincrement ⟨id, heq⟩) (fun id at' heq => hlock ⟨id, at', heq⟩)
        fun id at' heq => hsuccess ⟨id, at', heq⟩
      intro u hu hle
      rw [husers] at hu
      exact (h.covered u hu hle).update hi fun hpending =>
        hpending.next (fun id at' heq => hlock ⟨id, at', heq⟩) a
  valid j r' hj hvalid := by
    rcases update_eq_some.mp hj with ⟨rfl, heq⟩ | ⟨hji, hother⟩
    · obtain rfl := Option.some.inj heq
      exact h.valid_call hi hr hp hvalid
    · exact h.valid j r' hother hvalid

theorem Lockout.start (h : Lockout settings d f) (hi : f i = none) (input : LoginCommand.Input) :
    Lockout settings d (Function.update f i (some (.initial input))) where
  covered u hu hle := by
    refine (h.covered u hu hle).imp id ?_
    rintro ⟨j, r, hj, hpending⟩
    have hji : j ≠ i := by
      rintro rfl
      simp [hi] at hj
    exact ⟨j, r, by rwa [Function.update_of_ne hji], hpending⟩
  valid j r hj hvalid := by
    rcases update_eq_some.mp hj with ⟨rfl, heq⟩ | ⟨hji, hother⟩
    · obtain rfl := Option.some.inj heq
      cases hvalid
    · exact h.valid j r hother hvalid

theorem Lockout.crash (h : Lockout settings d f) (hi : f i = some r)
    (hr : ∀ id, ¬ r.Pending settings.loginLockoutThreshold id) :
    Lockout settings d (Function.update f i none) where
  covered u hu hle := by
    refine (h.covered u hu hle).imp id ?_
    rintro ⟨j, r', hj, hpending⟩
    have hji : j ≠ i := by
      rintro rfl
      obtain rfl := Option.some.inj (hi.symm.trans hj)
      exact hr u.id hpending
    exact ⟨j, r', by rwa [Function.update_of_ne hji], hpending⟩
  valid j r' hj hvalid := h.valid j r' (Async.of_update_none hj).2 hvalid

end Lockout

section Runs

variable {ι : Type} [DecidableEq ι] (settings : DirectorySettings)

/-- The schedules whose steps are in time. -/
def InTimeStep (c : Logins ι)
    (l : Label ι DirectoryOp DirectoryAnswer LoginCommand.Input) : Prop :=
  InTime settings c.shared (c.records attempts Attempt.initial) l

/-- No login is in progress. -/
def Idle (c : Logins ι) : Prop := ∀ i p, c.process i = some p → p.program.result.isSome = true

/-- The login begins to check its credentials at `now`, while the account it has read is locked. -/
def BeginsLocked (c : Logins ι) (i : ι) (now : Js.Date) : Prop :=
  ∃ r read, c.records attempts Attempt.initial i = some r ∧ r.checked = none ∧
    r.found = some read ∧ ∃ u ∈ c.shared.users.rows, u.id = read.id ∧ u.LockedAt now

/-- The login has not succeeded, and is not about to clear a lock. -/
def Refused (c : Logins ι) (i : ι) : Prop :=
  ∀ p, c.process i = some p → (∀ output, p.program.result ≠ some (.ok output)) ∧
    ∀ id lastLoginAt, p.program.awaits ≠ some (.recordSuccessfulLogin id lastLoginAt)

variable {settings} {d : Directory} {c c₁ c₂ : Logins ι} {i : ι}

theorem lockout_of_reaches (hthreshold : 0 < settings.loginLockoutThreshold)
    (h₀ : d.LocksOut settings.loginLockoutThreshold)
    (hr : (logins settings).Reaches (InTimeStep settings) (.initial d) c) :
    Lockout settings c.shared (c.records attempts Attempt.initial) := by
  apply hr.records_invariant (InTime settings) (Lockout settings) (obeys_login_attempt settings)
    (.initial h₀)
  intro s f l s' f' hinv hl hm
  cases hm with
  | start input hi => exact hinv.start hi input
  | call hi hallows hp => exact hinv.call hthreshold hi hallows hl hp
  | crash hi _ => exact hinv.crash hi (hl _ hi)
  | background hb => exact hb.elim

/-- A login that has succeeded, or is about to clear the lock, has found the password good. -/
theorem refused_of_invalid (hr : (logins settings).Reaches (InTimeStep settings) (.initial d) c)
    (hi : ∀ p, c.process i = some p → (p.record attempts Attempt.initial).valid = false) :
    Refused c i := by
  intro p hp
  have hobeys := hr.obeys (obeys_login_attempt settings) hp
  have hvalid := hi p hp
  obtain ⟨input, t, program⟩ := p
  constructor
  · intro output hresult
    cases program with
    | call op resume => cases hresult
    | done result =>
      obtain rfl := Option.some.inj hresult
      simp [hobeys.1 output rfl] at hvalid
  · intro id lastLoginAt hawaits
    cases program with
    | done result => cases hawaits
    | call op resume =>
      obtain rfl := Option.some.inj hawaits
      have hallows : (Async.Process.record attempts Attempt.initial
        ⟨input, t, .call (.recordSuccessfulLogin id lastLoginAt) resume⟩).valid = true := hobeys.1
      simp [hallows] at hvalid

/-- The login has read the row, and has begun to check its credentials at `now`. -/
def Begun (input : LoginCommand.Input) (read : Account) (now : Js.Date) (r : Attempt) : Prop :=
  r.input = input ∧ r.found = some read ∧ r.checked = some now

theorem Begun.next {input : LoginCommand.Input} {read : Account} {now : Js.Date} {r : Attempt}
    {op : DirectoryOp} {a : DirectoryAnswer op} (h : Begun input read now r) :
    Begun input read now (attempts.next r op a) := by
  obtain ⟨hinput, hfound, hchecked⟩ := h
  have hgrows := r.grows_next op a
  exact ⟨hgrows.input.trans hinput, hgrows.found read hfound, hgrows.checked now hchecked⟩

theorem record_of_begun {r : Attempt} {read : Account} {now : Js.Date}
    (hi : c₁.records attempts Attempt.initial i = some r) (hchecked : r.checked = none)
    (hfound : r.found = some read)
    (hstep : (logins settings).Step c₁ (.call i ⟨.auth .now, now⟩) c₂) :
    ∃ p, c₂.process i = some p ∧
      Begun r.input read now (p.record attempts Attempt.initial) := by
  obtain ⟨p, hp, rfl⟩ := Option.map_eq_some_iff.mp hi
  cases hstep with
  | @call _ job t _ resume _ s' hj hperform =>
    obtain rfl := Option.some.inj (hp.symm.trans hj)
    refine ⟨_, Config.put_self _ _ _, ?_⟩
    rw [Async.Process.record_snoc _ _ _ _ (.call (.auth .now) resume)]
    refine ⟨rfl, hfound, ?_⟩
    have hnow : (attempts.next (Async.Process.record attempts Attempt.initial
        ⟨job, t, .call (.auth .now) resume⟩) (.auth .now) now).checked =
          ((Async.Process.record attempts Attempt.initial
            ⟨job, t, .call (.auth .now) resume⟩).checked <|> some now) := rfl
    rw [hnow, hchecked]
    rfl

/-- Between logins, the accounts whose failed attempts reach the threshold carry a lock. A login
that begins to check its credentials while the account is locked neither succeeds nor clears the
lock, as long as it runs. -/
theorem login_lockout (hthreshold : 0 < settings.loginLockoutThreshold)
    (h₀ : d.LocksOut settings.loginLockoutThreshold)
    (hr : (logins settings).Reaches (InTimeStep settings) (.initial d) c₁) :
    (Idle c₁ → c₁.shared.LocksOut settings.loginLockoutThreshold) ∧
      ∀ i now c₂ c, BeginsLocked c₁ i now → InTimeStep settings c₁ (.call i ⟨.auth .now, now⟩) →
        (logins settings).Step c₁ (.call i ⟨.auth .now, now⟩) c₂ →
        (logins settings).Reaches (fun c l => InTimeStep settings c l ∧ l ≠ .crash i) c₂ c →
        Refused c i := by
  have hinv := lockout_of_reaches hthreshold h₀ hr
  constructor
  · intro hidle u hu hle
    rcases hinv.covered u hu hle with hlocked | ⟨i, r, hi, hpending⟩
    · exact hlocked
    · obtain ⟨⟨input, t, program⟩, hp, rfl⟩ := Option.map_eq_some_iff.mp hi
      cases program with
      | call op resume => cases hidle i _ hp
      | done result =>
        exact absurd hpending ((hr.settled (obeys_login_attempt settings) hp).2 u.id)
  · rintro i now c₂ c ⟨r, read, hi, hchecked, hfound, u, hu, hid, hlocked⟩ hinTime hstep hlater
    have hbegun := record_of_begun hi hchecked hfound hstep
    obtain ⟨p, hp, hinput, hfound', hchecked'⟩ := hlater.record_keeps (fun _ _ hl => hl.2)
      (fun r' op a => Begun.next) hbegun
    have hr₂ : (logins settings).Reaches (InTimeStep settings) (.initial d) c :=
      (hr.tail hinTime hstep).trans (hlater.mono fun _ _ _ hl => hl.1)
    apply refused_of_invalid hr₂
    intro p' hp'
    obtain rfl := Option.some.inj (hp.symm.trans hp')
    by_contra hvalid
    obtain ⟨read', now', hread, hnow, hopen, hcompare⟩ :=
      (lockout_of_reaches hthreshold h₀ hr₂).valid i _ (Config.records_eq hp)
        (Bool.eq_true_of_not_eq_false hvalid)
    obtain rfl := Option.some.inj (hfound'.symm.trans hread)
    obtain rfl := Option.some.inj (hchecked'.symm.trans hnow)
    rw [hinput] at hcompare
    exact hopen (hinTime r hi hchecked read hfound hcompare u hu hid hlocked)

end Runs

/-! One account in a world in which no call fails. -/

open Directory (sampleDirectorySettings performs_respond)

def sampleTeller (failedLoginAttempts : ℕ) : Account :=
  { Account.new "t@f" "p" "teller" (some "F") false "t" with
    failedLoginAttempts := failedLoginAttempts }

def sampleBranch (failedLoginAttempts : ℕ) : Directory where
  users := .insert .empty (sampleTeller failedLoginAttempts) fun _ h => by cases h
  roles := .insert .empty ⟨⟨"teller", "TELLER"⟩, "Teller", none, .dfsp, false⟩ fun _ h => by cases h
  permissions := .empty
  rolePermissions := []
  refreshTokens := .empty
  accessTokens := []
  issued := []
  latest := 0

def sampleGuess : LoginCommand.Input := ⟨"t@f", "guess"⟩

def sampleRight : LoginCommand.Input := ⟨"t@f", "p"⟩

/-- What `InTime` asks of a call while no other login is there. -/
def InTimeAlone (input : LoginCommand.Input) (d : Directory)
    (t : List (Event DirectoryOp DirectoryAnswer)) (e : Event DirectoryOp DirectoryAnswer) : Prop :=
  match e with
  | ⟨.auth .now, _⟩ => ∀ u ∈ d.users.rows, (attempts.after (.initial input) t).found.all
    (fun read => u.id ≠ read.id || u.lockedUntil = read.lockedUntil) = true
  | ⟨.incrementFailedAttempts id, a⟩ => a = .done () ∧
    ∀ u ∈ d.users.rows, u.id = id → (attempts.after (.initial input) t).found = some u
  | ⟨.lockUntil _ _, a⟩ => a.isRejected = false
  | _ => True

instance (input : LoginCommand.Input) (d : Directory)
    (t : List (Event DirectoryOp DirectoryAnswer)) (e : Event DirectoryOp DirectoryAnswer) :
    Decidable (InTimeAlone input d t e) := by
  obtain ⟨op, a⟩ := e
  cases op with
  | auth op => cases op <;> (dsimp only [InTimeAlone]; infer_instance)
  | _ => dsimp only [InTimeAlone]; infer_instance

theorem InTimeAlone.inTime {ι : Type} {settings : DirectorySettings} {input : LoginCommand.Input}
    {d : Directory} {t : List (Event DirectoryOp DirectoryAnswer)}
    {e : Event DirectoryOp DirectoryAnswer} (h : InTimeAlone input d t e)
    {f : ι → Option Attempt} {i : ι} (hi : f i = some (attempts.after (.initial input) t)) :
    InTime settings d f (.call i e) := by
  obtain ⟨op, a⟩ := e
  cases op with
  | auth op =>
    cases op with
    | now =>
      intro r hr hchecked read hfound hcompare u hu hid
      obtain rfl := Option.some.inj (hi.symm.trans hr)
      have hsame : u.lockedUntil = read.lockedUntil := by
        have hall := h u hu
        rw [hfound] at hall
        simpa [hid] using hall
      exact fun hlocked => by simpa [Account.LockedAt, hsame] using hlocked
    | _ => trivial
  | incrementFailedAttempts id =>
    intro r hr u hu hid hle hcovered
    obtain rfl := Option.some.inj (hi.symm.trans hr)
    exact .inr ⟨h.1, u, h.2 u hu hid, hle⟩
  | lockUntil id lockedUntil => exact h
  | _ => trivial

/-- The account after its fifth failed attempt. -/
def sampleLockedTeller : Account := { sampleTeller 5 with lockedUntil := some 900000 }

/-- After four failed attempts, a fifth one. -/
def sampleFifth : Logins Bool :=
  let fifth := (LoginHandler.execute sampleDirectorySettings sampleGuess).solo
    (Directory.respond sampleDirectorySettings) (sampleBranch 4) []
  ((Config.initial (sampleBranch 4)).withShared fifth.1).put false
    (some ⟨sampleGuess, fifth.2.1, .done fifth.2.2⟩)

/-- And then the right password, of which the row has been read. -/
def sampleLate : Logins Bool :=
  (sampleFifth.put true (some ⟨sampleRight, [],
    LoginHandler.execute sampleDirectorySettings sampleRight⟩)).advance
      (Directory.respond sampleDirectorySettings) true 1

theorem sampleFifth_reached : (logins sampleDirectorySettings).Reaches
    (InTimeStep sampleDirectorySettings) (.initial (sampleBranch 4)) sampleFifth := by
  have hcalm : (LoginHandler.execute sampleDirectorySettings sampleGuess).SoloAll
      (Directory.respond sampleDirectorySettings) (InTimeAlone sampleGuess) (sampleBranch 4)
      [] := by
    decide
  refine System.Reaches.solo .refl false sampleGuess rfl
    (performs_respond sampleDirectorySettings) trivial (hcalm.mono ?_)
  intro s t e he p
  exact he.inTime (Config.records_eq (Config.put_self _ _ _))

theorem sampleLate_reached : (logins sampleDirectorySettings).Reaches
    (InTimeStep sampleDirectorySettings) (.initial (sampleBranch 4)) sampleLate := by
  have hstart : InTimeStep sampleDirectorySettings sampleFifth (.start true sampleRight) := trivial
  have hread := System.step_advance (S := logins sampleDirectorySettings) (i := true)
    (c := sampleFifth.put true (some ⟨sampleRight, [],
      LoginHandler.execute sampleDirectorySettings sampleRight⟩))
    (performs_respond sampleDirectorySettings) (.findUserByEmail "t@f") rfl
  refine (sampleFifth_reached.tail hstart (.start sampleRight rfl)).tail ?_ hread
  trivial

theorem sampleLate_rows : sampleLate.shared.users.rows = [sampleLockedTeller] := by
  rfl

theorem sampleLate_record : sampleLate.records attempts Attempt.initial true =
    some ⟨sampleRight, some sampleLockedTeller, none, false, false, false⟩ := by
  rfl

theorem sampleLate_begins : BeginsLocked sampleLate true 0 :=
  ⟨_, sampleLockedTeller, sampleLate_record, rfl, rfl, sampleLockedTeller,
    by simp [sampleLate_rows], rfl, 900000, rfl, by decide⟩

theorem sampleLate_inTime :
    InTimeStep sampleDirectorySettings sampleLate (.call true ⟨.auth .now, (0 : ℤ)⟩) := by
  intro r hr hchecked read hfound hcompare u hu hid hlocked
  obtain rfl := Option.some.inj (sampleLate_record.symm.trans hr)
  obtain rfl := Option.some.inj hfound
  rw [sampleLate_rows] at hu
  obtain rfl := List.mem_singleton.mp hu
  exact hlocked

/-- The fifth failed attempt locks the account, and the right password is refused. -/
theorem login_lockout_sample : sampleFifth.shared.users.rows = [sampleLockedTeller] ∧
    sampleFifth.shared.LocksOut 5 ∧ BeginsLocked sampleLate true 0 ∧
      Refused (sampleLate.advance (Directory.respond sampleDirectorySettings) true 1) true := by
  have h₀ : (sampleBranch 4).LocksOut sampleDirectorySettings.loginLockoutThreshold := by
    intro u hu hle
    obtain rfl := List.mem_singleton.mp hu
    exact absurd hle (by decide)
  have hidle : Idle sampleFifth := by
    intro i p hi
    cases i with
    | false =>
      obtain rfl := Option.some.inj hi
      rfl
    | true => cases hi
  have hawaits : (sampleLate.process true).bind (fun p => p.program.awaits) =
      some (DirectoryOp.auth .now) := by decide +kernel
  have hstep : (logins sampleDirectorySettings).Step sampleLate
      (.call true ⟨.auth .now,
        (Directory.respond sampleDirectorySettings sampleLate.shared (.auth .now)).1⟩)
      (sampleLate.advance (Directory.respond sampleDirectorySettings) true 1) :=
    System.step_advance (performs_respond sampleDirectorySettings) (DirectoryOp.auth .now) hawaits
  have hlatest : (Directory.respond sampleDirectorySettings sampleLate.shared (.auth .now)).1 =
      (0 : ℤ) := by decide +kernel
  rw [hlatest] at hstep
  exact ⟨by decide +kernel, (login_lockout (by decide) h₀ sampleFifth_reached).1 hidle,
    sampleLate_begins, (login_lockout (by decide) h₀ sampleLate_reached).2 true 0 _ _
      sampleLate_begins sampleLate_inTime hstep .refl⟩

/-- Two wrong passwords that are compared at once, after three, lock nothing. -/
def sampleGuesses : Logins Bool :=
  let start := (Config.initial (sampleBranch 3) : Logins Bool).put false (some ⟨sampleGuess, [],
    LoginHandler.execute sampleDirectorySettings sampleGuess⟩)
  let both := start.put true (some ⟨sampleGuess, [],
    LoginHandler.execute sampleDirectorySettings sampleGuess⟩)
  let respond := Directory.respond sampleDirectorySettings
  (((both.advance respond false 3).advance respond true 3).advance respond false 3).advance
    respond true 3

/-- The right password, whose row is read before a fifth wrong one locks the account. -/
def sampleOvertaken : Logins Bool :=
  let start := (Config.initial (sampleBranch 4) : Logins Bool).put false (some ⟨sampleRight, [],
    LoginHandler.execute sampleDirectorySettings sampleRight⟩)
  let respond := Directory.respond sampleDirectorySettings
  let read := (start.advance respond false 1).put true (some ⟨sampleGuess, [],
    LoginHandler.execute sampleDirectorySettings sampleGuess⟩)
  read.advance respond true 6

def sampleSignedInUnderLock : Logins Bool :=
  let respond := Directory.respond sampleDirectorySettings
  (sampleOvertaken.advance respond false 1).advance respond false 13

/-- Attempts that are compared at once reach the threshold and lock nothing; and a login whose row
was read before the lock begins its check under it, succeeds and clears it. -/
theorem not_login_lockout :
    (∃ c : Logins Bool, (logins sampleDirectorySettings).Reaches System.NoCrash
      (.initial (sampleBranch 3)) c ∧ Idle c ∧ ¬ c.shared.LocksOut 5) ∧
    ∃ c₁ c₂ c : Logins Bool, (logins sampleDirectorySettings).Reaches System.NoCrash
      (.initial (sampleBranch 4)) c₁ ∧ BeginsLocked c₁ false 0 ∧
      (logins sampleDirectorySettings).Step c₁ (.call false ⟨.auth .now, (0 : ℤ)⟩) c₂ ∧
      (logins sampleDirectorySettings).Reaches System.NoCrash c₂ c ∧ ¬ Refused c false ∧
      c.shared.users.rows.map (fun u => u.lockedUntil) = [none] := by
  have hrespond := performs_respond sampleDirectorySettings
  constructor
  · have hstart : (logins sampleDirectorySettings).Reaches System.NoCrash
        (.initial (sampleBranch 3)) (.initial (sampleBranch 3) : Logins Bool) := .refl
    have hboth := (hstart.tail (System.noCrash_start false sampleGuess)
      (.start sampleGuess rfl)).tail (System.noCrash_start true sampleGuess)
        (.start sampleGuess rfl)
    refine ⟨sampleGuesses, (((hboth.advance_noCrash hrespond false 3).advance_noCrash hrespond
      true 3).advance_noCrash hrespond false 3).advance_noCrash hrespond true 3, ?_, ?_⟩
    · have hdone : ∀ i, (sampleGuesses.process i).map (fun p => p.program.result.isSome) =
          some true := by decide +kernel
      intro i p hi
      simpa [hi] using hdone i
    · have hrows : sampleGuesses.shared.users.rows = [sampleTeller 5] := by decide +kernel
      intro hlocks
      exact hlocks (sampleTeller 5) (by simp [hrows]) (by decide) rfl
  · have hstart : (logins sampleDirectorySettings).Reaches System.NoCrash
        (.initial (sampleBranch 4)) (.initial (sampleBranch 4) : Logins Bool) := .refl
    have hread := (hstart.tail (System.noCrash_start false sampleRight)
      (.start sampleRight rfl)).advance_noCrash hrespond false 1
    have hlocked := (hread.tail (System.noCrash_start true sampleGuess)
      (.start sampleGuess (by decide +kernel))).advance_noCrash hrespond true 6
    have hrecord : sampleOvertaken.records attempts Attempt.initial false =
        some ⟨sampleRight, some (sampleTeller 4), none, false, false, false⟩ := by decide +kernel
    have hrows : sampleOvertaken.shared.users.rows = [sampleLockedTeller] := by decide +kernel
    have hawaits : (sampleOvertaken.process false).bind (fun p => p.program.awaits) =
        some (DirectoryOp.auth .now) := by decide +kernel
    have hstep : (logins sampleDirectorySettings).Step sampleOvertaken
        (.call false ⟨.auth .now,
        (Directory.respond sampleDirectorySettings sampleOvertaken.shared (.auth .now)).1⟩)
        (sampleOvertaken.advance (Directory.respond sampleDirectorySettings) false 1) :=
      System.step_advance hrespond (DirectoryOp.auth .now) hawaits
    have hlatest : (Directory.respond sampleDirectorySettings sampleOvertaken.shared
        (.auth .now)).1 = (0 : ℤ) := by decide +kernel
    rw [hlatest] at hstep
    refine ⟨sampleOvertaken, _, sampleSignedInUnderLock, hlocked, ⟨_, sampleTeller 4, hrecord,
      rfl, rfl, sampleLockedTeller, by simp [hrows], rfl, 900000, rfl, by decide⟩, hstep,
      System.Reaches.refl.advance_noCrash hrespond false 13, ?_, by decide +kernel⟩
    have hdone : (sampleSignedInUnderLock.process false).map
        (fun p => p.program.result.map Except.isOk) = some (some true) := by decide +kernel
    obtain ⟨p, hp, hok⟩ := Option.map_eq_some_iff.mp hdone
    obtain ⟨result, hresult, hisOk⟩ := Option.map_eq_some_iff.mp hok
    intro hrefused
    cases result with
    | error e => cases hisOk
    | ok output => exact (hrefused p hp).1 output hresult

end Auth
