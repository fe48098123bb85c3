import Pivotal.Auth.Calls

/-! Revoking the sessions of a user, or one session, beside the exchanges that are under way.
A family is shut once its tokens are all revoked and no request has saved a successor in it without
having settled. A shut family stays shut as long as no successor is saved for a token that has
been revoked, and a revoking command shuts the families it covers. -/
namespace Auth
open Async (Config Event Label Monitor Process System Written)
open Async.Program (Keeps Obeys Within lift perform)

/-- The refresh token a request presents. -/
def DirectoryJob.presented : DirectoryJob → Option String
  | .refreshTokens input => some input.refreshToken
  | .logout input => some input.refreshToken
  | _ => none

/-- Everything but the lookup of a refresh token, its insertion and its mark. -/
def AuthOp.isPlain : AuthOp → Bool
  | .findByTokenHash _ => false
  | .insert _ => false
  | .markRevoked _ _ _ => false
  | _ => true

def DirectoryOp.isPlain : DirectoryOp → Bool
  | .auth op => op.isPlain
  | _ => true

theorem DirectoryOp.isPlain_of_isManagement (op : DirectoryOp) (h : op.isManagement = true) :
    op.isPlain = true := by
  cases op with
  | auth op => cases op <;> first | rfl | cases h
  | _ => rfl

/-- What a request has found, saved, minted and revoked. -/
structure Session where
  job : DirectoryJob
  found : Option RefreshToken
  missing : Bool
  saved : Option RefreshToken
  known : List (String × String)
  minted : List String
  revoked : List String
  marked : Bool

namespace Session

def initial (job : DirectoryJob) : Session := ⟨job, none, false, none, [], [], [], false⟩

/-- The token that a refresh found good. -/
def exchanging (r : Session) : Option RefreshToken :=
  match r.job with
  | .refreshTokens _ => r.found.filter fun t => t.revokedAt.isNone
  | _ => none

def afterFind (r : Session) : Except AuthError (Option RefreshToken) → Session
  | .ok (some token) => { r with found := some token }
  | .ok none => { r with missing := true }
  | .error _ => r

/-- The row that `id` was answered with. -/
def afterFindUser (r : Session) (id : String) : Option String → Session
  | some userId => { r with known := (id, userId) :: r.known }
  | none => r

def afterInsert (r : Session) : Written AuthError Unit → Session
  | .done _ => { r with minted := [], saved := r.exchanging }
  | _ => { r with minted := [] }

def afterMark (r : Session) : Written AuthError Unit → Session
  | .done _ => { r with marked := true }
  | _ => r

def afterRevoke (r : Session) (userId : String) : Written DirectoryError Unit → Session
  | .done _ => { r with revoked := userId :: r.revoked }
  | _ => r

def nextAuth (r : Session) : (op : AuthOp) → AuthAnswer op → Session
  | .findByTokenHash _, a => r.afterFind a
  | .findUser id, a => r.afterFindUser id (a.toOption.bind fun user => user.map User.id)
  | .nextId, a => { r with minted := a :: r.minted }
  | .insert _, a => r.afterInsert a
  | .markRevoked _ _ _, a => r.afterMark a
  | _, _ => r

def next (r : Session) : (op : DirectoryOp) → DirectoryAnswer op → Session
  | .auth op, a => r.nextAuth op a
  | .findUserById id, a => r.afterFindUser id (a.toOption.bind fun user => user.map fun u => u.id)
  | .revokeAllForUser userId _, a => r.afterRevoke userId a
  | _, _ => r

variable (settings : DirectorySettings)

/-- The lookup comes first. A refresh inserts into the family it is exchanging; a login into a
family it has minted. -/
def allowsAuth (r : Session) : AuthOp → Prop
  | .findByTokenHash tokenHash => r.found = none ∧ r.revoked = [] ∧ r.marked = false ∧
    r.job.presented.map settings.sha256Hex = some tokenHash
  | .insert token => (∃ t, r.exchanging = some t ∧ token.familyId = t.familyId ∧
      (t.userId, token.userId) ∈ r.known) ∨
    r.exchanging = none ∧ token.familyId ∈ r.minted
  | .markRevoked id _ _ => ∃ t, r.found = some t ∧ t.revokedAt = none ∧ id = t.id
  | _ => True

def allows (r : Session) : DirectoryOp → Prop
  | .auth op => r.allowsAuth settings op
  | _ => True

/-- The sessions of the user are revoked. -/
def RevokedUser (r : Session) (userId : String) : Prop :=
  ∃ id, (userId, id) ∈ r.known ∧ id ∈ r.revoked

/-- The revoking command has done what it is for. -/
def Effective (r : Session) : Prop :=
  match r.job with
  | .changePassword input => r.RevokedUser input.userId
  | .resetUserPassword input => r.RevokedUser input.targetUserId
  | .logout input => ∀ t, r.found = some t →
    if input.allDevices then t.userId ∈ r.revoked else t.revokedAt.isSome ∨ r.marked = true
  | .refreshTokens _ => ∃ t, r.found = some t ∧ r.saved = some t
  | _ => True

/-- What a request that succeeded has done. -/
def Succeeded (job : DirectoryJob) (r : Session) (result : Except DirectoryError Unit) : Prop :=
  result = .ok () → r.job = job ∧ r.Effective

end Session

def session (settings : DirectorySettings) : Monitor DirectoryOp DirectoryAnswer Session :=
  ⟨Session.next, Session.allows settings⟩

def sessionAuth (settings : DirectorySettings) : Monitor AuthOp AuthAnswer Session :=
  authPart (session settings)

namespace Session

variable (settings : DirectorySettings) {r r' r'' : Session}

/-- What a call other than those of `isPlain` leaves, and what it only adds to. -/
structure Grows (r r' : Session) : Prop where
  job : r'.job = r.job
  found : r'.found = r.found
  saved : r'.saved = r.saved
  marked : r'.marked = r.marked
  known : ∀ p ∈ r.known, p ∈ r'.known
  minted : ∀ a ∈ r.minted, a ∈ r'.minted
  revoked : ∀ u ∈ r.revoked, u ∈ r'.revoked

theorem Grows.refl (r : Session) : r.Grows r :=
  ⟨rfl, rfl, rfl, rfl, fun _ h => h, fun _ h => h, fun _ h => h⟩

theorem Grows.trans (h : r.Grows r') (h' : r'.Grows r'') : r.Grows r'' where
  job := h'.job.trans h.job
  found := h'.found.trans h.found
  saved := h'.saved.trans h.saved
  marked := h'.marked.trans h.marked
  known p hp := h'.known p (h.known p hp)
  minted a ha := h'.minted a (h.minted a ha)
  revoked u hu := h'.revoked u (h.revoked u hu)

theorem Grows.exchanging (h : r.Grows r') : r'.exchanging = r.exchanging := by
  simp only [Session.exchanging, h.job, h.found]

theorem grows_afterFindUser (r : Session) (id : String) (found : Option String) :
    r.Grows (r.afterFindUser id found) := by
  cases found with
  | none => exact .refl r
  | some userId => constructor <;> simp +contextual [afterFindUser]

theorem grows_afterRevoke (r : Session) (userId : String) (a : Written DirectoryError Unit) :
    r.Grows (r.afterRevoke userId a) := by
  cases a with
  | done u => constructor <;> simp +contextual [afterRevoke]
  | _ => exact .refl r

theorem grows_nextAuth (r : Session) {op : AuthOp} (hop : op.isPlain = true) (a : AuthAnswer op) :
    r.Grows (r.nextAuth op a) := by
  cases op with
  | findUser id => exact grows_afterFindUser r id _
  | nextId => constructor <;> simp +contextual [nextAuth]
  | findByTokenHash _ | insert _ | markRevoked _ _ _ => cases hop
  | _ => exact .refl r

theorem grows_next (r : Session) {op : DirectoryOp} (hop : op.isPlain = true)
    (a : DirectoryAnswer op) : r.Grows (r.next op a) := by
  cases op with
  | auth op => exact grows_nextAuth r hop a
  | findUserById id => exact grows_afterFindUser r id _
  | revokeAllForUser userId revokedAt => exact grows_afterRevoke r userId a
  | _ => exact .refl r

theorem allowsAuth_of_isPlain (r : Session) {op : AuthOp} (hop : op.isPlain = true) :
    r.allowsAuth settings op := by
  cases op with
  | findByTokenHash _ | insert _ | markRevoked _ _ _ => cases hop
  | _ => trivial

theorem allows_of_isPlain (r : Session) {op : DirectoryOp} (hop : op.isPlain = true) :
    r.allows settings op := by
  cases op with
  | auth op => exact allowsAuth_of_isPlain settings r hop
  | _ => trivial

theorem exchanging_eq {input : RefreshTokensCommand.Input} {token : RefreshToken}
    (hjob : r.job = .refreshTokens input) (hfound : r.found = some token)
    (hnone : token.revokedAt = none) : r.exchanging = some token := by
  simp [Session.exchanging, hjob, hfound, hnone]

theorem exchanging_eq_some {token : RefreshToken} (h : r.exchanging = some token) :
    (∃ input, r.job = .refreshTokens input) ∧ r.found = some token ∧ token.revokedAt = none := by
  unfold Session.exchanging at h
  split at h
  · rename_i input hjob
    simp only [Option.filter_eq_some_iff, Option.isNone_iff_eq_none] at h
    exact ⟨⟨input, hjob⟩, h⟩
  · cases h

theorem succeeded_error {job : DirectoryJob} (r : Session) (e : DirectoryError) :
    Succeeded job r (.error e) := by
  intro h
  cases h

end Session

namespace Session

section Programs

variable (settings : DirectorySettings) {α : Type}

theorem obeys_plainAuth {p : AuthProgram α} (h : p.Within (·.isPlain)) (r : Session) :
    p.Obeys (sessionAuth settings) r fun r' _ => r.Grows r' := by
  refine Within.keeps (R := r.Grows) h ?_ r (.refl r)
  intro r' op hr hop
  exact ⟨allowsAuth_of_isPlain settings r' hop, fun a => hr.trans (grows_nextAuth r' hop a)⟩

theorem obeys_plain {p : DirectoryProgram α} (h : p.Within (·.isPlain)) (r : Session) :
    p.Obeys (session settings) r fun r' _ => r.Grows r' := by
  refine Within.keeps (R := r.Grows) h ?_ r (.refl r)
  intro r' op hr hop
  exact ⟨allows_of_isPlain settings r' hop, fun a => hr.trans (grows_next r' hop a)⟩

theorem keeps_plain {p : DirectoryProgram α} {R : Session → Prop}
    (hR : ∀ r r', Grows r r' → R r → R r') (h : p.Within (·.isPlain)) :
    p.Keeps (session settings) R := by
  intro r hr
  exact Obeys.mono (obeys_plain settings h r) fun r' _ hgrows => hR r r' hgrows hr

/-- A program that settles without a result, as an entry of the portal. -/
theorem obeys_entry {p : DirectoryProgram α} {r : Session} {job : DirectoryJob}
    (h : p.Obeys (session settings) r fun r' result => ∀ x, result = .ok x → r'.job = job ∧ r'.Effective) :
    (p >>= fun _ => pure ()).Obeys (session settings) r (Succeeded job) := by
  rw [Async.Program.obeys_bind]
  refine Obeys.mono h ?_
  rintro r' (e | x) hr
  · exact succeeded_error r' e
  · exact fun _ => hr x rfl

/-- A request that manages users is not held back, and keeps its job. -/
theorem obeys_management {p : DirectoryProgram α} {job : DirectoryJob}
    (h : p.Within (·.isManagement)) (hjob : ∀ r : Session, r.job = job → r.Effective) :
    (p >>= fun _ => pure ()).Obeys (session settings) (Session.initial job) (Succeeded job) := by
  apply obeys_entry
  refine Obeys.mono (obeys_plain settings (h.mono DirectoryOp.isPlain_of_isManagement) _) ?_
  rintro r _ hr x -
  exact ⟨Grows.job hr, hjob r (Grows.job hr)⟩

variable {token : RefreshToken} {input : RefreshTokensCommand.Input}

/-- A refresh that found a good token, which belongs to `userId`. -/
structure Exchanges (input : RefreshTokensCommand.Input) (token : RefreshToken) (userId : String)
    (r : Session) : Prop where
  job : r.job = .refreshTokens input
  found : r.found = some token
  good : token.revokedAt = none
  known : (token.userId, userId) ∈ r.known

/-- A refresh that succeeds has saved a successor. -/
def Refreshed (input : RefreshTokensCommand.Input) {β : Type} (r : Session) (result : Except AuthError β) :
    Prop := ∀ x, result = .ok x → r.job = .refreshTokens input ∧ r.Effective

theorem refreshed_error {β : Type} (r : Session) (e : AuthError) :
    Refreshed input r (.error e : Except AuthError β) := by
  intro x hx
  cases hx

theorem issueRefreshToken_within (settings : AuthSettings) (sessionExpiresAt : Option Js.Date) :
    (TokenService.issueRefreshToken settings sessionExpiresAt).Within (·.isPlain) :=
  ⟨rfl, fun _ => ⟨rfl, fun _ => trivial⟩⟩

theorem signAccessToken_within (settings : AuthSettings) (user : User) (roleCode : String)
    (permissions : List String) (sessionExpiresAt : Js.Date) :
    (TokenService.signAccessToken settings user roleCode permissions sessionExpiresAt).Within
      (·.isPlain) :=
  ⟨rfl, fun _ => ⟨rfl, fun _ => ⟨rfl, fun _ => trivial⟩⟩⟩

theorem effective_saved {r : Session} (hjob : r.job = .refreshTokens input)
    (hfound : r.found = some token) (hsaved : r.saved = some token) : r.Effective := by
  simp only [Effective, hjob]
  exact ⟨token, hfound, hsaved⟩

theorem obeys_rotate {user : User} (role : Role) {r : Session}
    (h : Exchanges input token user.id r) :
    (RefreshTokensHandler.rotate settings.toAuthSettings token user role).Obeys
      (sessionAuth settings) r (Refreshed input) := by
  apply (obeys_plainAuth settings (issueRefreshToken_within _ _) r).seq
  · intro issued r₁ h₁
    have hexchanging : ∀ id, (r₁.nextAuth .nextId id).exchanging = some token := by
      intro id
      rw [(grows_nextAuth r₁ rfl id).exchanging, h₁.exchanging]
      exact exchanging_eq h.job h.found h.good
    refine ⟨trivial, fun id => ⟨.inl ⟨token, hexchanging id, rfl, h₁.known _ h.known⟩, fun a => ?_⟩⟩
    rcases a with a | e | e
    · refine ⟨trivial, fun revokedAt => ⟨⟨token, h₁.found.trans h.found, h.good, rfl⟩, fun a => ?_⟩⟩
      rcases a with a | e | e
      · have hrest : (do
            let permissions ← lift (← perform (.findPermissionKeys role.id))
            let accessToken ← TokenService.signAccessToken settings.toAuthSettings user role.code
              permissions issued.sessionExpiresAt
            return { accessToken := accessToken
                     refreshToken := issued.plaintext
                     refreshTokenExpiresAt := issued.expiresAt
                     permissions := permissions
                     mustChangePassword := user.mustChangePassword
                     sessionExpiresAt := issued.sessionExpiresAt
                     sessionId := token.familyId } :
            AuthProgram RefreshTokensCommand.Output).Within (·.isPlain) := by
          refine Within.bind (Async.Program.within_perform.mpr rfl) ?_
          intro found
          refine Within.bind (Async.Program.within_lift found) ?_
          intro permissions
          exact Within.bind (signAccessToken_within _ _ _ _ _) fun _ => trivial
        refine Obeys.mono (obeys_plainAuth settings hrest _) ?_
        rintro r₂ result h₂ output rfl
        have hjob : r₂.job = .refreshTokens input := h₂.job.trans (h₁.job.trans h.job)
        refine ⟨hjob, effective_saved hjob (h₂.found.trans (h₁.found.trans h.found)) ?_⟩
        exact h₂.saved.trans (hexchanging id)
      · exact refreshed_error _ e
      · exact refreshed_error _ e
    · exact refreshed_error _ e
    · exact refreshed_error _ e
  · exact fun e r' _ => refreshed_error r' e

theorem obeys_revoked (familyId : String) (e : AuthError) (r : Session) :
    (do RefreshTokenRepository.revokeFamily familyId
        throw e : AuthProgram RefreshTokensCommand.Output).Obeys (sessionAuth settings) r
      (Refreshed input) := by
  refine ⟨trivial, fun _ => ⟨trivial, fun a => ?_⟩⟩
  cases a <;> exact refreshed_error _ _

theorem obeys_exchange {r : Session} (hjob : r.job = .refreshTokens input)
    (hfound : r.found = some token) (hgood : token.revokedAt = none) :
    (RefreshTokensHandler.exchange settings.toAuthSettings token).Obeys (sessionAuth settings) r
      (Refreshed input) := by
  apply Obeys.afterPerform trivial
  intro found
  apply Obeys.afterLift (fun e => refreshed_error _ e)
  rintro (_ | user) hok
  · exact obeys_revoked settings _ _ _
  · by_cases hactive : user.isActive
    · simp only [hactive, Bool.not_true, Bool.false_eq_true, if_false]
      apply Obeys.afterPerform trivial
      intro role
      apply Obeys.afterLift (fun e => refreshed_error _ e)
      rintro (_ | role) _
      · exact refreshed_error _ _
      · apply obeys_rotate settings role
        have hknown : (token.userId, user.id) ∈ (r.nextAuth (.findUser token.userId) found).known := by
          simp [nextAuth, hok, Except.toOption, afterFindUser]
        have hgrows : r.Grows (r.nextAuth (.findUser token.userId) found) :=
          grows_nextAuth r rfl found
        exact ⟨hgrows.job.trans hjob, hgrows.found.trans hfound, hgood, hknown⟩
    · simp only [hactive, Bool.not_false, if_true]
      exact obeys_revoked settings _ _ _

theorem refreshed_execute (input : RefreshTokensCommand.Input) :
    (RefreshTokensHandler.execute settings.toAuthSettings input).Obeys (sessionAuth settings)
      (.initial (.refreshTokens input)) (Refreshed input) := by
  refine ⟨⟨rfl, rfl, rfl, rfl⟩, fun found => ?_⟩
  rcases found with e | _ | token
  · exact refreshed_error _ e
  · exact refreshed_error _ _
  · apply Obeys.afterPerform trivial
    intro now
    cases hexp : RefreshTokensHandler.expired token now with
    | some reason => exact obeys_revoked settings _ _ _
    | none =>
      by_cases hrev : token.revokedAt.isSome
      · simp only [hrev, if_true]
        exact obeys_revoked settings _ _ _
      · simp only [hrev, if_neg (Bool.false_ne_true)]
        apply obeys_exchange settings
        · rfl
        · rfl
        · simpa using hrev

theorem obeys_refreshTokens (input : RefreshTokensCommand.Input) :
    (DirectoryJob.execute settings (.refreshTokens input)).Obeys (session settings)
      (.initial (.refreshTokens input)) (Succeeded (.refreshTokens input)) := by
  apply obeys_entry
  apply obeys_ofAuth
  refine Obeys.mono (refreshed_execute settings input) ?_
  rintro r (e | output) hr
  · rintro x ⟨⟩
  · exact fun x _ => hr output rfl

theorem ofAuth_within {p : AuthProgram α} (h : p.Within (·.isPlain)) :
    (ofAuth p).Within (·.isPlain) := by
  apply Within.mapError
  exact Within.embed (P := fun op : DirectoryOp => op.isPlain = true) h

/-- A login that has minted the family of its session. -/
def Opens (input : LoginCommand.Input) (familyId : String) (r : Session) : Prop :=
  r.job = .login input ∧ familyId ∈ r.minted

theorem opens_grows {input : LoginCommand.Input} {familyId : String} (r r' : Session)
    (hgrows : r.Grows r') (h : Opens input familyId r) : Opens input familyId r' :=
  ⟨hgrows.job.trans h.1, hgrows.minted _ h.2⟩

theorem saveSession_keeps {input : LoginCommand.Input} {familyId : String}
    (entity : String → RefreshToken) (hfamily : ∀ id, (entity id).familyId = familyId)
    {r : Session} (h : Opens input familyId r) :
    (ofAuth (RefreshTokenRepository.save entity)).Obeys (session settings) r
      fun r' _ => r'.job = .login input := by
  refine ⟨trivial, fun id => ⟨.inr ⟨?_, ?_⟩, fun a => ?_⟩⟩
  · have hjob : ((session settings).next r (.auth .nextId) id).job = .login input := h.1
    simp only [exchanging, hjob]
  · rw [hfamily]
    exact List.mem_cons_of_mem _ h.2
  · cases a <;> exact h.1

theorem keeps_openSession (input : LoginCommand.Input) (user : Account) :
    (LoginHandler.openSession settings user).Keeps (session settings)
      fun r => r.job = .login input := by
  have hjob : ∀ r r' : Session, r.Grows r' → r.job = .login input → r'.job = .login input :=
    fun r r' hgrows hr => hgrows.job.trans hr
  refine Keeps.bind (keeps_plain settings hjob (answer_within rfl)) ?_
  rintro (_ | role)
  · exact Async.Program.keeps_throw _
  refine Keeps.bind (keeps_plain settings hjob (stamped_within rfl fun _ => rfl)) ?_
  intro _
  refine Keeps.bind (keeps_plain settings hjob (answer_within rfl)) ?_
  intro permissions r hr
  apply Obeys.afterPerform trivial
  intro familyId
  have hopens : Opens input familyId (r.next (.auth .nextId) familyId) :=
    ⟨hr, List.mem_cons_self ..⟩
  have herror : ∀ (e : DirectoryError) (r' : Session), Opens input familyId r' →
      r'.job = .login input := fun _ _ h => h.1
  refine (keeps_plain settings opens_grows (ofAuth_within (issueRefreshToken_within _ _)) _
    hopens).seq ?_ herror
  intro issued r₁ h₁
  refine (keeps_plain settings opens_grows (ofAuth_within (signAccessToken_within _ _ _ _ _)) _
    h₁).seq ?_ herror
  intro accessToken r₂ h₂
  apply (saveSession_keeps settings (RefreshToken.new user.id familyId _ _ _) (fun _ => rfl) h₂).seq
  · exact fun _ _ h => h
  · exact fun _ _ h => h

theorem handleFailedAttempt_within (userId : String) (attemptCount : ℕ) :
    (LoginHandler.handleFailedAttempt settings userId attemptCount).Within (·.isPlain) := by
  refine Within.bind (answer_within rfl) ?_
  intro _
  split
  · refine Within.bind (Async.Program.within_perform.mpr rfl) ?_
    intro now
    refine Within.bind (answer_within rfl) ?_
    intro _
    exact Async.Program.within_pure _
  · exact Async.Program.within_pure _

theorem obeys_login (input : LoginCommand.Input) :
    (DirectoryJob.execute settings (.login input)).Obeys (session settings)
      (.initial (.login input)) (Succeeded (.login input)) := by
  have hjob : ∀ r r' : Session, r.Grows r' → r.job = .login input → r'.job = .login input :=
    fun r r' hgrows hr => hgrows.job.trans hr
  have hkeeps : (LoginHandler.execute settings input).Keeps (session settings)
      fun r => r.job = .login input := by
    refine Keeps.bind (keeps_plain settings hjob (answer_within rfl)) ?_
    rintro (_ | user)
    · exact Async.Program.keeps_throw _
    apply Keeps.unless
    refine Keeps.bind (keeps_plain settings hjob (Async.Program.within_perform.mpr rfl)) ?_
    intro now
    apply Keeps.unless
    refine Keeps.bind (keeps_plain settings hjob (answer_within rfl)) ?_
    intro passwordValid
    split
    · refine Keeps.bind (keeps_plain settings hjob (handleFailedAttempt_within settings _ _)) ?_
      intro locked
      split <;> exact Async.Program.keeps_throw _
    · exact keeps_openSession settings input user
  apply obeys_entry
  refine Obeys.mono (hkeeps _ rfl) ?_
  intro r result hr _ _
  exact ⟨hr, by simp [Effective, hr]⟩

/-- The request knows the row of `id`, whose identifier is `userId`. -/
def Identifies (job : DirectoryJob) (id userId : String) (r : Session) : Prop :=
  r.job = job ∧ (id, userId) ∈ r.known

theorem identifies_grows {job : DirectoryJob} {id userId : String} (r r' : Session)
    (hgrows : r.Grows r') (h : Identifies job id userId r) : Identifies job id userId r' :=
  ⟨hgrows.job.trans h.1, hgrows.known _ h.2⟩

/-- A command that succeeds has revoked the sessions of the row it was given by `id`. -/
def Revokes (job : DirectoryJob) (id : String) (r : Session) (result : Except DirectoryError α) : Prop :=
  ∀ x, result = .ok x → r.job = job ∧ r.RevokedUser id

theorem revokes_error {job : DirectoryJob} {id : String} (r : Session) (e : DirectoryError) :
    Revokes job id r (.error e : Except DirectoryError α) := by
  intro x hx
  cases hx

/-- A step that only adds to the record, and what follows it. -/
theorem obeys_identified {β : Type} {job : DirectoryJob} {id userId : String} {r : Session}
    {p : DirectoryProgram β} {f : β → DirectoryProgram α} (h : Identifies job id userId r)
    (hp : p.Within (·.isPlain)) (hf : ∀ b r', Identifies job id userId r' →
      (f b).Obeys (session settings) r' (Revokes job id)) :
    (p >>= f).Obeys (session settings) r (Revokes job id) := by
  apply (keeps_plain settings identifies_grows hp r h).seq hf
  exact fun e r' _ => revokes_error r' e

theorem obeys_revokeAllForUser {job : DirectoryJob} {id userId : String} {r : Session}
    {f : Unit → DirectoryProgram α} (h : Identifies job id userId r)
    (hf : ∀ u, (f u).Within (·.isPlain)) :
    (RefreshTokenRepository.revokeAllForUser userId >>= f).Obeys (session settings) r
      (Revokes job id) := by
  refine ⟨trivial, fun now => ⟨trivial, fun a => ?_⟩⟩
  rcases a with a | e | e
  · refine Obeys.mono (obeys_plain settings (hf a) _) ?_
    intro r' _ hgrows x _
    refine ⟨hgrows.job.trans h.1, userId, hgrows.known _ h.2, hgrows.revoked _ ?_⟩
    exact List.mem_cons_self ..
  · exact revokes_error _ e
  · exact revokes_error _ e

/-- What a sign-out does once its token is found. -/
theorem logout_found {input : LogoutCommand.Input} {r : Session} (hjob : r.job = .logout input)
    (hfound : r.found = some token) :
    (do
      if input.allDevices then
        RefreshTokenRepository.revokeAllForUser token.userId
        return true
      else if token.revokedAt.isNone then
        ofAuth (RefreshTokenRepository.markRevoked token.id none)
        return true
      else
        return true : DirectoryProgram Bool).Obeys (session settings) r
      fun r' result => ∀ x, result = .ok x → r'.job = .logout input ∧ r'.Effective := by
  have heffective : ∀ r' : Session, r'.job = .logout input → r'.found = some token →
      (if input.allDevices then token.userId ∈ r'.revoked
        else token.revokedAt.isSome ∨ r'.marked = true) → r'.Effective := by
    intro r' hjob' hfound' h
    simp only [Effective, hjob']
    intro t ht
    obtain rfl : token = t := Option.some.inj (hfound'.symm.trans ht)
    exact h
  by_cases hall : input.allDevices
  · simp only [hall, if_true]
    refine ⟨trivial, fun now => ⟨trivial, fun a => ?_⟩⟩
    rcases a with a | e | e
    · refine fun x _ => ⟨hjob, heffective _ hjob hfound ?_⟩
      rw [if_pos hall]
      exact List.mem_cons_self ..
    · rintro x ⟨⟩
    · rintro x ⟨⟩
  · simp only [hall, Bool.false_eq_true, if_false]
    by_cases hnone : token.revokedAt.isNone
    · simp only [hnone, if_true]
      refine ⟨trivial, fun now => ⟨⟨token, hfound, by simpa using hnone, rfl⟩, fun a => ?_⟩⟩
      rcases a with a | e | e
      · refine fun x _ => ⟨hjob, heffective _ hjob hfound ?_⟩
        rw [if_neg hall]
        exact .inr rfl
      · rintro x ⟨⟩
      · rintro x ⟨⟩
    · simp only [hnone, Bool.false_eq_true, if_false]
      refine fun x _ => ⟨hjob, heffective _ hjob hfound ?_⟩
      rw [if_neg hall]
      left
      simpa [Option.isSome_iff_ne_none] using hnone

theorem obeys_logout (input : LogoutCommand.Input) :
    (DirectoryJob.execute settings (.logout input)).Obeys (session settings)
      (.initial (.logout input)) (Succeeded (.logout input)) := by
  apply obeys_entry
  refine ⟨⟨rfl, rfl, rfl, rfl⟩, fun found => ?_⟩
  rcases found with e | _ | existing
  · rintro x ⟨⟩
  · refine fun x _ => ⟨rfl, ?_⟩
    rintro t ⟨⟩
  · exact logout_found settings rfl rfl

theorem revokes_changePassword (input : ChangePasswordCommand.Input) :
    (ChangePasswordHandler.execute input).Obeys (session settings)
      (.initial (.changePassword input)) (Revokes (.changePassword input) input.userId) := by
  apply Obeys.afterPerform trivial
  intro found
  apply Obeys.afterLift (fun e => revokes_error _ e)
  rintro (_ | user) hok
  · exact revokes_error _ _
  have hidentifies : Identifies (.changePassword input) input.userId user.id
      ((Session.initial (.changePassword input)).next (.findUserById input.userId) found) := by
    simp [Identifies, next, hok, Except.toOption, afterFindUser, initial]
  by_cases hactive : user.isActive
  · simp only [hactive, Bool.not_true, Bool.false_eq_true, if_false]
    apply obeys_identified settings hidentifies (answer_within rfl)
    intro currentValid r₁ h₁
    split
    · exact revokes_error _ _
    apply obeys_identified settings h₁ (answer_within rfl)
    intro isSamePassword r₂ h₂
    split
    · exact revokes_error _ _
    apply obeys_identified settings h₂ (answer_within rfl)
    intro newHash r₃ h₃
    apply obeys_identified settings h₃ (answer_within rfl)
    intro _ r₄ h₄
    apply obeys_revokeAllForUser settings h₄
    intro _
    refine Within.bind (stamped_within rfl fun _ => rfl) ?_
    exact fun _ => Async.Program.within_pure _
  · simp only [hactive, Bool.not_false, if_true]
    exact revokes_error _ _

theorem revokes_resetUserPassword (input : ResetUserPasswordCommand.Input) :
    (ResetUserPasswordHandler.execute input).Obeys (session settings)
      (.initial (.resetUserPassword input))
      (Revokes (.resetUserPassword input) input.targetUserId) := by
  have hrest : ∀ (user : Account) (context : UserManagementContext) (r : Session),
      Identifies (.resetUserPassword input) input.targetUserId user.id r →
      (do
        let role ← nonNull (← RoleRepository.findById user.roleId)
        UserManagementPolicy.assertCanManageTargetRole context user role
        let tempPassword ← perform .generateTempPassword
        let passwordHash ← PasswordService.hash tempPassword
        UserRepository.updatePasswordHash user.id passwordHash true
        RefreshTokenRepository.revokeAllForUser user.id
        UserRepository.invalidateTokens user.id
        let refreshed ← UserRepository.findById user.id
        return { user := refreshed, role := role, tempPassword := tempPassword } :
        DirectoryProgram ResetUserPasswordCommand.Output).Obeys (session settings) r
          (Revokes (.resetUserPassword input) input.targetUserId) := by
    intro user context r hr
    apply obeys_identified settings hr (answer_within rfl)
    intro found r₁ h₁
    apply obeys_identified settings h₁ (nonNull_within found)
    intro role r₂ h₂
    apply obeys_identified settings h₂ (assertCanManageTargetRole_within context user role)
    intro _ r₃ h₃
    apply obeys_identified settings h₃ (Async.Program.within_perform.mpr rfl)
    intro tempPassword r₄ h₄
    apply obeys_identified settings h₄ (answer_within rfl)
    intro passwordHash r₅ h₅
    apply obeys_identified settings h₅ (answer_within rfl)
    intro _ r₆ h₆
    apply obeys_revokeAllForUser settings h₆
    intro _
    refine Within.bind (stamped_within rfl fun _ => rfl) ?_
    intro _
    refine Within.bind (answer_within rfl) ?_
    exact fun _ => Async.Program.within_pure _
  have hcontext := within_management (resolveManagementContext_within input.actingUserId)
  apply (obeys_plain settings (hcontext.mono DirectoryOp.isPlain_of_isManagement) _).seq
  · intro context r hgrows
    apply Obeys.afterPerform trivial
    intro found
    apply Obeys.afterLift (fun e => revokes_error _ e)
    rintro (_ | user) hok
    · exact revokes_error _ _
    · apply hrest user context
      have hjob : r.job = .resetUserPassword input := hgrows.job
      simp [Identifies, session, next, hok, Except.toOption, afterFindUser, hjob]
  · exact fun e r' _ => revokes_error r' e

theorem obeys_job (job : DirectoryJob) :
    (job.execute settings).Obeys (session settings) (.initial job) (Succeeded job) := by
  cases job with
  | login input => exact obeys_login settings input
  | refreshTokens input => exact obeys_refreshTokens settings input
  | logout input => exact obeys_logout settings input
  | changePassword input =>
    apply obeys_entry
    refine Obeys.mono (revokes_changePassword settings input) ?_
    intro r result h x hx
    refine ⟨(h x hx).1, ?_⟩
    simp only [Effective, (h x hx).1]
    exact (h x hx).2
  | resetUserPassword input =>
    apply obeys_entry
    refine Obeys.mono (revokes_resetUserPassword settings input) ?_
    intro r result h x hx
    refine ⟨(h x hx).1, ?_⟩
    simp only [Effective, (h x hx).1]
    exact (h x hx).2
  | createUser input =>
    apply obeys_management settings (createUser_within input)
    intro r hr
    simp [Effective, hr]
  | updateUser input =>
    apply obeys_management settings (updateUser_within input)
    intro r hr
    simp [Effective, hr]
  | deactivateUser input =>
    apply obeys_management settings (deactivateUser_within input)
    intro r hr
    simp [Effective, hr]
  | replaceRolePermissions input =>
    apply obeys_management settings (replaceRolePermissions_within input)
    intro r hr
    simp [Effective, hr]

end Programs
end Session
end Auth
