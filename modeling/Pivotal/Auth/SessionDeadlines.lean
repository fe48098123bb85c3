import Pivotal.Auth.Calls

/-! The deadline of a session: set when a login's token is issued, and carried from row to row by
the refreshes of its family. -/
namespace Auth
open Async (Config Event Label Monitor System update_eq_some)
open Async.Program (Keeps Obeys Within lift perform)

/-- The row as the columns hold it: `expires_at` keeps no fractions of a second, and
`session_expires_at` keeps them. -/
def RefreshToken.stored (column : DatetimeColumn) (token : RefreshToken) : RefreshToken :=
  { token with expiresAt := column.store token.expiresAt }

/-- `Directory.performs`, with the precision of the columns of `refresh_tokens`. -/
def Directory.performsDated (settings : DirectorySettings) (d : Directory) :
    (op : DirectoryOp) → DirectoryAnswer op → Directory → Prop
  | .auth (.insert token), a, d' =>
    d.performs settings (.auth (.insert (token.stored settings.datetime))) a d'
  | op, a, d' => d.performs settings op a d'

/-- The requests that start a session, or go on with one. -/
inductive SessionJob where
  | login (input : LoginCommand.Input)
  | refreshTokens (input : RefreshTokensCommand.Input)
  deriving DecidableEq

def SessionJob.execute (settings : DirectorySettings) : SessionJob → DirectoryProgram Unit
  | .login input => do let _ ← LoginHandler.execute settings input
  | .refreshTokens input => do
    let _ ← ofAuth (RefreshTokensHandler.execute settings.toAuthSettings input)

/-- What all other requests do: tokens are revoked or taken away, identifiers are minted, and
users, roles and permissions change in any way. -/
def Directory.Elapses (d d' : Directory) : Prop :=
  (∀ id ∈ d.issued, id ∈ d'.issued) ∧ ∀ row ∈ d'.refreshTokens.rows, ∃ old ∈ d.refreshTokens.rows,
    row = { old with revokedAt := row.revokedAt, replacedBy := row.replacedBy }

/-- Any number of them on any replicas, over one directory. -/
def sessions (settings : DirectorySettings) :
    System DirectoryOp DirectoryAnswer DirectoryError Unit SessionJob Directory where
  entry job := job.execute settings
  perform := Directory.performsDated settings
  background := Directory.Elapses

/-- Whether an execution is a refresh, the family it issues tokens of, the token it has found, the
first time it has read, whether it has drawn a secret, and the deadline of what it issues. -/
structure Tenure where
  refreshes : Bool
  family : Option String
  found : Option RefreshToken
  checked : Option Js.Date
  drawn : Bool
  deadline : Option Js.Date

namespace Tenure

variable (settings : DirectorySettings)

def initial (job : SessionJob) : Tenure :=
  ⟨job matches .refreshTokens _, none, none, none, false, none⟩

def afterFind (r : Tenure) : Except AuthError (Option RefreshToken) → Tenure
  | .ok (some token) =>
    if r.refreshes && r.family.isNone then
      { r with family := some token.familyId, found := some token }
    else r
  | _ => r

/-- The last identifier before the first secret names the family of a login. -/
def afterNextId (r : Tenure) (id : String) : Tenure :=
  if r.found.isNone && !r.drawn then { r with family := some id } else r

/-- The deadline of what was found, or one of its own. -/
def deadlineAt (r : Tenure) (now : Js.Date) : Option Js.Date :=
  match r.found with
  | some token => token.sessionExpiresAt
  | none => some (now + settings.sessionAbsoluteTimeoutHours * 3600000)

def afterNow (r : Tenure) (now : Js.Date) : Tenure :=
  if r.drawn then { r with deadline := r.deadline <|> r.deadlineAt settings now }
  else { r with checked := r.checked <|> some now }

def nextAuth (r : Tenure) : (op : AuthOp) → AuthAnswer op → Tenure
  | .findByTokenHash _, a => r.afterFind a
  | .nextId, a => r.afterNextId a
  | .randomBytes, _ => { r with drawn := true }
  | .now, a => r.afterNow settings a
  | _, _ => r

def next (r : Tenure) : (op : DirectoryOp) → DirectoryAnswer op → Tenure
  | .auth op, a => r.nextAuth settings op a
  | _, _ => r

/-- A token is looked up before one is dated, and one secret is drawn. What is issued belongs to the
family, and ends by the deadline. -/
def allowsAuth (r : Tenure) : AuthOp → Prop
  | .findByTokenHash _ => r.deadline = none
  | .randomBytes => r.drawn = false
  | .insert token => r.family = some token.familyId ∧
    ∃ deadline, r.deadline = some deadline ∧ token.sessionExpiresAt = some deadline ∧
      token.expiresAt ≤ deadline
  | .sign claims => ∃ deadline, r.deadline = some deadline ∧ claims.exp * 1000 ≤ deadline
  | _ => True

def allows (r : Tenure) : DirectoryOp → Prop
  | .auth op => r.allowsAuth op
  | _ => True

end Tenure

def tenure (settings : DirectorySettings) : Monitor DirectoryOp DirectoryAnswer Tenure :=
  ⟨Tenure.next settings, Tenure.allows⟩

/-- A call that neither looks up a token, nor draws a secret, nor issues a token. -/
def AuthOp.issuesNothing : AuthOp → Bool
  | .findByTokenHash _ => false
  | .randomBytes => false
  | .insert _ => false
  | .sign _ => false
  | _ => true

def DirectoryOp.issuesNothing : DirectoryOp → Bool
  | .auth op => op.issuesNothing
  | _ => true

namespace Tenure

variable (settings : DirectorySettings) {r r' : Tenure} {α : Type}

/-- Nothing has been found, and no secret was drawn. -/
def Before (r : Tenure) : Prop := r.found = none ∧ r.drawn = false ∧ r.deadline = none

/-- A secret was drawn, and its token is dated. -/
def Dated (familyId : String) (deadline : Js.Date) (r : Tenure) : Prop :=
  r.family = some familyId ∧ r.drawn = true ∧ r.deadline = some deadline

/-- What was found and when the clock was first read after it. -/
def Checked (existing : RefreshToken) (now : Js.Date) (r : Tenure) : Prop :=
  r.found = some existing ∧ r.family = some existing.familyId ∧ r.checked = some now

/-- A login finds nothing, and dates nothing before its secret. -/
def Starts (r : Tenure) : Prop :=
  r.refreshes = false ∧ r.found = none ∧ (r.drawn = false → r.deadline = none)

theorem next_findByTokenHash (hash : String)
    (a : Except AuthError (Option RefreshToken)) :
    r.next settings (.auth (.findByTokenHash hash)) a = r.afterFind a := rfl

theorem next_nextId (id : String) : r.next settings (.auth .nextId) id = r.afterNextId id := rfl

theorem next_now (now : Js.Date) : r.next settings (.auth .now) now = r.afterNow settings now := rfl

theorem starts_next (h : r.Starts) (op : DirectoryOp) (a : DirectoryAnswer op) :
    (r.next settings op a).Starts := by
  obtain ⟨hlogin, hfound, hdated⟩ := h
  cases op with
  | auth op =>
    cases op with
    | findByTokenHash _ =>
      rcases a with e | _ | token
      · exact ⟨hlogin, hfound, hdated⟩
      · exact ⟨hlogin, hfound, hdated⟩
      · simp only [next_findByTokenHash, afterFind, hlogin, Bool.false_and, Bool.false_eq_true, if_false]
        exact ⟨hlogin, hfound, hdated⟩
    | nextId =>
      simp only [next_nextId, afterNextId]
      split <;> exact ⟨hlogin, hfound, hdated⟩
    | randomBytes => exact ⟨hlogin, hfound, fun hdrawn => by cases hdrawn⟩
    | now =>
      simp only [next_now, afterNow]
      split
      · rename_i hdrawn
        exact ⟨hlogin, hfound, fun hnot => by cases hdrawn.symm.trans hnot⟩
      · exact ⟨hlogin, hfound, hdated⟩
    | _ => exact ⟨hlogin, hfound, hdated⟩
  | _ => exact ⟨hlogin, hfound, hdated⟩

theorem before_next (h : r.Before) {op : DirectoryOp} (hop : op.issuesNothing = true)
    (a : DirectoryAnswer op) : (r.next settings op a).Before := by
  obtain ⟨hfound, hdrawn, hdeadline⟩ := h
  cases op with
  | auth op =>
    cases op with
    | findByTokenHash _ | randomBytes | insert _ | sign _ => cases hop
    | nextId => simp [next_nextId, afterNextId, Before, hfound, hdrawn, hdeadline]
    | now => simp [next_now, afterNow, Before, hfound, hdrawn, hdeadline]
    | _ => exact ⟨hfound, hdrawn, hdeadline⟩
  | _ => exact ⟨hfound, hdrawn, hdeadline⟩

theorem dated_next {familyId : String} {deadline : Js.Date} (h : r.Dated familyId deadline)
    (op : DirectoryOp) (a : DirectoryAnswer op) :
    (r.next settings op a).Dated familyId deadline := by
  obtain ⟨hfamily, hdrawn, hdeadline⟩ := h
  cases op with
  | auth op =>
    cases op with
    | findByTokenHash _ =>
      rcases a with e | _ | token <;>
        simp [next_findByTokenHash, afterFind, Dated, hfamily, hdrawn, hdeadline]
    | nextId => simp [next_nextId, afterNextId, Dated, hfamily, hdrawn, hdeadline]
    | now => simp [next_now, afterNow, Dated, hfamily, hdrawn, hdeadline]
    | randomBytes => exact ⟨hfamily, rfl, hdeadline⟩
    | _ => exact ⟨hfamily, hdrawn, hdeadline⟩
  | _ => exact ⟨hfamily, hdrawn, hdeadline⟩

theorem checked_next {existing : RefreshToken} {now : Js.Date} (h : r.Checked existing now)
    (op : DirectoryOp) (a : DirectoryAnswer op) : (r.next settings op a).Checked existing now := by
  obtain ⟨hfound, hfamily, hchecked⟩ := h
  cases op with
  | auth op =>
    cases op with
    | findByTokenHash _ =>
      rcases a with e | _ | token <;>
        simp [next_findByTokenHash, afterFind, Checked, hfamily, hfound, hchecked]
    | nextId => simp [next_nextId, afterNextId, Checked, hfamily, hfound, hchecked]
    | now =>
      simp only [next_now, afterNow]
      split <;> simp [Checked, hfamily, hfound, hchecked]
    | _ => exact ⟨hfound, hfamily, hchecked⟩
  | _ => exact ⟨hfound, hfamily, hchecked⟩

/-- A deadline that was set stays. -/
theorem deadline_next {deadline : Js.Date} (h : r.deadline = some deadline) (op : DirectoryOp)
    (a : DirectoryAnswer op) : (r.next settings op a).deadline = some deadline := by
  cases op with
  | auth op =>
    cases op with
    | findByTokenHash _ =>
      rcases a with e | _ | token
      · exact h
      · exact h
      · simp only [next_findByTokenHash, afterFind]
        split <;> exact h
    | nextId =>
      simp only [next_nextId, afterNextId]
      split <;> exact h
    | now =>
      simp only [next_now, afterNow]
      split
      · simp [h]
      · exact h
    | _ => exact h
  | _ => exact h

theorem allows_of_issuesNothing (r : Tenure) {op : DirectoryOp} (hop : op.issuesNothing = true) :
    r.allows op := by
  cases op with
  | auth op =>
    cases op with
    | findByTokenHash _ | randomBytes | insert _ | sign _ => cases hop
    | _ => trivial
  | _ => trivial

/-- A call that issues nothing but what belongs to the family and ends by the deadline. -/
def Ends (familyId : String) (deadline : Js.Date) : DirectoryOp → Prop
  | .auth (.findByTokenHash _) => False
  | .auth .randomBytes => False
  | .auth (.insert token) => token.familyId = familyId ∧ token.sessionExpiresAt = some deadline ∧
    token.expiresAt ≤ deadline
  | .auth (.sign claims) => claims.exp * 1000 ≤ deadline
  | _ => True

theorem Dated.allows {familyId : String} {deadline : Js.Date} (h : r.Dated familyId deadline)
    {op : DirectoryOp} (hop : Ends familyId deadline op) : r.allows op := by
  obtain ⟨hfamily, -, hdeadline⟩ := h
  cases op with
  | auth op =>
    cases op with
    | findByTokenHash _ | randomBytes => exact hop.elim
    | insert token =>
      obtain ⟨rfl, hsession, hexpires⟩ := hop
      exact ⟨hfamily, deadline, hdeadline, hsession, hexpires⟩
    | sign claims => exact ⟨deadline, hdeadline, hop⟩
    | _ => trivial
  | _ => trivial

theorem keeps_before {p : DirectoryProgram α} (h : p.Within (·.issuesNothing)) :
    p.Keeps (tenure settings) Before :=
  Within.keeps h fun r _ hr hop =>
    ⟨allows_of_issuesNothing r hop, fun a => before_next settings hr hop a⟩

section Issued

variable {familyId : String} {deadline : Js.Date} {C : Tenure → Prop}

/-- Once the token is dated, whatever is issued ends by its deadline. -/
theorem keeps_dated (hC : ∀ r op a, C r → C (Tenure.next settings r op a))
    {p : DirectoryProgram α} (h : p.Within (Ends familyId deadline)) :
    p.Keeps (tenure settings) fun r => r.Dated familyId deadline ∧ C r :=
  Within.keeps h fun _ op hr hop =>
    ⟨hr.1.allows hop, fun a => ⟨dated_next settings hr.1 op a, hC _ op a hr.2⟩⟩

theorem keepsAuth_dated (hC : ∀ r op a, C r → C (Tenure.next settings r op a))
    {p : AuthProgram α} (h : p.Within fun op => Ends familyId deadline (.auth op)) :
    p.Keeps (authPart (tenure settings)) fun r => r.Dated familyId deadline ∧ C r :=
  Within.keeps h fun r op hr hop =>
    have hallows : r.allows (.auth op) := hr.1.allows hop
    ⟨hallows, fun a => ⟨dated_next settings hr.1 (.auth op) a, hC _ (.auth op) a hr.2⟩⟩

/-- The token is dated when its secret has been drawn and the clock is read. -/
theorem obeys_issueRefreshToken (hC : ∀ r op a, C r → C (Tenure.next settings r op a))
    {sessionExpiresAt : Option Js.Date} (hfamily : r.family = some familyId)
    (hdrawn : r.drawn = false) (hnone : r.deadline = none) (hr : C r)
    (hdeadline : ∀ now, r.deadlineAt settings now =
      some (sessionExpiresAt.getD (now + settings.sessionAbsoluteTimeoutHours * 3600000))) :
    (TokenService.issueRefreshToken settings.toAuthSettings sessionExpiresAt).Obeys
      (authPart (tenure settings)) r fun r' result => ∀ issued, result = .ok issued →
        (r'.Dated familyId issued.sessionExpiresAt ∧ C r') ∧
          issued.expiresAt ≤ issued.sessionExpiresAt := by
  refine ⟨hdrawn, fun secret => ⟨trivial, fun now => ?_⟩⟩
  rintro issued ⟨⟩
  have hkept := hC _ (.auth .now) now (hC _ (.auth .randomBytes) secret hr)
  refine ⟨⟨⟨?_, ?_, ?_⟩, hkept⟩, min_le_right _ _⟩
  · simpa [authPart, tenure, next, nextAuth, afterNow] using hfamily
  · simp [authPart, tenure, next, nextAuth, afterNow]
  · have hset := hdeadline now
    simp only [deadlineAt] at hset
    simp [authPart, tenure, next, nextAuth, afterNow, hnone, deadlineAt, hset]

theorem signAccessToken_ends (user : User) (roleCode : String) (permissions : List String) :
    (TokenService.signAccessToken settings.toAuthSettings user roleCode permissions
      deadline).Within fun op => Ends familyId deadline (.auth op) := by
  refine ⟨trivial, fun now => ⟨trivial, fun jti => ⟨?_, fun _ => trivial⟩⟩⟩
  simp only [Ends]
  omega

theorem save_ends {entity : String → RefreshToken}
    (h : ∀ id, Ends familyId deadline (.auth (.insert (entity id)))) :
    (RefreshTokenRepository.save entity).Within fun op => Ends familyId deadline (.auth op) := by
  refine ⟨trivial, fun id => ⟨h id, fun a => ?_⟩⟩
  cases a <;> trivial

theorem ofAuth_ends {p : AuthProgram α} (h : p.Within fun op => Ends familyId deadline (.auth op)) :
    (ofAuth p).Within (Ends familyId deadline) := by
  apply Within.mapError
  exact Within.embed h

end Issued

section Login

theorem handleFailedAttempt_issuesNothing (userId : String) (attemptCount : ℕ) :
    (LoginHandler.handleFailedAttempt settings userId attemptCount).Within (·.issuesNothing) := by
  refine Within.bind (answer_within rfl) ?_
  intro _
  split
  · refine Within.bind (Async.Program.within_perform.mpr rfl) ?_
    intro now
    exact Within.bind (answer_within rfl) fun _ => trivial
  · trivial

/-- Nothing is said of how a login ends. -/
abbrev Any {β : Type} (_ : Tenure) (_ : Except DirectoryError β) : Prop := True

/-- A step before the first secret, and what follows it. -/
theorem obeys_before {β : Type} {p : DirectoryProgram β} {f : β → DirectoryProgram α}
    (hr : r.Before) (hp : p.Within (·.issuesNothing))
    (hf : ∀ b r', Before r' → (f b).Obeys (tenure settings) r' Any) :
    (p >>= f).Obeys (tenure settings) r Any :=
  (keeps_before settings hp r hr).seq hf fun _ _ _ => trivial

/-- The rest of a login, once its token is dated. -/
theorem obeys_issued {user : Account} {role : RoleRow} {permissions : List String}
    {familyId : String} {issued : IssuedRefreshToken}
    (hr : r.Dated familyId issued.sessionExpiresAt)
    (hexpires : issued.expiresAt ≤ issued.sessionExpiresAt) :
    (do
      let accessToken ← ofAuth (TokenService.signAccessToken settings.toAuthSettings user.toUser
        role.code permissions issued.sessionExpiresAt)
      let _ ← ofAuth (RefreshTokenRepository.save (RefreshToken.new user.id familyId issued.hash
        issued.expiresAt (some issued.sessionExpiresAt)))
      return { accessToken := accessToken
               refreshToken := issued.plaintext
               refreshTokenExpiresAt := issued.expiresAt
               user := user
               roleCode := role.code
               permissions := permissions
               sessionExpiresAt := issued.sessionExpiresAt
               sessionId := familyId } : DirectoryProgram LoginCommand.Output).Obeys
      (tenure settings) r Any := by
  have hkept : r.Dated familyId issued.sessionExpiresAt ∧ True := ⟨hr, trivial⟩
  refine Obeys.mono (keeps_dated settings (C := fun _ => True) (fun _ _ _ _ => trivial) ?_ r
    hkept) fun _ _ _ => trivial
  refine Within.bind (ofAuth_ends (signAccessToken_ends settings _ _ _)) ?_
  intro accessToken
  exact Within.bind (ofAuth_ends (save_ends fun id => ⟨rfl, rfl, hexpires⟩)) fun _ => trivial

theorem obeys_openSession (user : Account) (hr : r.Before) :
    (LoginHandler.openSession settings user).Obeys (tenure settings) r Any := by
  apply obeys_before settings hr (answer_within rfl)
  rintro (_ | role) r₁ h₁
  · trivial
  apply obeys_before settings h₁ (stamped_within rfl fun _ => rfl)
  intro _ r₂ h₂
  apply obeys_before settings h₂ (answer_within rfl)
  intro permissions r₃ h₃
  apply Obeys.afterPerform trivial
  intro familyId
  have hbefore : (r₃.next settings (.auth .nextId) familyId).Before :=
    before_next settings h₃ rfl familyId
  obtain ⟨hfound, hdrawn, hnone⟩ := hbefore
  have hfamily : (r₃.next settings (.auth .nextId) familyId).family = some familyId := by
    simp [next, nextAuth, afterNextId, h₃.1, h₃.2.1]
  have hdeadline : ∀ now, (r₃.next settings (.auth .nextId) familyId).deadlineAt settings now =
      some ((none : Option Js.Date).getD
        (now + settings.sessionAbsoluteTimeoutHours * 3600000)) := by
    simp [deadlineAt, hfound]
  have hissue := obeys_issueRefreshToken settings (C := fun _ => True) (fun _ _ _ _ => trivial)
    hfamily hdrawn hnone trivial hdeadline
  refine Obeys.andThen (T := fun r' issued => Dated familyId issued.sessionExpiresAt r' ∧
    issued.expiresAt ≤ issued.sessionExpiresAt) (obeys_ofAuth (Obeys.mono hissue ?_)) ?_
    fun _ _ => trivial
  · rintro r' (e | issued') hissued issued hok
    · cases hok
    · cases hok
      obtain ⟨⟨hdated, -⟩, hexpires⟩ := hissued _ rfl
      exact ⟨hdated, hexpires⟩
  · rintro issued r₄ ⟨h₄, hexpires⟩
    exact obeys_issued settings h₄ hexpires

theorem obeys_login (input : LoginCommand.Input) (hr : r.Before) :
    (LoginHandler.execute settings input).Obeys (tenure settings) r Any := by
  apply obeys_before settings hr (answer_within rfl)
  rintro (_ | user) r₁ h₁
  · trivial
  refine Obeys.unless (fun _ => trivial) fun _ => ?_
  apply obeys_before settings h₁ (Async.Program.within_perform.mpr rfl)
  intro now r₂ h₂
  refine Obeys.unless (fun _ => trivial) fun _ => ?_
  apply obeys_before settings h₂ (answer_within rfl)
  intro passwordValid r₃ h₃
  split
  · apply obeys_before settings h₃ (handleFailedAttempt_issuesNothing settings _ _)
    intro locked r₄ _
    split <;> trivial
  · exact obeys_openSession settings user h₃

end Login

section Refresh

variable {existing : RefreshToken} {checkedAt deadline : Js.Date}

/-- A token was found, its session was not over, and no secret has been drawn yet. -/
structure Exchanges (existing : RefreshToken) (checkedAt deadline : Js.Date) (r : Tenure) :
    Prop where
  checked : r.Checked existing checkedAt
  drawn : r.drawn = false
  undated : r.deadline = none
  ends : existing.sessionExpiresAt = some deadline
  before : checkedAt < deadline

/-- A refresh that succeeds has read the clock before the deadline of what it found. -/
def Refreshed {β ε : Type} (r : Tenure) (result : Except ε β) : Prop :=
  ∀ x, result = .ok x → ∃ existing checkedAt deadline, r.Checked existing checkedAt ∧
    existing.sessionExpiresAt = some deadline ∧ checkedAt < deadline

theorem refreshed_error {β ε : Type} (r : Tenure) (e : ε) :
    Refreshed r (.error e : Except ε β) := by
  rintro x ⟨⟩

theorem exchanges_next (h : r.Exchanges existing checkedAt deadline) {op : AuthOp}
    (hop : op.issuesNothing = true) (a : AuthAnswer op) :
    (r.nextAuth settings op a).Exchanges existing checkedAt deadline := by
  obtain ⟨hfound, hfamily, hchecked⟩ := h.checked
  refine ⟨checked_next settings h.checked (.auth op) a, ?_, ?_, h.ends, h.before⟩
  · cases op with
    | findByTokenHash _ | randomBytes | insert _ | sign _ => cases hop
    | nextId => simp [nextAuth, afterNextId, hfound, h.drawn]
    | now => simp [nextAuth, afterNow, h.drawn]
    | _ => exact h.drawn
  · cases op with
    | findByTokenHash _ | randomBytes | insert _ | sign _ => cases hop
    | nextId => simp [nextAuth, afterNextId, hfound, h.undated]
    | now => simp [nextAuth, afterNow, h.drawn, h.undated]
    | _ => exact h.undated

/-- A successor is saved, and an access token signed, under the deadline of what was found. -/
theorem obeys_rotate (user : User) (role : Role) (h : r.Exchanges existing checkedAt deadline) :
    (RefreshTokensHandler.rotate settings.toAuthSettings existing user role).Obeys
      (authPart (tenure settings)) r Refreshed := by
  have hC : ∀ r op a, Checked existing checkedAt r →
      Checked existing checkedAt (Tenure.next settings r op a) :=
    fun _ op a hr => checked_next settings hr op a
  have hdeadline : ∀ now, r.deadlineAt settings now = some (existing.sessionExpiresAt.getD
      (now + settings.sessionAbsoluteTimeoutHours * 3600000)) := by
    simp [deadlineAt, h.checked.1, h.ends]
  have hissue := obeys_issueRefreshToken settings hC h.checked.2.1 h.drawn h.undated h.checked
    hdeadline
  refine Obeys.andThen hissue ?_ fun e r' => refreshed_error r' e
  rintro issued r₁ ⟨h₁, hexpires⟩
  have hrest : (do
      let savedNew ← RefreshTokenRepository.save (RefreshToken.new user.id existing.familyId
        issued.hash issued.expiresAt (some issued.sessionExpiresAt))
      RefreshTokenRepository.markRevoked existing.id (some savedNew.id)
      let permissions ← lift (← perform (.findPermissionKeys role.id))
      let accessToken ← TokenService.signAccessToken settings.toAuthSettings user role.code
        permissions issued.sessionExpiresAt
      return { accessToken := accessToken
               refreshToken := issued.plaintext
               refreshTokenExpiresAt := issued.expiresAt
               permissions := permissions
               mustChangePassword := user.mustChangePassword
               sessionExpiresAt := issued.sessionExpiresAt
               sessionId := existing.familyId } : AuthProgram RefreshTokensCommand.Output).Within
        fun op => Ends existing.familyId issued.sessionExpiresAt (.auth op) := by
    refine Within.bind (save_ends fun id => ⟨rfl, rfl, hexpires⟩) ?_
    intro savedNew
    refine Within.bind (p := RefreshTokenRepository.markRevoked _ _)
      ⟨trivial, fun _ => ⟨trivial, fun _ => trivial⟩⟩ ?_
    intro _
    refine Within.bind (Async.Program.within_perform.mpr trivial) ?_
    intro found
    refine Within.bind (Async.Program.within_lift found) ?_
    intro permissions
    exact Within.bind (signAccessToken_ends settings _ _ _) fun _ => trivial
  refine Obeys.mono (keepsAuth_dated settings hC hrest r₁ h₁) ?_
  rintro r₂ result ⟨-, hchecked⟩ output -
  exact ⟨existing, checkedAt, deadline, hchecked, h.ends, h.before⟩

theorem obeys_exchanging {β : Type} {p : AuthProgram β}
    {f : β → AuthProgram RefreshTokensCommand.Output}
    (h : r.Exchanges existing checkedAt deadline) (hp : p.Within (·.issuesNothing))
    (hf : ∀ b r', Exchanges existing checkedAt deadline r' →
      (f b).Obeys (authPart (tenure settings)) r' Refreshed) :
    (p >>= f).Obeys (authPart (tenure settings)) r Refreshed := by
  refine Obeys.seq (R := Exchanges existing checkedAt deadline) ?_ hf fun e r' _ =>
    refreshed_error r' e
  refine Within.keeps hp ?_ r h
  intro r' op hr hop
  have hallows : r'.allows (.auth op) := allows_of_issuesNothing r' hop
  exact ⟨hallows, fun a => exchanges_next settings hr hop a⟩

/-- The family is revoked, and the refresh fails. -/
theorem obeys_refused (familyId : String) (e : AuthError) (r : Tenure) :
    (do RefreshTokenRepository.revokeFamily familyId
        throw e : AuthProgram RefreshTokensCommand.Output).Obeys (authPart (tenure settings)) r
      Refreshed := by
  refine ⟨trivial, fun _ => ⟨trivial, fun a => ?_⟩⟩
  cases a <;> exact refreshed_error _ _

theorem obeys_exchange (h : r.Exchanges existing checkedAt deadline) :
    (RefreshTokensHandler.exchange settings.toAuthSettings existing).Obeys
      (authPart (tenure settings)) r Refreshed := by
  apply obeys_exchanging settings h (Async.Program.within_perform.mpr rfl)
  intro found r₁ h₁
  refine Obeys.afterLift (fun e => refreshed_error r₁ e) ?_
  rintro (_ | user) -
  · exact obeys_refused settings _ _ r₁
  by_cases hactive : user.isActive = true
  · simp only [hactive, Bool.not_true, Bool.false_eq_true, if_false]
    apply obeys_exchanging settings h₁ (Async.Program.within_perform.mpr rfl)
    intro found r₂ h₂
    refine Obeys.afterLift (fun e => refreshed_error r₂ e) ?_
    rintro (_ | role) -
    · exact refreshed_error r₂ _
    · exact obeys_rotate settings user role h₂
  · simp only [hactive, Bool.not_false, if_true]
    exact obeys_refused settings _ _ r₁

theorem ends_of_expired {now : Js.Date} (h : RefreshTokensHandler.expired existing now = none) :
    ∃ deadline, existing.sessionExpiresAt = some deadline ∧ now < deadline := by
  unfold RefreshTokensHandler.expired at h
  split at h
  · cases h
  · rename_i deadline hdeadline
    split at h
    · cases h
    · exact ⟨deadline, hdeadline, not_le.mp ‹_›⟩

theorem exchanges_found (input : RefreshTokensCommand.Input) (tokenHash : String)
    (hends : existing.sessionExpiresAt = some deadline) (hbefore : checkedAt < deadline) :
    Exchanges existing checkedAt deadline
      (((initial (.refreshTokens input)).nextAuth settings (.findByTokenHash tokenHash)
        (.ok (some existing))).nextAuth settings .now checkedAt) :=
  ⟨⟨rfl, rfl, rfl⟩, rfl, rfl, hends, hbefore⟩

/-- The clock is read once the token is found. -/
theorem obeys_refreshTokens (input : RefreshTokensCommand.Input) :
    (RefreshTokensHandler.execute settings.toAuthSettings input).Obeys
      (authPart (tenure settings)) (initial (.refreshTokens input)) Refreshed := by
  refine Obeys.afterPerform rfl ?_
  intro found
  refine Obeys.afterLift (fun e => refreshed_error _ e) ?_
  rintro (_ | existing) rfl
  · exact refreshed_error _ _
  refine Obeys.afterPerform trivial ?_
  intro checkedAt
  cases hexpired : RefreshTokensHandler.expired existing checkedAt with
  | some reason => exact obeys_refused settings _ _ _
  | none =>
    obtain ⟨deadline, hends, hbefore⟩ := ends_of_expired hexpired
    have h := exchanges_found settings input (TokenService.hashRefreshToken settings.toAuthSettings
      input.refreshToken) hends hbefore
    by_cases hrevoked : existing.revokedAt.isSome
    · simp only [hrevoked, if_true]
      exact obeys_refused settings _ _ _
    · simp only [hrevoked, Bool.false_eq_true, if_false]
      exact obeys_exchange settings h

end Refresh

/-- What an execution that succeeds has done. -/
def Succeeded (job : SessionJob) (r : Tenure) (result : Except DirectoryError Unit) : Prop :=
  match job with
  | .login _ => True
  | .refreshTokens _ => Refreshed r result

theorem obeys_job (job : SessionJob) :
    (job.execute settings).Obeys (tenure settings) (initial job) (Succeeded job) := by
  cases job with
  | login input =>
    refine Obeys.seq (R := fun _ => True) ?_ (fun _ _ _ => trivial) fun _ _ _ => trivial
    exact Obeys.mono (obeys_login settings input ⟨rfl, rfl, rfl⟩) fun _ _ _ => trivial
  | refreshTokens input =>
    refine Obeys.andThen (T := fun r' _ => Refreshed r' (.ok () : Except DirectoryError Unit))
      (obeys_ofAuth (Obeys.mono (obeys_refreshTokens settings input) ?_)) ?_ ?_
    · rintro r' (e | output) hresult x hok
      · cases hok
      · exact fun _ _ => hresult output rfl
    · exact fun _ _ h => h
    · exact fun e r' => refreshed_error r' e

end Tenure
end Auth
