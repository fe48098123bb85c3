import Pivotal.Async.Pool
import Pivotal.Auth.Components

/-! `RefreshTokensHandler.execute`, and any number of its executions on any replicas over one
database, beside logins and revocations. -/
namespace Auth
open Async.Program (perform lift)

namespace RefreshTokensCommand

structure Input where
  refreshToken : String
  deriving DecidableEq

structure Output where
  accessToken : String
  refreshToken : String
  refreshTokenExpiresAt : Js.Date
  permissions : List String
  mustChangePassword : Bool
  sessionExpiresAt : Js.Date
  sessionId : String
  deriving DecidableEq

end RefreshTokensCommand

namespace RefreshTokensHandler

variable (settings : AuthSettings)

/-- The session is over, or the token has been idle for too long: the reason. -/
def expired (existing : RefreshToken) (now : Js.Date) : Option String :=
  match existing.sessionExpiresAt with
  | none => some "absolute"
  | some sessionExpiresAt =>
    if sessionExpiresAt ≤ now then some "absolute"
    else if existing.expiresAt ≤ now then some "idle"
    else none

/-- Save a successor in the same family, and only then revoke the token it replaces. -/
def rotate (existing : RefreshToken) (user : User) (role : Role) :
    AuthProgram RefreshTokensCommand.Output := do
  let issued ← TokenService.issueRefreshToken settings existing.sessionExpiresAt
  let savedNew ← RefreshTokenRepository.save (RefreshToken.new user.id existing.familyId
    issued.hash issued.expiresAt (some issued.sessionExpiresAt))
  RefreshTokenRepository.markRevoked existing.id (some savedNew.id)
  let permissions ← lift (← perform (.findPermissionKeys role.id))
  let accessToken ← TokenService.signAccessToken settings user role.code permissions
    issued.sessionExpiresAt
  return { accessToken := accessToken
           refreshToken := issued.plaintext
           refreshTokenExpiresAt := issued.expiresAt
           permissions := permissions
           mustChangePassword := user.mustChangePassword
           sessionExpiresAt := issued.sessionExpiresAt
           sessionId := existing.familyId }

/-- What follows once the token is known to be good. -/
def exchange (existing : RefreshToken) : AuthProgram RefreshTokensCommand.Output := do
  match ← lift (← perform (.findUser existing.userId)) with
  | none =>
    RefreshTokenRepository.revokeFamily existing.familyId
    throw (authError .invalidRefreshToken)
  | some user =>
    if !user.isActive then
      RefreshTokenRepository.revokeFamily existing.familyId
      throw (authError .invalidRefreshToken)
    match ← lift (← perform (.findRole user.roleId)) with
    | none => throw (authError .unknownRole)
    | some role => rotate settings existing user role

def execute (input : RefreshTokensCommand.Input) : AuthProgram RefreshTokensCommand.Output := do
  let tokenHash := TokenService.hashRefreshToken settings input.refreshToken
  match ← RefreshTokenRepository.findByTokenHash tokenHash with
  | none => throw (authError .invalidRefreshToken)
  | some existing =>
    let now ← perform .now
    match expired existing now with
    | some reason =>
      RefreshTokenRepository.revokeFamily existing.familyId
      throw (.unauthorized AuthErrorCode.sessionExpired.code AuthErrorCode.sessionExpired.message
        (some reason))
    | none =>
      -- Reuse of a previously-rotated token: assume theft, revoke the whole family.
      if existing.revokedAt.isSome then
        RefreshTokenRepository.revokeFamily existing.familyId
        throw (authError .refreshTokenReuse)
      exchange settings existing

end RefreshTokensHandler

/-- The table `refresh_tokens`. -/
structure RefreshTokens where
  rows : List RefreshToken
  deriving DecidableEq

namespace RefreshTokens

def empty : RefreshTokens := ⟨[]⟩

def insert (s : RefreshTokens) (token : RefreshToken) : RefreshTokens := ⟨s.rows ++ [token]⟩

/-- `UPDATE … SET revoked_at = …, replaced_by = … WHERE id = …` -/
def markRevoked (s : RefreshTokens) (id : String) (replacedBy : Option String)
    (revokedAt : Js.Date) : RefreshTokens :=
  ⟨s.rows.map fun token => if token.id = id then
    { token with revokedAt := some revokedAt, replacedBy := replacedBy } else token⟩

/-- `UPDATE … SET revoked_at = … WHERE …` -/
def revokeWhere (s : RefreshTokens) (p : RefreshToken → Bool) (revokedAt : Js.Date) :
    RefreshTokens :=
  ⟨s.rows.map fun token => if p token then { token with revokedAt := some revokedAt } else token⟩

/-- `familyId` matches, and the token is not revoked. -/
def unrevokedIn (familyId : String) (token : RefreshToken) : Bool :=
  token.familyId = familyId && token.revokedAt.isNone

/-- The identifier and the hash are unique keys. -/
def Admits (s : RefreshTokens) (token : RefreshToken) : Prop :=
  ∀ other ∈ s.rows, other.id ≠ token.id ∧ other.tokenHash ≠ token.tokenHash

instance (s : RefreshTokens) (token : RefreshToken) : Decidable (s.Admits token) :=
  inferInstanceAs (Decidable (∀ other ∈ s.rows, _))

/-- A login starts a family of its own, with one token. -/
def Login (s s' : RefreshTokens) : Prop :=
  ∃ token, s.Admits token ∧ (∀ other ∈ s.rows, other.familyId ≠ token.familyId) ∧
    s' = s.insert token

/-- Logouts, password changes and the like revoke tokens. -/
def Revocation (s s' : RefreshTokens) : Prop :=
  (∃ p revokedAt, s' = s.revokeWhere p revokedAt) ∨
    ∃ id revokedAt, s' = s.markRevoked id none revokedAt

/-- What one call answers and does to the table. -/
def performs (s : RefreshTokens) : (op : AuthOp) → AuthAnswer op → RefreshTokens → Prop
  | .now, _, s' => s' = s
  | .nextId, _, s' => s' = s
  | .randomBytes, _, s' => s' = s
  | .findByTokenHash tokenHash, a, s' => s' = s ∧
    ∀ found, a = .ok found → found = s.rows.find? (fun token => token.tokenHash = tokenHash)
  | .revokeFamily familyId revokedAt, a, s' =>
    s' = a.applies s (s.revokeWhere (unrevokedIn familyId) revokedAt)
  | .markRevoked id replacedBy revokedAt, a, s' =>
    s' = a.applies s (s.markRevoked id replacedBy revokedAt)
  | .insert token, a, s' =>
    (¬ s.Admits token → ∃ e, a = .rejected e) ∧ s' = a.applies s (s.insert token)
  | .findUser _, _, s' => s' = s
  | .findRole _, _, s' => s' = s
  | .findPermissionKeys _, _, s' => s' = s
  | .sign _, _, s' => s' = s

/-- A name that depends on the number of rows. -/
def name (s : RefreshTokens) : String :=
  String.ofList (List.replicate s.rows.length 'b')

def respond (s : RefreshTokens) : (op : AuthOp) → AuthAnswer op × RefreshTokens
  | .now => (0, s)
  | .nextId => (s.name, s)
  | .randomBytes => (s.name, s)
  | .findByTokenHash tokenHash => (.ok (s.rows.find? fun token => token.tokenHash = tokenHash), s)
  | .revokeFamily familyId revokedAt =>
    (.done (), s.revokeWhere (unrevokedIn familyId) revokedAt)
  | .markRevoked id replacedBy revokedAt => (.done (), s.markRevoked id replacedBy revokedAt)
  | .insert token =>
    if s.Admits token then (.done (), s.insert token) else (.rejected .failure, s)
  | .findUser id => (.ok (some ⟨id, "r", none, true, false⟩), s)
  | .findRole id => (.ok (some ⟨id, "R"⟩), s)
  | .findPermissionKeys _ => (.ok [], s)
  | .sign _ => (.ok "jwt", s)

theorem performs_respond (s : RefreshTokens) (op : AuthOp) :
    s.performs op (s.respond op).1 (s.respond op).2 := by
  cases op with
  | findByTokenHash tokenHash =>
    refine ⟨rfl, ?_⟩
    rintro _ ⟨⟩
    rfl
  | insert token =>
    by_cases h : s.Admits token
    · simp [respond, performs, h]
    · simp [respond, performs, h]
  | _ => rfl

end RefreshTokens

def refreshing (settings : AuthSettings) :
    Async.System AuthOp AuthAnswer AuthError RefreshTokensCommand.Output
      RefreshTokensCommand.Input RefreshTokens where
  entry input := RefreshTokensHandler.execute settings input
  perform := RefreshTokens.performs
  background s s' := s.Login s' ∨ s.Revocation s'

end Auth
