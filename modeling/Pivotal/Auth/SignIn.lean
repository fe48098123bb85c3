import Pivotal.Async.Pool
import Pivotal.Auth.UserManagement
import Pivotal.Js.Except

/-! Signing in and out, changing a password, the guard of the portal, and all the handlers
interleaved over one directory. -/
namespace Auth
open Async (Written)
open Async.Program (Obeys perform lift)

namespace LoginCommand

structure Input where
  email : String
  password : String
  deriving DecidableEq

structure Output where
  accessToken : String
  refreshToken : String
  refreshTokenExpiresAt : Js.Date
  user : Account
  roleCode : String
  permissions : List String
  sessionExpiresAt : Js.Date
  sessionId : String
  deriving DecidableEq

end LoginCommand

namespace LoginHandler

variable (settings : DirectorySettings)

/-- Whether the account is locked by this attempt. -/
def handleFailedAttempt (userId : String) (attemptCount : ℕ) : DirectoryProgram Bool := do
  UserRepository.incrementFailedAttempts userId
  if settings.loginLockoutThreshold ≤ attemptCount then
    let now ← perform (.auth .now)
    UserRepository.lockUntil userId (now + settings.loginLockoutDurationMinutes * 60 * 1000)
    return true
  else
    return false

def accountLockedError (lockoutMinutes : ℤ) : DirectoryError :=
  .http .unauthorized "AUTH_ACCOUNT_LOCKED"
    ("Your account has been temporarily locked due to multiple failed login attempts. " ++
      "Please try again after " ++ toString lockoutMinutes ++ " " ++
      (if lockoutMinutes = 1 then "minute" else "minutes") ++ " or contact your administrator.")

/-- Rounded up, and at least one. -/
def remainingLockoutMinutes (lockedUntil now : Js.Date) : ℤ :=
  max 1 (-((now - lockedUntil) / 60000))

/-- The tokens of a new session, once the password is known to be good. -/
def openSession (user : Account) : DirectoryProgram LoginCommand.Output := do
  let some role ← RoleRepository.findById user.roleId
    | throw (signInError .unauthorized .unknownRole)
  UserRepository.recordSuccessfulLogin user.id
  let permissions ← RolePermissionRepository.findPermissionKeysByRoleId role.id
  let familyId ← perform (.auth .nextId)
  let issued ← ofAuth (TokenService.issueRefreshToken settings.toAuthSettings none)
  let accessToken ← ofAuth (TokenService.signAccessToken settings.toAuthSettings user.toUser
    role.code permissions issued.sessionExpiresAt)
  let _ ← ofAuth (RefreshTokenRepository.save (RefreshToken.new user.id familyId issued.hash
    issued.expiresAt (some issued.sessionExpiresAt)))
  return { accessToken := accessToken
           refreshToken := issued.plaintext
           refreshTokenExpiresAt := issued.expiresAt
           user := user
           roleCode := role.code
           permissions := permissions
           sessionExpiresAt := issued.sessionExpiresAt
           sessionId := familyId }

def execute (input : LoginCommand.Input) : DirectoryProgram LoginCommand.Output := do
  let some user ← UserRepository.findByEmail input.email
    | throw (signInError .unauthorized .invalidCredentials)
  if !user.isActive then
    throw (signInError .unauthorized .userInactive)
  let now ← perform (.auth .now)
  if user.lockedUntil.any fun lockedUntil => now < lockedUntil then
    throw (accountLockedError (remainingLockoutMinutes (user.lockedUntil.getD now) now))
  let passwordValid ← PasswordService.verify input.password user.passwordHash
  if !passwordValid then
    let locked ← handleFailedAttempt settings user.id (user.failedLoginAttempts + 1)
    if locked then
      throw (accountLockedError settings.loginLockoutDurationMinutes)
    else
      throw (signInError .unauthorized .invalidCredentials)
  else
    openSession settings user

end LoginHandler

namespace LogoutCommand

structure Input where
  refreshToken : String
  allDevices : Bool
  deriving DecidableEq

end LogoutCommand

/-- Whether a session was there to be revoked. -/
def LogoutHandler.execute (settings : DirectorySettings) (input : LogoutCommand.Input) :
    DirectoryProgram Bool := do
  let tokenHash := TokenService.hashRefreshToken settings.toAuthSettings input.refreshToken
  let some existing ← ofAuth (RefreshTokenRepository.findByTokenHash tokenHash)
    | return false
  if input.allDevices then
    RefreshTokenRepository.revokeAllForUser existing.userId
    return true
  else if existing.revokedAt.isNone then
    ofAuth (RefreshTokenRepository.markRevoked existing.id none)
    return true
  else
    return true

namespace ChangePasswordCommand

structure Input where
  userId : String
  currentPassword : String
  newPassword : String
  deriving DecidableEq

end ChangePasswordCommand

def ChangePasswordHandler.execute (input : ChangePasswordCommand.Input) :
    DirectoryProgram Bool := do
  let some user ← UserRepository.findById input.userId
    | throw (signInError .unauthorized .invalidCredentials)
  if !user.isActive then
    throw (signInError .unauthorized .invalidCredentials)
  let currentValid ← PasswordService.verify input.currentPassword user.passwordHash
  if !currentValid then
    throw (signInError .unauthorized .invalidCredentials)
  let isSamePassword ← PasswordService.verify input.newPassword user.passwordHash
  if isSamePassword then
    throw (signInError .badRequest .passwordSameAsCurrent)
  let newHash ← PasswordService.hash input.newPassword
  UserRepository.updatePasswordHash user.id newHash false
  -- Revoke all existing sessions on password change.
  RefreshTokenRepository.revokeAllForUser user.id
  UserRepository.invalidateTokens user.id
  return true

/-- What the guard of the portal awaits. -/
inductive GuardOp where
  | verifyAccessToken (token : String)
  | findUserById (id : String)
  deriving DecidableEq

@[reducible] def GuardAnswer : GuardOp → Type
  | .verifyAccessToken _ => Option AccessTokenClaims
  | .findUserById _ => Except DirectoryError (Option Account)

abbrev GuardProgram := Async.Program GuardOp GuardAnswer DirectoryError

namespace JwtAuthGuard

def bearerPrefix : String := "Bearer "

/-- The checks of the row the token names. -/
def assertLive (claims : AccessTokenClaims) (user : Option Account) : Except DirectoryError Unit := do
  let some user := user
    | throw (signInError .unauthorized .userInactive)
  if !user.isActive then
    throw (signInError .unauthorized .userInactive)
  if user.tokensInvalidatedAt.any fun d => claims.iat ≤ d / 1000 then
    throw (signInError .unauthorized .tokenRevoked)

/-- The claims the request is served under, if the route is not public. -/
def canActivate (isPublic : Bool) (authorization : Option String) :
    GuardProgram (Option AccessTokenClaims) := do
  if isPublic then
    return none
  let some token := authorization.bind fun header =>
      Js.stripPrefix bearerPrefix.toList header.toList
    | throw (.http .unauthorized "AUTH_MISSING_TOKEN" "Missing or malformed Authorization header.")
  let some claims ← perform (GuardOp.verifyAccessToken (Js.trim (String.ofList token)))
    | throw (.http .unauthorized "AUTH_INVALID_TOKEN" "Invalid or expired access token.")
  let user ← lift (← perform (.findUserById claims.sub))
  lift (assertLive claims user)
  return some claims

theorem assertLive_eq_ok_iff {claims : AccessTokenClaims} {user : Option Account} :
    assertLive claims user = .ok () ↔ ∃ u, user = some u ∧
      u.isActive = true ∧ ∀ d, u.tokensInvalidatedAt = some d → d / 1000 < claims.iat := by
  cases user with
  | none => simp [assertLive]
  | some u =>
    simp only [assertLive, Js.unless_ok_iff, Option.some.injEq, exists_eq_left']
    cases hd : u.tokensInvalidatedAt with
    | none => simp [pure, Except.pure]
    | some d => simp [pure, Except.pure]

/-- A request that is served carries a verified token whose row, as read, is live. -/
theorem canActivate_settles {authorization : Option String} {claims : AccessTokenClaims}
    {t : List (Async.Event GuardOp GuardAnswer)}
    (h : (canActivate false authorization).Settles t (.ok (some claims))) :
    ∃ token user, t = [⟨.verifyAccessToken token, some claims⟩,
      ⟨.findUserById claims.sub, .ok user⟩] ∧ assertLive claims user = .ok () := by
  have hobeys : (canActivate false authorization).Obeys .trace [] fun t r =>
      r = .ok (some claims) → ∃ token user, t = [⟨.verifyAccessToken token, some claims⟩,
        ⟨.findUserById claims.sub, .ok user⟩] ∧ assertLive claims user = .ok () := by
    unfold canActivate
    simp only [Bool.false_eq_true, if_false]
    split
    · apply Obeys.afterPerform trivial
      rintro (_ | found)
      · rintro ⟨⟩
      · apply Obeys.afterPerform trivial
        intro user
        apply Obeys.afterLift
        · rintro e ⟨⟩
        · rintro user rfl
          apply Obeys.afterLift
          · rintro e ⟨⟩
          · rintro ⟨⟩ hlive ⟨⟩
            exact ⟨_, user, rfl, hlive⟩
    · rintro ⟨⟩
  have hend := hobeys.settles h rfl
  rwa [Async.Monitor.trace_after] at hend

/-- A request whose token is verified, and whose row is live, is served. -/
theorem canActivate_serves {authorization : String} {token : List Char}
    (htoken : Js.stripPrefix bearerPrefix.toList authorization.toList = some token)
    {claims : AccessTokenClaims} {user : Option Account} (hlive : assertLive claims user = .ok ()) :
    (canActivate false (some authorization)).Settles
      [⟨.verifyAccessToken (Js.trim (String.ofList token)), some claims⟩,
        ⟨.findUserById claims.sub, .ok user⟩] (.ok (some claims)) := by
  simp only [canActivate, Bool.false_eq_true, if_false, Option.bind_some, htoken]
  refine Async.Program.settles_call_iff.mpr ⟨some claims, _, rfl, ?_⟩
  refine Async.Program.settles_call_iff.mpr ⟨.ok user, _, rfl, ?_⟩
  change (lift (assertLive claims user) >>= fun _ => pure (some claims)).Settles [] _
  rw [hlive]
  exact .refl _

end JwtAuthGuard

/-- The requests of the portal. -/
inductive DirectoryJob where
  | login (input : LoginCommand.Input)
  | refreshTokens (input : RefreshTokensCommand.Input)
  | logout (input : LogoutCommand.Input)
  | changePassword (input : ChangePasswordCommand.Input)
  | resetUserPassword (input : ResetUserPasswordCommand.Input)
  | createUser (input : CreateUserCommand.Input)
  | updateUser (input : UpdateUserCommand.Input)
  | deactivateUser (input : DeactivateUserCommand.Input)
  | replaceRolePermissions (input : ReplaceRolePermissionsCommand.Input)
  deriving DecidableEq

def DirectoryJob.execute (settings : DirectorySettings) : DirectoryJob → DirectoryProgram Unit
  | .login input => do let _ ← LoginHandler.execute settings input
  | .refreshTokens input => do
    let _ ← ofAuth (RefreshTokensHandler.execute settings.toAuthSettings input)
  | .logout input => do let _ ← LogoutHandler.execute settings input
  | .changePassword input => do let _ ← ChangePasswordHandler.execute input
  | .resetUserPassword input => do let _ ← ResetUserPasswordHandler.execute input
  | .createUser input => do let _ ← CreateUserHandler.execute input
  | .updateUser input => do let _ ← UpdateUserHandler.execute input
  | .deactivateUser input => do let _ ← DeactivateUserHandler.execute input
  | .replaceRolePermissions input => do let _ ← ReplaceRolePermissionsHandler.execute input

/-- Any number of requests on any replicas, over one directory. -/
def portal (settings : DirectorySettings) :
    Async.System DirectoryOp DirectoryAnswer DirectoryError Unit DirectoryJob Directory where
  entry job := job.execute settings
  perform := Directory.performs settings
  background _ _ := False

end Auth
