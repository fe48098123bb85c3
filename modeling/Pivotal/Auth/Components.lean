import Pivotal.Async.Program
import Pivotal.Async.Write
import Pivotal.Js.Date

/-! Refresh tokens: their rows, the repository and the token service, as programs over the calls
they await. -/
namespace Auth
open Async (Written)
open Async.Program (perform lift)

/-- The errors of the auth domain that a refresh can end in. -/
inductive AuthErrorCode where
  | invalidRefreshToken | sessionExpired | refreshTokenReuse | unknownRole
  deriving DecidableEq

def AuthErrorCode.code : AuthErrorCode → String
  | .invalidRefreshToken => "AUTH_INVALID_REFRESH_TOKEN"
  | .sessionExpired => "AUTH_SESSION_EXPIRED"
  | .refreshTokenReuse => "AUTH_REFRESH_TOKEN_REUSE_DETECTED"
  | .unknownRole => "AUTH_UNKNOWN_ROLE"

def AuthErrorCode.message : AuthErrorCode → String
  | .invalidRefreshToken => "Invalid or expired refresh token."
  | .sessionExpired => "Your session has expired. Please sign in again."
  | .refreshTokenReuse => "Invalid or expired refresh token."
  | .unknownRole => "Invalid email or password."

/-- What a call or the code may throw. -/
inductive AuthError where
  | unauthorized (code message : String) (reason : Option String)
  | failure
  deriving DecidableEq

def authError (code : AuthErrorCode) : AuthError := .unauthorized code.code code.message none

structure RefreshToken where
  id : String
  userId : String
  familyId : String
  tokenHash : String
  expiresAt : Js.Date
  sessionExpiresAt : Option Js.Date
  revokedAt : Option Js.Date
  replacedBy : Option String
  deriving DecidableEq

/-- `new RefreshToken(…)`; the identifier is assigned before the row is inserted. -/
def RefreshToken.new (userId familyId tokenHash : String) (expiresAt : Js.Date)
    (sessionExpiresAt : Option Js.Date) (id : String) : RefreshToken :=
  ⟨id, userId, familyId, tokenHash, expiresAt, sessionExpiresAt, none, none⟩

structure User where
  id : String
  roleId : String
  fspId : Option String
  isActive : Bool
  mustChangePassword : Bool
  deriving DecidableEq

structure Role where
  id : String
  code : String
  deriving DecidableEq

structure AccessTokenClaims where
  sub : String
  role : String
  fspId : Option String
  permissions : List String
  mustChangePassword : Bool
  iat : ℤ
  exp : ℤ
  jti : String
  deriving DecidableEq

structure IssuedRefreshToken where
  plaintext : String
  hash : String
  expiresAt : Js.Date
  sessionExpiresAt : Js.Date
  deriving DecidableEq

/-- The settings of the domain, and the digest of `node:crypto`. -/
structure AuthSettings where
  sha256Hex : String → String
  accessTokenTtlSeconds : ℤ
  sessionAbsoluteTimeoutHours : ℤ
  sessionIdleTimeoutMinutes : ℤ

inductive AuthOp where
  | now
  | nextId
  | randomBytes
  | findByTokenHash (tokenHash : String)
  | revokeFamily (familyId : String) (revokedAt : Js.Date)
  | markRevoked (id : String) (replacedBy : Option String) (revokedAt : Js.Date)
  | insert (token : RefreshToken)
  | findUser (id : String)
  | findRole (id : String)
  | findPermissionKeys (roleId : String)
  | sign (claims : AccessTokenClaims)
  deriving DecidableEq

@[reducible] def AuthAnswer : AuthOp → Type
  | .now => Js.Date
  | .nextId => String
  | .randomBytes => String
  | .findByTokenHash _ => Except AuthError (Option RefreshToken)
  | .revokeFamily _ _ => Written AuthError Unit
  | .markRevoked _ _ _ => Written AuthError Unit
  | .insert _ => Written AuthError Unit
  | .findUser _ => Except AuthError (Option User)
  | .findRole _ => Except AuthError (Option Role)
  | .findPermissionKeys _ => Except AuthError (List String)
  | .sign _ => Except AuthError String

abbrev AuthProgram := Async.Program AuthOp AuthAnswer AuthError

namespace RefreshTokenRepository

def findByTokenHash (tokenHash : String) : AuthProgram (Option RefreshToken) := do
  lift (← perform (.findByTokenHash tokenHash))

/-- The entity is new: it is inserted under the identifier it is assigned. -/
def save (entity : String → RefreshToken) : AuthProgram RefreshToken := do
  let id ← perform .nextId
  lift (Written.toExcept (← perform (.insert (entity id))))
  return entity id

def markRevoked (id : String) (replacedBy : Option String) : AuthProgram Unit := do
  let revokedAt ← perform .now
  lift (Written.toExcept (← perform (.markRevoked id replacedBy revokedAt)))

def revokeFamily (familyId : String) : AuthProgram Unit := do
  let revokedAt ← perform .now
  lift (Written.toExcept (← perform (.revokeFamily familyId revokedAt)))

end RefreshTokenRepository

namespace TokenService

variable (settings : AuthSettings)

def hashRefreshToken (plaintext : String) : String := settings.sha256Hex plaintext

def issueRefreshToken (sessionExpiresAt : Option Js.Date) : AuthProgram IssuedRefreshToken := do
  let plaintext ← perform .randomBytes
  let now ← perform .now
  let deadline := sessionExpiresAt.getD (now + settings.sessionAbsoluteTimeoutHours * 3600000)
  return { plaintext := plaintext
           hash := hashRefreshToken settings plaintext
           expiresAt := min (now + settings.sessionIdleTimeoutMinutes * 60000) deadline
           sessionExpiresAt := deadline }

def signAccessToken (user : User) (roleCode : String) (permissions : List String)
    (sessionExpiresAt : Js.Date) : AuthProgram String := do
  let ttl := settings.accessTokenTtlSeconds
  let iat := (← perform .now) / 1000
  let jti ← perform .nextId
  lift (← perform (.sign
    { sub := user.id, role := roleCode, fspId := user.fspId, permissions := permissions
      mustChangePassword := user.mustChangePassword, iat := iat
      exp := min (iat + ttl) (sessionExpiresAt / 1000), jti := jti }))

end TokenService
end Auth
