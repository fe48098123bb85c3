import Pivotal.Auth.RefreshTokens
import Pivotal.Js.Text
import Pivotal.Store.Table

/-! Users, roles and permissions: their rows, what the handlers await, and what each call
answers and does to the tables. -/
namespace Auth
open Async (Written)

inductive RoleScope where
  | hub | dfsp
  deriving DecidableEq

inductive PermissionScope where
  | hub | dfsp | both
  deriving DecidableEq

def PermissionScope.admits : PermissionScope → RoleScope → Bool
  | .both, _ => true
  | .hub, .hub => true
  | .dfsp, .dfsp => true
  | _, _ => false

def adminRoleCode : String := "ADMIN"

def dfspAdminRoleCode : String := "DFSP_ADMIN"

namespace PermissionKey

def adminUsersManage : String := "admin.users.manage"

def adminDfspUsersManage : String := "admin.dfsp-users.manage"

end PermissionKey

structure Permission where
  id : String
  keyName : String
  scope : PermissionScope
  deriving DecidableEq

/-- A row of `roles`. -/
structure RoleRow extends Role where
  name : String
  description : Option String
  scope : RoleScope
  isSystem : Bool
  deriving DecidableEq

/-- A row of `users`. -/
structure Account extends User where
  email : String
  passwordHash : String
  failedLoginAttempts : ℕ
  lockedUntil : Option Js.Date
  tokensInvalidatedAt : Option Js.Date
  lastLoginAt : Option Js.Date
  deriving DecidableEq

/-- `new User(…)`; the identifier is assigned before the row is inserted. -/
def Account.new (email passwordHash roleId : String) (fspId : Option String)
    (mustChangePassword : Bool) (id : String) : Account where
  id := id
  roleId := roleId
  fspId := fspId
  isActive := true
  mustChangePassword := mustChangePassword
  email := email
  passwordHash := passwordHash
  failedLoginAttempts := 0
  lockedUntil := none
  tokensInvalidatedAt := none
  lastLoginAt := none

inductive HttpStatus where
  | badRequest | unauthorized | forbidden | notFound | conflict
  deriving DecidableEq

/-- What a call or the code may throw. -/
inductive DirectoryError where
  | http (status : HttpStatus) (code message : String)
  | auth (e : AuthError)
  | typeError
  | failure
  deriving DecidableEq

inductive AdminErrorCode where
  | userEmailTaken | userDfspRequiresFspId | userAdminForbidsFspId | userSelfLock | userLastAdmin
  | userLastDfspAdmin | userManagementScopeDenied | userRoleNotAssignable | userNotFound
  | userRoleNotFound | roleNotFound | roleCannotRemoveAdminKey | rolePermissionScopeMismatch
  | permissionNotFound
  deriving DecidableEq

def AdminErrorCode.code : AdminErrorCode → String
  | .userEmailTaken => "ADMIN_USER_EMAIL_TAKEN"
  | .userDfspRequiresFspId => "ADMIN_USER_DFSP_REQUIRES_FSP_ID"
  | .userAdminForbidsFspId => "ADMIN_USER_ADMIN_FORBIDS_FSP_ID"
  | .userSelfLock => "ADMIN_USER_SELF_LOCK"
  | .userLastAdmin => "ADMIN_USER_LAST_ADMIN"
  | .userLastDfspAdmin => "ADMIN_USER_LAST_DFSP_ADMIN"
  | .userManagementScopeDenied => "ADMIN_USER_MANAGEMENT_SCOPE_DENIED"
  | .userRoleNotAssignable => "ADMIN_USER_ROLE_NOT_ASSIGNABLE"
  | .userNotFound => "ADMIN_USER_NOT_FOUND"
  | .userRoleNotFound => "ADMIN_USER_ROLE_NOT_FOUND"
  | .roleNotFound => "ADMIN_ROLE_NOT_FOUND"
  | .roleCannotRemoveAdminKey => "ADMIN_ROLE_CANNOT_REMOVE_ADMIN_KEY"
  | .rolePermissionScopeMismatch => "ADMIN_ROLE_PERMISSION_SCOPE_MISMATCH"
  | .permissionNotFound => "ADMIN_PERMISSION_NOT_FOUND"

def AdminErrorCode.message : AdminErrorCode → String
  | .userEmailTaken => "A user with that email already exists."
  | .userDfspRequiresFspId => "A DFSP-scoped role requires fspId."
  | .userAdminForbidsFspId => "A HUB-scoped role does not accept fspId."
  | .userSelfLock => "You cannot change your own role or active status, or delete your own account."
  | .userLastAdmin => "This change would leave no active users able to manage other users."
  | .userLastDfspAdmin => "This change would leave this FSP with no active DFSP administrator."
  | .userManagementScopeDenied => "You cannot manage that user."
  | .userRoleNotAssignable => "You cannot assign that role."
  | .userNotFound => "User not found."
  | .userRoleNotFound => "The specified role does not exist."
  | .roleNotFound => "Role not found."
  | .roleCannotRemoveAdminKey => "System roles must retain their admin.* permissions."
  | .rolePermissionScopeMismatch =>
    "One or more permissions cannot be assigned to a role with that scope."
  | .permissionNotFound => "One or more of the requested permission keys does not exist."

/-- The codes of `AuthErrorCode` that signing in, signing out and the guard add. -/
inductive SignInErrorCode where
  | invalidCredentials | passwordSameAsCurrent | unknownRole | tokenRevoked | userInactive
  deriving DecidableEq

def SignInErrorCode.code : SignInErrorCode → String
  | .invalidCredentials => "AUTH_INVALID_CREDENTIALS"
  | .passwordSameAsCurrent => "AUTH_PASSWORD_SAME_AS_CURRENT"
  | .unknownRole => "AUTH_UNKNOWN_ROLE"
  | .tokenRevoked => "AUTH_TOKEN_REVOKED"
  | .userInactive => "AUTH_USER_INACTIVE"

def SignInErrorCode.message : SignInErrorCode → String
  | .invalidCredentials => "Email or password is incorrect."
  | .passwordSameAsCurrent => "New password must differ from the current password."
  | .unknownRole => "Invalid email or password."
  | .tokenRevoked => "Session has been revoked. Please sign in again."
  | .userInactive => "Your account is inactive or has been deactivated. " ++
      "Please contact your administrator."

def adminError (status : HttpStatus) (code : AdminErrorCode) : DirectoryError :=
  .http status code.code code.message

def signInError (status : HttpStatus) (code : SignInErrorCode) : DirectoryError :=
  .http status code.code code.message

/-- `UserUpdate`: the columns that are given. -/
structure UserUpdate where
  roleId : Option String
  fspId : Option (Option String)
  isActive : Option Bool
  deriving DecidableEq

namespace UserUpdate

def isEmpty (patch : UserUpdate) : Bool :=
  patch.roleId.isNone && patch.fspId.isNone && patch.isActive.isNone

def apply (patch : UserUpdate) (u : Account) : Account :=
  { u with
    roleId := patch.roleId.getD u.roleId
    fspId := patch.fspId.getD u.fspId
    isActive := patch.isActive.getD u.isActive }

end UserUpdate

/-- How a date becomes one of a column without fractions of a second: rounded to a second, in
order, and to no second before its own. -/
structure DatetimeColumn where
  store : Js.Date → Js.Date
  mono : ∀ d d', d ≤ d' → store d ≤ store d'
  second_le : ∀ d, d / 1000 ≤ store d / 1000

/-- The settings of the domain, the comparison of `bcrypt`, and the columns' collation (two texts
are the same to the database if they fold to one). -/
structure DirectorySettings extends AuthSettings where
  compare : String → String → Bool
  collate : String → String
  datetime : DatetimeColumn
  loginLockoutThreshold : ℕ
  loginLockoutDurationMinutes : ℤ

/-- The calls of the handlers. Those of a refresh, and of the token service, are `auth`. -/
inductive DirectoryOp where
  | auth (op : AuthOp)
  | findUserById (id : String)
  | findUserByEmail (email : String)
  | findRoleById (id : String)
  | findRoleByCode (code : String)
  | findPermissionKeysByRoleId (roleId : String)
  | findPermissionsByKeyNames (keyNames : List String)
  | countActiveUsersGrantingPermission (permissionKey excludeUserId : String)
  | countActiveUsersByRoleIdForFsp (roleId fspId excludeUserId : String)
  | insertUser (user : Account)
  | updateUser (id : String) (patch : UserUpdate)
  | deactivate (id : String)
  | updatePasswordHash (id passwordHash : String) (mustChangePassword : Bool)
  | recordSuccessfulLogin (id : String) (lastLoginAt : Js.Date)
  | incrementFailedAttempts (id : String)
  | lockUntil (id : String) (lockedUntil : Js.Date)
  | invalidateTokens (id : String) (tokensInvalidatedAt : Js.Date)
  | invalidateTokensForRole (roleId : String) (tokensInvalidatedAt : Js.Date)
  | replaceForRole (roleId : String) (permissionIds : List String)
  | revokeAllForUser (userId : String) (revokedAt : Js.Date)
  | generateTempPassword
  | hashPassword (plaintext : String)
  | verifyPassword (plaintext hash : String)
  deriving DecidableEq

@[reducible] def DirectoryAnswer : DirectoryOp → Type
  | .auth op => AuthAnswer op
  | .findUserById _ => Except DirectoryError (Option Account)
  | .findUserByEmail _ => Except DirectoryError (Option Account)
  | .findRoleById _ => Except DirectoryError (Option RoleRow)
  | .findRoleByCode _ => Except DirectoryError (Option RoleRow)
  | .findPermissionKeysByRoleId _ => Except DirectoryError (List String)
  | .findPermissionsByKeyNames _ => Except DirectoryError (List Permission)
  | .countActiveUsersGrantingPermission _ _ => Except DirectoryError ℕ
  | .countActiveUsersByRoleIdForFsp _ _ _ => Except DirectoryError ℕ
  | .insertUser _ => Written DirectoryError Unit
  | .updateUser _ _ => Written DirectoryError Unit
  | .deactivate _ => Written DirectoryError Unit
  | .updatePasswordHash _ _ _ => Written DirectoryError Unit
  | .recordSuccessfulLogin _ _ => Written DirectoryError Unit
  | .incrementFailedAttempts _ => Written DirectoryError Unit
  | .lockUntil _ _ => Written DirectoryError Unit
  | .invalidateTokens _ _ => Written DirectoryError Unit
  | .invalidateTokensForRole _ _ => Written DirectoryError Unit
  | .replaceForRole _ _ => Written DirectoryError Unit
  | .revokeAllForUser _ _ => Written DirectoryError Unit
  | .generateTempPassword => String
  | .hashPassword _ => Except DirectoryError String
  | .verifyPassword _ _ => Except DirectoryError Bool

abbrev DirectoryProgram := Async.Program DirectoryOp DirectoryAnswer DirectoryError

/-- A program of the token service or of a refresh, among the handlers. -/
def ofAuth {α : Type} (p : AuthProgram α) : DirectoryProgram α :=
  (p.embed DirectoryOp.auth fun _ a => a).mapError .auth

/-- The tables, the access tokens that were ever signed, the identifiers that were ever minted,
and the latest time that was read. -/
structure Directory where
  users : Store.Table fun u : Account => u.id
  roles : Store.Table fun r : RoleRow => r.id
  permissions : Store.Table fun p : Permission => p.id
  rolePermissions : List (String × String)
  refreshTokens : RefreshTokens
  accessTokens : List AccessTokenClaims
  issued : List String
  latest : Js.Date

namespace Directory

variable (d : Directory)

def permissionKeys (roleId : String) : List String :=
  (d.rolePermissions.filter fun g => g.1 = roleId).filterMap fun g =>
    (d.permissions.find? g.2).map Permission.keyName

/-- An active user whose role grants the permission. -/
def Grants (permissionKey : String) (u : Account) : Prop :=
  u.isActive = true ∧ permissionKey ∈ d.permissionKeys u.roleId

instance (permissionKey : String) (u : Account) : Decidable (d.Grants permissionKey u) :=
  inferInstanceAs (Decidable (_ ∧ _))

/-- `UPDATE users SET … WHERE p`, of columns other than the identifier. -/
def updateUsers (p : Account → Bool) (f : Account → Account) (h : ∀ u, (f u).id = u.id) :
    Directory := { d with users := d.users.modify p f h }

theorem mem_updateUsers {p : Account → Bool} {f : Account → Account} {h : ∀ u, (f u).id = u.id}
    {u : Account} : u ∈ (d.updateUsers p f h).users.rows ↔
      ∃ u' ∈ d.users.rows, u = if p u' then f u' else u' := Store.Table.mem_modify (h := h)

def updateUser (id : String) (patch : UserUpdate) : Directory :=
  d.updateUsers (fun u => u.id = id) patch.apply fun _ => rfl

def deactivate (id : String) : Directory :=
  d.updateUsers (fun u => u.id = id) (fun u => { u with isActive := false }) fun _ => rfl

def updatePasswordHash (id passwordHash : String) (mustChangePassword : Bool) : Directory :=
  d.updateUsers (fun u => u.id = id)
    (fun u => { u with passwordHash := passwordHash, mustChangePassword := mustChangePassword })
    fun _ => rfl

def recordSuccessfulLogin (id : String) (lastLoginAt : Js.Date) : Directory :=
  d.updateUsers (fun u => u.id = id)
    (fun u => { u with
      lastLoginAt := some lastLoginAt, failedLoginAttempts := 0, lockedUntil := none })
    fun _ => rfl

def incrementFailedAttempts (id : String) : Directory :=
  d.updateUsers (fun u => u.id = id)
    (fun u => { u with failedLoginAttempts := u.failedLoginAttempts + 1 }) fun _ => rfl

def lockUntil (id : String) (lockedUntil : Js.Date) : Directory :=
  d.updateUsers (fun u => u.id = id) (fun u => { u with lockedUntil := some lockedUntil }) fun _ => rfl

def invalidateWhere (p : Account → Bool) (tokensInvalidatedAt : Js.Date) : Directory :=
  d.updateUsers p (fun u => { u with tokensInvalidatedAt := some tokensInvalidatedAt })
    fun _ => rfl

/-- In one transaction, the role's grants go and the given ones come. -/
def replaceForRole (roleId : String) (permissionIds : List String) : Directory :=
  { d with
    rolePermissions := d.rolePermissions.filter (fun g => g.1 ≠ roleId) ++
      permissionIds.map fun p => (roleId, p) }

def revokeAllForUser (userId : String) (revokedAt : Js.Date) : Directory :=
  { d with
    refreshTokens := d.refreshTokens.revokeWhere
      (fun t => t.userId = userId && t.revokedAt.isNone) revokedAt }

/-- The identifier and the email are unique keys. -/
def AdmitsUser (collate : String → String) (user : Account) : Prop :=
  ∀ u ∈ d.users.rows, u.id ≠ user.id ∧ collate u.email ≠ collate user.email

instance (collate : String → String) (user : Account) : Decidable (d.AdmitsUser collate user) :=
  inferInstanceAs (Decidable (∀ u ∈ d.users.rows, _))

def insertUser (collate : String → String) (user : Account) (h : d.AdmitsUser collate user) :
    Directory := { d with users := d.users.insert user fun u hu => (h u hu).1 }

/-- A call to the table of refresh tokens. -/
def storesTokens (op : AuthOp) (a : AuthAnswer op) (d' : Directory) : Prop :=
  ∃ t, d.refreshTokens.performs op a t ∧ d' = { d with refreshTokens := t }

/-- What a call of a refresh, or of the token service, answers and does. -/
def performsAuth : (op : AuthOp) → AuthAnswer op → Directory → Prop
  | .now, a, d' => d' = { d with latest := max d.latest a }
  | .nextId, a, d' => a ∉ d.issued ∧ d' = { d with issued := a :: d.issued }
  | .randomBytes, _, d' => d' = d
  | .findUser id, a, d' => d' = d ∧
    ∀ found, a = .ok found → found = (d.users.find? id).map Account.toUser
  | .findRole id, a, d' => d' = d ∧
    ∀ found, a = .ok found → found = (d.roles.find? id).map RoleRow.toRole
  | .findPermissionKeys roleId, a, d' => d' = d ∧
    ∀ found, a = .ok found → found = d.permissionKeys roleId
  | .sign claims, a, d' => d' = match a with
    | .ok _ => { d with accessTokens := claims :: d.accessTokens }
    | .error _ => d
  | .findByTokenHash tokenHash, a, d' => d.storesTokens (.findByTokenHash tokenHash) a d'
  | .revokeFamily familyId revokedAt, a, d' => d.storesTokens (.revokeFamily familyId revokedAt) a d'
  | .markRevoked id replacedBy revokedAt, a, d' =>
    d.storesTokens (.markRevoked id replacedBy revokedAt) a d'
  | .insert token, a, d' => d.storesTokens (.insert token) a d'

end Directory

/-- What one call answers and does to the tables. -/
def Directory.performs (settings : DirectorySettings) (d : Directory) : (op : DirectoryOp) → DirectoryAnswer op → Directory → Prop
  | .auth op, a, d' => d.performsAuth op a d'
  | .findUserById id, a, d' => d' = d ∧ ∀ found, a = .ok found → found = d.users.find? id
  | .findUserByEmail email, a, d' => d' = d ∧ ∀ found, a = .ok found →
    found = d.users.rows.find? (fun u => settings.collate u.email = settings.collate email)
  | .findRoleById id, a, d' => d' = d ∧ ∀ found, a = .ok found → found = d.roles.find? id
  | .findRoleByCode code, a, d' => d' = d ∧ ∀ found, a = .ok found →
    found = d.roles.rows.find? (fun r => settings.collate r.code = settings.collate code)
  | .findPermissionKeysByRoleId roleId, a, d' => d' = d ∧
    ∀ found, a = .ok found → found = d.permissionKeys roleId
  | .findPermissionsByKeyNames keyNames, a, d' => d' = d ∧
    ∀ found, a = .ok found → found = d.permissions.rows.filter fun p => p.keyName ∈ keyNames
  | .countActiveUsersGrantingPermission permissionKey excludeUserId, a, d' => d' = d ∧
    ∀ n, a = .ok n →
      n = d.users.rows.countP fun u => d.Grants permissionKey u && u.id ≠ excludeUserId
  | .countActiveUsersByRoleIdForFsp roleId fspId excludeUserId, a, d' => d' = d ∧
    ∀ n, a = .ok n → n = d.users.rows.countP fun u => u.isActive && u.roleId = roleId &&
      u.fspId.map settings.collate = some (settings.collate fspId) && u.id ≠ excludeUserId
  | .insertUser user, a, d' =>
    (∃ h : d.AdmitsUser settings.collate user, d' = a.applies d (d.insertUser _ user h)) ∨
      ¬ d.AdmitsUser settings.collate user ∧ (∃ e, a = .rejected e) ∧ d' = d
  | .updateUser id patch, a, d' => d' = a.applies d (d.updateUser id patch)
  | .deactivate id, a, d' => d' = a.applies d (d.deactivate id)
  | .updatePasswordHash id passwordHash mustChangePassword, a, d' =>
    d' = a.applies d (d.updatePasswordHash id passwordHash mustChangePassword)
  | .recordSuccessfulLogin id lastLoginAt, a, d' =>
    d' = a.applies d (d.recordSuccessfulLogin id (settings.datetime.store lastLoginAt))
  | .incrementFailedAttempts id, a, d' => d' = a.applies d (d.incrementFailedAttempts id)
  | .lockUntil id lockedUntil, a, d' =>
    d' = a.applies d (d.lockUntil id (settings.datetime.store lockedUntil))
  | .invalidateTokens id tokensInvalidatedAt, a, d' => d' = a.applies d
    (d.invalidateWhere (fun u => u.id = id) (settings.datetime.store tokensInvalidatedAt))
  | .invalidateTokensForRole roleId tokensInvalidatedAt, a, d' => d' = a.applies d
    (d.invalidateWhere (fun u => u.roleId = roleId) (settings.datetime.store tokensInvalidatedAt))
  | .replaceForRole roleId permissionIds, a, d' =>
    d' = a.applies d (d.replaceForRole roleId permissionIds)
  | .revokeAllForUser userId revokedAt, a, d' =>
    d' = a.applies d (d.revokeAllForUser userId revokedAt)
  | .generateTempPassword, _, d' => d' = d
  | .hashPassword _, _, d' => d' = d
  | .verifyPassword plaintext hash, a, d' => d' = d ∧
    ∀ valid, a = .ok valid → valid = settings.compare plaintext hash

namespace Directory

/-! A directory whose calls all succeed, at one time. -/

def sampleDatetime : DatetimeColumn where
  store d := d
  mono _ _ h := h
  second_le _ := le_rfl

def sampleDirectorySettings : DirectorySettings where
  sha256Hex plaintext := plaintext
  accessTokenTtlSeconds := 900
  sessionAbsoluteTimeoutHours := 12
  sessionIdleTimeoutMinutes := 30
  compare plaintext hash := plaintext = hash
  collate text := text
  datetime := sampleDatetime
  loginLockoutThreshold := 5
  loginLockoutDurationMinutes := 15

/-- A text longer than every identifier so far. -/
def fresh (issued : List String) : String :=
  String.ofList (List.replicate ((issued.map String.length).foldr max 0 + 1) 'b')

theorem fresh_notMem (issued : List String) : fresh issued ∉ issued := by
  have hlength : ∀ x ∈ issued, x.length ≤ (issued.map String.length).foldr max 0 := by
    intro x hx
    induction issued with
    | nil => cases hx
    | cons y ys ih =>
      simp only [List.map_cons, List.foldr_cons]
      rcases List.mem_cons.mp hx with rfl | hx
      · exact le_max_left _ _
      · exact (ih hx).trans (le_max_right _ _)
  intro hmem
  have hfresh := hlength _ hmem
  simp [fresh] at hfresh

/-- The answer of the tables of refresh tokens. -/
def respondTokens (d : Directory) (op : AuthOp) : AuthAnswer op × Directory :=
  ((d.refreshTokens.respond op).1, { d with refreshTokens := (d.refreshTokens.respond op).2 })

def respondAuth (d : Directory) : (op : AuthOp) → AuthAnswer op × Directory
  | .now => (d.latest, d)
  | .nextId => (fresh d.issued, { d with issued := fresh d.issued :: d.issued })
  | .randomBytes => (fresh d.issued, d)
  | .findUser id => (.ok ((d.users.find? id).map Account.toUser), d)
  | .findRole id => (.ok ((d.roles.find? id).map RoleRow.toRole), d)
  | .findPermissionKeys roleId => (.ok (d.permissionKeys roleId), d)
  | .sign claims => (.ok "jwt", { d with accessTokens := claims :: d.accessTokens })
  | .findByTokenHash tokenHash => d.respondTokens (.findByTokenHash tokenHash)
  | .revokeFamily familyId revokedAt => d.respondTokens (.revokeFamily familyId revokedAt)
  | .markRevoked id replacedBy revokedAt =>
    d.respondTokens (.markRevoked id replacedBy revokedAt)
  | .insert token => d.respondTokens (.insert token)

def respond (settings : DirectorySettings) (d : Directory) :
    (op : DirectoryOp) → DirectoryAnswer op × Directory
  | .auth op => d.respondAuth op
  | .findUserById id => (.ok (d.users.find? id), d)
  | .findUserByEmail email => (.ok (d.users.rows.find? fun u =>
    settings.collate u.email = settings.collate email), d)
  | .findRoleById id => (.ok (d.roles.find? id), d)
  | .findRoleByCode code => (.ok (d.roles.rows.find? fun r =>
    settings.collate r.code = settings.collate code), d)
  | .findPermissionKeysByRoleId roleId => (.ok (d.permissionKeys roleId), d)
  | .findPermissionsByKeyNames keyNames =>
    (.ok (d.permissions.rows.filter fun p => p.keyName ∈ keyNames), d)
  | .countActiveUsersGrantingPermission permissionKey excludeUserId =>
    (.ok (d.users.rows.countP fun u => d.Grants permissionKey u && u.id ≠ excludeUserId), d)
  | .countActiveUsersByRoleIdForFsp roleId fspId excludeUserId =>
    (.ok (d.users.rows.countP fun u => u.isActive && u.roleId = roleId &&
      u.fspId.map settings.collate = some (settings.collate fspId) && u.id ≠ excludeUserId), d)
  | .insertUser user =>
    if h : d.AdmitsUser settings.collate user then (.done (), d.insertUser _ user h)
    else (.rejected .failure, d)
  | .updateUser id patch => (.done (), d.updateUser id patch)
  | .deactivate id => (.done (), d.deactivate id)
  | .updatePasswordHash id passwordHash mustChangePassword =>
    (.done (), d.updatePasswordHash id passwordHash mustChangePassword)
  | .recordSuccessfulLogin id lastLoginAt =>
    (.done (), d.recordSuccessfulLogin id (settings.datetime.store lastLoginAt))
  | .incrementFailedAttempts id => (.done (), d.incrementFailedAttempts id)
  | .lockUntil id lockedUntil => (.done (), d.lockUntil id (settings.datetime.store lockedUntil))
  | .invalidateTokens id tokensInvalidatedAt => (.done (), d.invalidateWhere (fun u => u.id = id)
    (settings.datetime.store tokensInvalidatedAt))
  | .invalidateTokensForRole roleId tokensInvalidatedAt => (.done (), d.invalidateWhere
    (fun u => u.roleId = roleId) (settings.datetime.store tokensInvalidatedAt))
  | .replaceForRole roleId permissionIds => (.done (), d.replaceForRole roleId permissionIds)
  | .revokeAllForUser userId revokedAt => (.done (), d.revokeAllForUser userId revokedAt)
  | .generateTempPassword => ("temporary", d)
  | .hashPassword plaintext => (.ok plaintext, d)
  | .verifyPassword plaintext hash => (.ok (settings.compare plaintext hash), d)

theorem performs_respondAuth (d : Directory) (op : AuthOp) :
    d.performsAuth op (d.respondAuth op).1 (d.respondAuth op).2 := by
  cases op with
  | now => simp [performsAuth, respondAuth]
  | nextId => exact ⟨fresh_notMem d.issued, rfl⟩
  | randomBytes => rfl
  | sign claims => rfl
  | findUser id | findRole id | findPermissionKeys id =>
    refine ⟨rfl, ?_⟩
    rintro _ ⟨⟩
    rfl
  | findByTokenHash _ | revokeFamily _ _ | markRevoked _ _ _ | insert _ =>
    exact ⟨_, d.refreshTokens.performs_respond _, rfl⟩

theorem performs_respond (settings : DirectorySettings) (d : Directory) (op : DirectoryOp) :
    performs settings d op (respond settings d op).1 (respond settings d op).2 := by
  cases op with
  | auth op => exact d.performs_respondAuth op
  | insertUser user =>
    by_cases h : d.AdmitsUser settings.collate user
    · simp [performs, respond, h]
    · simp [performs, respond, h]
  | findUserById _ | findUserByEmail _ | findRoleById _ | findRoleByCode _
    | findPermissionKeysByRoleId _ | findPermissionsByKeyNames _
    | countActiveUsersGrantingPermission _ _ | countActiveUsersByRoleIdForFsp _ _ _
    | verifyPassword _ _ =>
    refine ⟨rfl, ?_⟩
    rintro _ ⟨⟩
    rfl
  | _ => rfl

end Directory
end Auth
