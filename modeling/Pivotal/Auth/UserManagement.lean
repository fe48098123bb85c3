import Pivotal.Auth.Directory

/-! The repositories, `UserManagementPolicy`, and the handlers that manage users and roles. -/
namespace Auth
open Async (Written)
open Async.Program (perform lift)

namespace UserRepository

def findById (id : String) : DirectoryProgram (Option Account) := do
  lift (← perform (.findUserById id))

def findByEmail (email : String) : DirectoryProgram (Option Account) := do
  lift (← perform (.findUserByEmail email))

/-- The entity is new: it is inserted under the identifier it is assigned. -/
def save (entity : String → Account) : DirectoryProgram Account := do
  let id ← perform (.auth .nextId)
  lift (Written.toExcept (← perform (.insertUser (entity id))))
  return entity id

def countActiveUsersGrantingPermission (permissionKey excludeUserId : String) :
    DirectoryProgram ℕ := do
  lift (← perform (.countActiveUsersGrantingPermission permissionKey excludeUserId))

def countActiveUsersByRoleIdForFsp (roleId fspId excludeUserId : String) :
    DirectoryProgram ℕ := do
  lift (← perform (.countActiveUsersByRoleIdForFsp roleId fspId excludeUserId))

def incrementFailedAttempts (id : String) : DirectoryProgram Unit := do
  lift (Written.toExcept (← perform (.incrementFailedAttempts id)))

def lockUntil (id : String) (lockedUntil : Js.Date) : DirectoryProgram Unit := do
  lift (Written.toExcept (← perform (.lockUntil id lockedUntil)))

def recordSuccessfulLogin (id : String) : DirectoryProgram Unit := do
  let now ← perform (.auth .now)
  lift (Written.toExcept (← perform (.recordSuccessfulLogin id now)))

def updatePasswordHash (id passwordHash : String) (mustChangePassword : Bool) :
    DirectoryProgram Unit := do
  lift (Written.toExcept (← perform (.updatePasswordHash id passwordHash mustChangePassword)))

def update (id : String) (patch : UserUpdate) : DirectoryProgram Unit := do
  lift (Written.toExcept (← perform (.updateUser id patch)))

def deactivate (id : String) : DirectoryProgram Unit := do
  lift (Written.toExcept (← perform (.deactivate id)))

def invalidateTokens (id : String) : DirectoryProgram Unit := do
  let now ← perform (.auth .now)
  lift (Written.toExcept (← perform (.invalidateTokens id now)))

def invalidateTokensForRole (roleId : String) : DirectoryProgram Unit := do
  let now ← perform (.auth .now)
  lift (Written.toExcept (← perform (.invalidateTokensForRole roleId now)))

end UserRepository

namespace RoleRepository

def findById (id : String) : DirectoryProgram (Option RoleRow) := do
  lift (← perform (.findRoleById id))

def findByCode (code : String) : DirectoryProgram (Option RoleRow) := do
  lift (← perform (.findRoleByCode code))

end RoleRepository

namespace RolePermissionRepository

def findPermissionKeysByRoleId (roleId : String) : DirectoryProgram (List String) := do
  lift (← perform (.findPermissionKeysByRoleId roleId))

def replaceForRole (roleId : String) (permissionIds : List String) : DirectoryProgram Unit := do
  lift (Written.toExcept (← perform (.replaceForRole roleId permissionIds)))

end RolePermissionRepository

def RefreshTokenRepository.revokeAllForUser (userId : String) : DirectoryProgram Unit := do
  let now ← perform (.auth .now)
  lift (Written.toExcept (← perform (.revokeAllForUser userId now)))

/-- Nothing is asked for when there are no keys. -/
def PermissionRepository.findByKeyNames (keyNames : List String) :
    DirectoryProgram (List Permission) :=
  if keyNames.isEmpty then pure []
  else do lift (← perform (.findPermissionsByKeyNames keyNames))

namespace PasswordService

def hash (plaintext : String) : DirectoryProgram String := do
  lift (← perform (.hashPassword plaintext))

def verify (plaintext hash : String) : DirectoryProgram Bool := do
  lift (← perform (.verifyPassword plaintext hash))

end PasswordService

/-- A reference that the code takes to be there. -/
def nonNull {α : Type} (x : Option α) : DirectoryProgram α :=
  match x with
  | some a => pure a
  | none => throw .typeError

structure UserManagementContext where
  actor : Account
  actorRole : RoleRow
  actorPermissions : List String
  globalManager : Bool
  dfspManager : Bool
  managementFspId : Option String
  deriving DecidableEq

namespace UserManagementPolicy

def resolveManagementContext (actorId : String) : DirectoryProgram UserManagementContext := do
  let some actor ← UserRepository.findById actorId
    | throw (adminError .forbidden .userManagementScopeDenied)
  if !actor.isActive then
    throw (adminError .forbidden .userManagementScopeDenied)
  let some actorRole ← RoleRepository.findById actor.roleId
    | throw (adminError .forbidden .userManagementScopeDenied)
  let actorPermissions ← RolePermissionRepository.findPermissionKeysByRoleId actor.roleId
  let globalManager := actorPermissions.contains PermissionKey.adminUsersManage
  let dfspManager := actorPermissions.contains PermissionKey.adminDfspUsersManage
  if !globalManager && !dfspManager then
    throw (adminError .forbidden .userManagementScopeDenied)
  if !globalManager && actor.fspId.isNone then
    throw (adminError .forbidden .userManagementScopeDenied)
  return { actor := actor
           actorRole := actorRole
           actorPermissions := actorPermissions
           globalManager := globalManager
           dfspManager := dfspManager
           managementFspId := if globalManager then none else actor.fspId }

def canManageTargetRole (context : UserManagementContext) (target : Account)
    (targetRole : RoleRow) : Bool :=
  if context.globalManager then
    targetRole.code ≠ adminRoleCode || context.actorRole.code = adminRoleCode
  else if context.managementFspId = none ∨ target.fspId ≠ context.managementFspId then false
  else if targetRole.scope ≠ .dfsp then false
  else targetRole.code ≠ dfspAdminRoleCode || context.actorRole.code = dfspAdminRoleCode

def assertCanManageTargetRole (context : UserManagementContext) (target : Account)
    (targetRole : RoleRow) : DirectoryProgram Unit :=
  if canManageTargetRole context target targetRole then pure ()
  else throw (adminError .forbidden .userManagementScopeDenied)

def canAssignRole (context : UserManagementContext) (role : RoleRow) : Bool :=
  if context.globalManager then
    role.code ≠ adminRoleCode || context.actorRole.code = adminRoleCode
  else if role.scope ≠ .dfsp then false
  else role.code ≠ dfspAdminRoleCode

def assertCanAssignRole (context : UserManagementContext) (role : RoleRow) :
    DirectoryProgram Unit :=
  if canAssignRole context role then pure ()
  else throw (adminError .forbidden .userRoleNotAssignable)

def resolveCreateFspId (context : UserManagementContext) (requestedFspId : Option String) :
    Option String :=
  if context.globalManager then requestedFspId else context.managementFspId

/-- What is left of the check once the target is known to be a DFSP administrator who is going. -/
def assertOtherDfspManager (fspId targetUserId : String) : DirectoryProgram Unit := do
  let some dfspAdminRole ← RoleRepository.findByCode dfspAdminRoleCode
    | throw (adminError .conflict .userLastDfspAdmin)
  let others ← UserRepository.countActiveUsersByRoleIdForFsp dfspAdminRole.id fspId targetUserId
  if others = 0 then
    throw (adminError .conflict .userLastDfspAdmin)

def assertNotLastDfspManager (targetUser : Account) (currentRoleId nextRoleId : String)
    (nextFspId : Option String) (deactivating : Bool) : DirectoryProgram Unit := do
  let some fspId := targetUser.fspId
    | return ()
  let currentRole ← RoleRepository.findById currentRoleId
  if currentRole.map (fun r => r.code) ≠ some dfspAdminRoleCode then
    return ()
  if !deactivating && currentRoleId = nextRoleId && some fspId = nextFspId then
    return ()
  if !deactivating && some fspId = nextFspId then
    let nextRole ← RoleRepository.findById nextRoleId
    if nextRole.map (fun r => r.code) = some dfspAdminRoleCode then
      return ()
    assertOtherDfspManager fspId targetUser.id
  else
    assertOtherDfspManager fspId targetUser.id

end UserManagementPolicy

open UserManagementPolicy

/-- `fspId != null && fspId.trim().length > 0 ? fspId.trim() : null`. -/
def requestedFsp (fspId : Option String) : Option String :=
  fspId.bind fun f => if Js.trim f = "" then none else some (Js.trim f)

/-- A HUB-scoped role has no FSP, and a DFSP-scoped one has one. -/
def assertScopeFitsFsp (role : RoleRow) (fspId : Option String) : DirectoryProgram Unit := do
  if role.scope = .hub && fspId.isSome then
    throw (adminError .badRequest .userAdminForbidsFspId)
  if role.scope = .dfsp && fspId.isNone then
    throw (adminError .badRequest .userDfspRequiresFspId)

namespace CreateUserCommand

structure Input where
  actingUserId : String
  email : String
  roleId : String
  fspId : Option String
  deriving DecidableEq

structure Output where
  user : Account
  role : RoleRow
  tempPassword : String
  deriving DecidableEq

end CreateUserCommand

def CreateUserHandler.execute (input : CreateUserCommand.Input) :
    DirectoryProgram CreateUserCommand.Output := do
  let context ← resolveManagementContext input.actingUserId
  let some role ← RoleRepository.findById input.roleId
    | throw (adminError .badRequest .userRoleNotFound)
  assertCanAssignRole context role
  let effectiveFspId := resolveCreateFspId context (requestedFsp input.fspId)
  assertScopeFitsFsp role effectiveFspId
  let existing ← UserRepository.findByEmail input.email
  if existing.isSome then
    throw (adminError .conflict .userEmailTaken)
  let tempPassword ← perform .generateTempPassword
  let passwordHash ← PasswordService.hash tempPassword
  let saved ← UserRepository.save
    (Account.new input.email passwordHash role.id effectiveFspId true)
  return { user := saved, role := role, tempPassword := tempPassword }

namespace UpdateUserCommand

/-- `undefined` is `none`; an `fspId` may also be given as null. -/
structure Input where
  targetUserId : String
  actingUserId : String
  roleId : Option String
  fspId : Option (Option String)
  isActive : Option Bool
  deriving DecidableEq

structure Output where
  user : Option Account
  role : RoleRow
  deriving DecidableEq

end UpdateUserCommand

namespace UpdateUserHandler

def assertOtherAdmin (targetUserId : String) : DirectoryProgram Unit := do
  let others ← UserRepository.countActiveUsersGrantingPermission PermissionKey.adminUsersManage
    targetUserId
  if others = 0 then
    throw (adminError .conflict .userLastAdmin)

def assertNotLastAdmin (targetUserId currentRoleId nextRoleId : String) (deactivating : Bool) :
    DirectoryProgram Unit := do
  let currentKeys ← RolePermissionRepository.findPermissionKeysByRoleId currentRoleId
  if !currentKeys.contains PermissionKey.adminUsersManage then
    return ()
  if !deactivating && currentRoleId ≠ nextRoleId then
    let nextKeys ← RolePermissionRepository.findPermissionKeysByRoleId nextRoleId
    if nextKeys.contains PermissionKey.adminUsersManage then
      return ()
    assertOtherAdmin targetUserId
  else
    assertOtherAdmin targetUserId

/-- The columns that change. -/
def patchFor (target : Account) (newRole : RoleRow) (roleChange : Bool)
    (effectiveFspId : Option String) (isActive : Option Bool) : UserUpdate where
  roleId := if roleChange then some newRole.id else none
  fspId := if effectiveFspId ≠ target.fspId then some effectiveFspId else none
  isActive := isActive.filter fun a => a ≠ target.isActive

/-- Write what changes, and withdraw what the target holds. -/
def applyPatch (target : Account) (patch : UserUpdate) (deactivation : Bool) :
    DirectoryProgram (Option Account) := do
  if !patch.isEmpty then
    UserRepository.update target.id patch
  UserRepository.invalidateTokens target.id
  if deactivation then
    RefreshTokenRepository.revokeAllForUser target.id
  UserRepository.findById target.id

/-- What follows once the target, its role and the new role are known. -/
def change (input : UpdateUserCommand.Input) (context : UserManagementContext) (target : Account)
    (newRole : RoleRow) (roleChange deactivation : Bool) :
    DirectoryProgram UpdateUserCommand.Output := do
  assertCanAssignRole context newRole
  let requestedFspId := match input.fspId with
    | none => target.fspId
    | some fspId => requestedFsp fspId
  let effectiveFspId := if context.globalManager then requestedFspId else context.managementFspId
  assertScopeFitsFsp newRole effectiveFspId
  if deactivation || roleChange then
    assertNotLastAdmin target.id target.roleId (if roleChange then newRole.id else target.roleId)
      deactivation
  assertNotLastDfspManager target target.roleId newRole.id effectiveFspId deactivation
  let updated ← applyPatch target
    (patchFor target newRole roleChange effectiveFspId input.isActive) deactivation
  return { user := updated, role := newRole }

def execute (input : UpdateUserCommand.Input) : DirectoryProgram UpdateUserCommand.Output := do
  let context ← resolveManagementContext input.actingUserId
  let some target ← UserRepository.findById input.targetUserId
    | throw (adminError .notFound .userNotFound)
  let some targetRole ← RoleRepository.findById target.roleId
    | throw (adminError .badRequest .userRoleNotFound)
  assertCanManageTargetRole context target targetRole
  let isSelf := input.targetUserId = input.actingUserId
  let roleChange := input.roleId.isSome && input.roleId ≠ some target.roleId
  let deactivation := input.isActive = some false && target.isActive
  if isSelf ∧ (roleChange || deactivation) then
    throw (adminError .badRequest .userSelfLock)
  let some newRole ← RoleRepository.findById
      (if roleChange then input.roleId.getD target.roleId else target.roleId)
    | throw (adminError .badRequest .userRoleNotFound)
  change input context target newRole roleChange deactivation

end UpdateUserHandler

namespace DeactivateUserCommand

structure Input where
  targetUserId : String
  actingUserId : String
  deriving DecidableEq

structure Output where
  user : Option Account
  role : RoleRow
  deriving DecidableEq

end DeactivateUserCommand

namespace DeactivateUserHandler

/-- Switch the account off, and withdraw what it holds. -/
def switchOff (target : Account) : DirectoryProgram (Option Account) := do
  UserRepository.deactivate target.id
  RefreshTokenRepository.revokeAllForUser target.id
  UserRepository.invalidateTokens target.id
  UserRepository.findById target.id

def execute (input : DeactivateUserCommand.Input) :
    DirectoryProgram DeactivateUserCommand.Output := do
  let context ← resolveManagementContext input.actingUserId
  if input.targetUserId = input.actingUserId then
    throw (adminError .badRequest .userSelfLock)
  let some target ← UserRepository.findById input.targetUserId
    | throw (adminError .notFound .userNotFound)
  let role ← nonNull (← RoleRepository.findById target.roleId)
  assertCanManageTargetRole context target role
  if !target.isActive then
    return { user := some target, role := role }
  let grants ← RolePermissionRepository.findPermissionKeysByRoleId target.roleId
  if grants.contains PermissionKey.adminUsersManage then
    UpdateUserHandler.assertOtherAdmin target.id
  assertNotLastDfspManager target target.roleId target.roleId target.fspId true
  let refreshed ← switchOff target
  return { user := refreshed, role := role }

end DeactivateUserHandler

namespace ResetUserPasswordCommand

structure Input where
  targetUserId : String
  actingUserId : String
  deriving DecidableEq

structure Output where
  user : Option Account
  role : RoleRow
  tempPassword : String
  deriving DecidableEq

end ResetUserPasswordCommand

def ResetUserPasswordHandler.execute (input : ResetUserPasswordCommand.Input) :
    DirectoryProgram ResetUserPasswordCommand.Output := do
  let context ← resolveManagementContext input.actingUserId
  let some user ← UserRepository.findById input.targetUserId
    | throw (adminError .notFound .userNotFound)
  let role ← nonNull (← RoleRepository.findById user.roleId)
  assertCanManageTargetRole context user role
  let tempPassword ← perform .generateTempPassword
  let passwordHash ← PasswordService.hash tempPassword
  UserRepository.updatePasswordHash user.id passwordHash true
  RefreshTokenRepository.revokeAllForUser user.id
  UserRepository.invalidateTokens user.id
  let refreshed ← UserRepository.findById user.id
  return { user := refreshed, role := role, tempPassword := tempPassword }

namespace ReplaceRolePermissionsCommand

structure Input where
  roleId : String
  permissionKeys : List String
  deriving DecidableEq

structure Output where
  roleId : String
  permissionKeys : List String
  deriving DecidableEq

end ReplaceRolePermissionsCommand

namespace ReplaceRolePermissionsHandler

def adminKeyPrefix : String := "admin."

def isAdminKey (key : String) : Bool := adminKeyPrefix.toList.isPrefixOf key.toList

/-- `ADMIN_PERMISSION_LOCKED_ROLE_CODES`. -/
def locked (role : RoleRow) : Bool :=
  role.isSystem && (role.code = adminRoleCode || role.code = dfspAdminRoleCode)

def execute (input : ReplaceRolePermissionsCommand.Input) :
    DirectoryProgram ReplaceRolePermissionsCommand.Output := do
  let some role ← RoleRepository.findById input.roleId
    | throw (adminError .notFound .roleNotFound)
  let dedupedKeys := input.permissionKeys.eraseDups
  let resolved ← PermissionRepository.findByKeyNames dedupedKeys
  if resolved.length ≠ dedupedKeys.length then
    throw (adminError .badRequest .permissionNotFound)
  if resolved.any fun p => !p.scope.admits role.scope then
    throw (adminError .badRequest .rolePermissionScopeMismatch)
  if locked role then
    let currentKeys ← RolePermissionRepository.findPermissionKeysByRoleId role.id
    if (currentKeys.filter isAdminKey).any fun k => !dedupedKeys.contains k then
      throw (adminError .conflict .roleCannotRemoveAdminKey)
  RolePermissionRepository.replaceForRole role.id (resolved.map Permission.id)
  UserRepository.invalidateTokensForRole role.id
  return { roleId := role.id
           permissionKeys := (resolved.map Permission.keyName).mergeSort fun a b => a ≤ b }

end ReplaceRolePermissionsHandler
end Auth
