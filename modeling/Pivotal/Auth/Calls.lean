import Pivotal.Auth.SignIn

/-! Which calls the handlers make, whatever they are answered. -/
namespace Auth
open Async (Monitor)
open Async.Program (Obeys Within perform lift within_throw within_pure within_perform)
open UserManagementPolicy

/-- Nothing is written, and the clock is not read. The count of the other administrators is
apart. -/
def DirectoryOp.isRead : DirectoryOp → Bool
  | .auth .nextId => true
  | .auth .randomBytes => true
  | .auth (.findUser _) => true
  | .auth (.findRole _) => true
  | .auth (.findPermissionKeys _) => true
  | .findUserById _ => true
  | .findUserByEmail _ => true
  | .findRoleById _ => true
  | .findRoleByCode _ => true
  | .findPermissionKeysByRoleId _ => true
  | .findPermissionsByKeyNames _ => true
  | .countActiveUsersByRoleIdForFsp _ _ _ => true
  | .generateTempPassword => true
  | .hashPassword _ => true
  | .verifyPassword _ _ => true
  | _ => false

/-- A call of a handler that manages users or roles: none of it is to a table of tokens, but for
the revocation of all tokens of a user. -/
def DirectoryOp.isManagement : DirectoryOp → Bool
  | .auth (.findByTokenHash _) => false
  | .auth (.revokeFamily _ _) => false
  | .auth (.markRevoked _ _ _) => false
  | .auth (.insert _) => false
  | .auth (.sign _) => false
  | _ => true

theorem DirectoryOp.isManagement_of_isRead (op : DirectoryOp) (h : op.isRead = true) :
    op.isManagement = true := by
  cases op with
  | auth op => cases op <;> first | rfl | cases h
  | _ => rfl

/-- What a monitor has to say of a refresh, and of the token service. -/
def authPart {σ : Type} (M : Monitor DirectoryOp DirectoryAnswer σ) : Monitor AuthOp AuthAnswer σ where
  next s op a := M.next s (.auth op) a
  allows s op := M.allows s (.auth op)

/-- A refresh and the token service make no other calls than theirs. -/
theorem obeys_ofAuth {σ α : Type} {M : Monitor DirectoryOp DirectoryAnswer σ} {p : AuthProgram α}
    {s : σ} {Q : σ → Except DirectoryError α → Prop}
    (h : p.Obeys (authPart M) s fun s' result => Q s' (result.mapError .auth)) :
    (ofAuth p).Obeys M s Q := by
  apply (Async.Program.obeys_mapError _).mpr
  exact Obeys.embed DirectoryOp.auth (fun _ a => a) (fun _ _ ho => ho) (fun _ _ _ => rfl) h

section Policy

variable {P : DirectoryOp → Prop}

/-- A call whose answer says how it ended. -/
theorem answer_within {α : Type} {op : DirectoryOp} {f : DirectoryAnswer op → Except DirectoryError α}
    (h : P op) : (perform op >>= fun a => lift (f a) : DirectoryProgram α).Within P :=
  ⟨h, fun _ => trivial⟩

theorem stamped_within {α : Type} {op : Js.Date → DirectoryOp}
    {f : (now : Js.Date) → DirectoryAnswer (op now) → Except DirectoryError α}
    (hnow : P (.auth .now)) (h : ∀ now, P (op now)) :
    (perform (.auth .now) >>= fun now => perform (op now) >>= fun a => lift (f now a) :
      DirectoryProgram α).Within P :=
  ⟨hnow, fun now => ⟨h now, fun _ => trivial⟩⟩

theorem resolveManagementContext_within (actorId : String) :
    (resolveManagementContext actorId).Within (·.isRead) := by
  refine Within.bind (answer_within rfl) ?_
  rintro (_ | actor)
  · exact within_throw _
  apply Within.unless
  refine Within.bind (answer_within rfl) ?_
  rintro (_ | actorRole)
  · exact within_throw _
  refine Within.bind (answer_within rfl) ?_
  intro actorPermissions
  apply Within.unless
  apply Within.unless
  exact within_pure _

theorem assertCanManageTargetRole_within (context : UserManagementContext) (target : Account)
    (role : RoleRow) : (assertCanManageTargetRole context target role).Within P := by
  unfold assertCanManageTargetRole
  split <;> trivial

theorem assertCanAssignRole_within (context : UserManagementContext) (role : RoleRow) :
    (assertCanAssignRole context role).Within P := by
  unfold assertCanAssignRole
  split <;> trivial

theorem assertScopeFitsFsp_within (role : RoleRow) (fspId : Option String) :
    (assertScopeFitsFsp role fspId).Within P := by
  apply Within.unless
  split <;> trivial

theorem nonNull_within {α : Type} (x : Option α) : (nonNull x).Within P := by
  cases x <;> trivial

theorem assertOtherDfspManager_within (fspId targetUserId : String) :
    (assertOtherDfspManager fspId targetUserId).Within (·.isRead) := by
  refine Within.bind (answer_within rfl) ?_
  rintro (_ | role)
  · exact within_throw _
  refine Within.bind (answer_within rfl) ?_
  intro others
  split <;> trivial

theorem assertNotLastDfspManager_within (targetUser : Account) (currentRoleId nextRoleId : String)
    (nextFspId : Option String) (deactivating : Bool) :
    (assertNotLastDfspManager targetUser currentRoleId nextRoleId nextFspId deactivating).Within
      (·.isRead) := by
  unfold assertNotLastDfspManager
  split
  · refine Within.bind (answer_within rfl) ?_
    intro currentRole
    split
    · exact within_pure _
    split
    · exact within_pure _
    split
    · refine Within.bind (answer_within rfl) ?_
      intro nextRole
      split
      · exact within_pure _
      · exact assertOtherDfspManager_within _ _
    · exact assertOtherDfspManager_within _ _
  · exact within_pure _

theorem findByKeyNames_within (keyNames : List String) :
    (PermissionRepository.findByKeyNames keyNames).Within (·.isRead) := by
  unfold PermissionRepository.findByKeyNames
  split
  · exact within_pure _
  · exact answer_within rfl

end Policy

section Management

variable {P : DirectoryOp → Prop}

theorem assertOtherAdmin_within (targetUserId : String)
    (hcount : ∀ key id, P (.countActiveUsersGrantingPermission key id)) :
    (UpdateUserHandler.assertOtherAdmin targetUserId).Within P := by
  refine Within.bind (answer_within (hcount _ _)) ?_
  intro others
  split <;> trivial

theorem assertNotLastAdmin_within (targetUserId currentRoleId nextRoleId : String)
    (deactivating : Bool) (hkeys : ∀ id, P (.findPermissionKeysByRoleId id))
    (hcount : ∀ key id, P (.countActiveUsersGrantingPermission key id)) :
    (UpdateUserHandler.assertNotLastAdmin targetUserId currentRoleId nextRoleId
      deactivating).Within P := by
  refine Within.bind (answer_within (hkeys _)) ?_
  intro currentKeys
  split
  · exact within_pure _
  split
  · refine Within.bind (answer_within (hkeys _)) ?_
    intro nextKeys
    split
    · exact within_pure _
    · exact assertOtherAdmin_within targetUserId hcount
  · exact assertOtherAdmin_within targetUserId hcount

theorem within_management {α : Type} {p : DirectoryProgram α} (h : p.Within (·.isRead)) :
    p.Within (·.isManagement) := h.mono DirectoryOp.isManagement_of_isRead

theorem createUser_within (input : CreateUserCommand.Input) :
    (CreateUserHandler.execute input).Within (·.isManagement) := by
  refine Within.bind (within_management (resolveManagementContext_within _)) ?_
  intro context
  refine Within.bind (answer_within rfl) ?_
  rintro (_ | role)
  · exact within_throw _
  refine Within.bind (assertCanAssignRole_within context role) ?_
  intro _
  refine Within.bind (assertScopeFitsFsp_within role _) ?_
  intro _
  refine Within.bind (answer_within rfl) ?_
  intro existing
  apply Within.unless
  refine Within.bind (within_perform.mpr rfl) ?_
  intro tempPassword
  refine Within.bind (answer_within rfl) ?_
  intro passwordHash
  refine Within.bind (p := UserRepository.save _) ⟨rfl, fun id => ⟨rfl, fun a => ?_⟩⟩ ?_
  · cases a <;> trivial
  · intro saved
    exact within_pure _

theorem applyPatch_within (target : Account) (patch : UserUpdate) (deactivation : Bool) :
    (UpdateUserHandler.applyPatch target patch deactivation).Within (·.isManagement) := by
  unfold UpdateUserHandler.applyPatch
  refine Within.when (answer_within rfl) ?_
  intro _
  refine Within.bind (stamped_within rfl fun _ => rfl) ?_
  intro _
  refine Within.when (stamped_within rfl fun _ => rfl) ?_
  intro _
  exact answer_within rfl

theorem change_within (input : UpdateUserCommand.Input) (context : UserManagementContext)
    (target : Account) (newRole : RoleRow) (roleChange deactivation : Bool) :
    (UpdateUserHandler.change input context target newRole roleChange deactivation).Within
      (·.isManagement) := by
  refine Within.bind (assertCanAssignRole_within context newRole) ?_
  intro _
  refine Within.bind (assertScopeFitsFsp_within newRole _) ?_
  intro _
  refine Within.when (assertNotLastAdmin_within _ _ _ _ (fun _ => rfl) fun _ _ => rfl) ?_
  intro _
  refine Within.bind (within_management (assertNotLastDfspManager_within _ _ _ _ _)) ?_
  intro _
  refine Within.bind (applyPatch_within _ _ _) ?_
  intro updated
  exact within_pure _

theorem updateUser_within (input : UpdateUserCommand.Input) :
    (UpdateUserHandler.execute input).Within (·.isManagement) := by
  refine Within.bind (within_management (resolveManagementContext_within _)) ?_
  intro context
  refine Within.bind (answer_within rfl) ?_
  rintro (_ | target)
  · exact within_throw _
  refine Within.bind (answer_within rfl) ?_
  rintro (_ | targetRole)
  · exact within_throw _
  refine Within.bind (assertCanManageTargetRole_within context target targetRole) ?_
  intro _
  apply Within.unless
  refine Within.bind (answer_within rfl) ?_
  rintro (_ | newRole)
  · exact within_throw _
  exact change_within _ _ _ _ _ _

theorem switchOff_within (target : Account) :
    (DeactivateUserHandler.switchOff target).Within (·.isManagement) := by
  refine Within.bind (answer_within rfl) ?_
  intro _
  refine Within.bind (stamped_within rfl fun _ => rfl) ?_
  intro _
  refine Within.bind (stamped_within rfl fun _ => rfl) ?_
  intro _
  exact answer_within rfl

theorem deactivateUser_within (input : DeactivateUserCommand.Input) :
    (DeactivateUserHandler.execute input).Within (·.isManagement) := by
  refine Within.bind (within_management (resolveManagementContext_within _)) ?_
  intro context
  apply Within.unless
  refine Within.bind (answer_within rfl) ?_
  rintro (_ | target)
  · exact within_throw _
  refine Within.bind (answer_within rfl) ?_
  intro found
  refine Within.bind (nonNull_within found) ?_
  intro role
  refine Within.bind (assertCanManageTargetRole_within context target role) ?_
  intro _
  split
  · exact within_pure _
  refine Within.bind (answer_within rfl) ?_
  intro grants
  refine Within.when (assertOtherAdmin_within target.id fun _ _ => rfl) ?_
  intro _
  refine Within.bind (within_management (assertNotLastDfspManager_within _ _ _ _ _)) ?_
  intro _
  refine Within.bind (switchOff_within target) ?_
  intro refreshed
  exact within_pure _

theorem replaceRolePermissions_within (input : ReplaceRolePermissionsCommand.Input) :
    (ReplaceRolePermissionsHandler.execute input).Within (·.isManagement) := by
  refine Within.bind (answer_within rfl) ?_
  rintro (_ | role)
  · exact within_throw _
  refine Within.bind (within_management (findByKeyNames_within _)) ?_
  intro resolved
  apply Within.unless
  apply Within.unless
  have hrest : (do
      RolePermissionRepository.replaceForRole role.id (resolved.map Permission.id)
      UserRepository.invalidateTokensForRole role.id
      return { roleId := role.id
               permissionKeys := (resolved.map Permission.keyName).mergeSort fun a b => a ≤ b } :
        DirectoryProgram ReplaceRolePermissionsCommand.Output).Within (·.isManagement) := by
    refine Within.bind (answer_within rfl) ?_
    intro _
    refine Within.bind (stamped_within rfl fun _ => rfl) ?_
    intro _
    exact within_pure _
  split
  · refine Within.bind (answer_within rfl) ?_
    intro currentKeys
    exact Within.unless hrest
  · exact hrest

end Management
end Auth
