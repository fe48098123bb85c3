import Pivotal.Auth.Calls

/-! Whether someone is left who may manage users. `UpdateUser` and `DeactivateUser` count the
other administrators before they write, `ReplaceRolePermissions` looks at the code of the role; what
each has read is recorded, and compared with the tables at its write. -/
namespace Auth
open Async (Config Event Label Monitor System Written)
open Async.Program (Obeys Within lift perform)
open PermissionKey (adminUsersManage)

/-- What an execution has read that its write rests on. -/
structure Review where
  accounts : List Account
  granting : List (String × Bool)
  others : List String
  roles : List RoleRow
  resolved : List (List String × List Permission)

namespace Review

def initial : Review := ⟨[], [], [], [], []⟩

def afterFindUser (r : Review) : Except DirectoryError (Option Account) → Review
  | .ok (some user) => { r with accounts := user :: r.accounts }
  | _ => r

def afterFindRole (r : Review) : Except DirectoryError (Option RoleRow) → Review
  | .ok (some role) => { r with roles := role :: r.roles }
  | _ => r

/-- Whether the role grants the management of users. -/
def afterFindKeys (r : Review) (roleId : String) : Except DirectoryError (List String) → Review
  | .ok keys => { r with granting := (roleId, keys.contains adminUsersManage) :: r.granting }
  | .error _ => r

def afterResolve (r : Review) (keyNames : List String) :
    Except DirectoryError (List Permission) → Review
  | .ok resolved => { r with resolved := (keyNames, resolved) :: r.resolved }
  | .error _ => r

/-- Other administrators than this one were counted. -/
def afterCount (r : Review) (permissionKey excludeUserId : String) :
    Except DirectoryError ℕ → Review
  | .ok n => if permissionKey = adminUsersManage ∧ 0 < n then
      { r with others := excludeUserId :: r.others } else r
  | .error _ => r

def next (r : Review) : (op : DirectoryOp) → DirectoryAnswer op → Review
  | .findUserById _, a => r.afterFindUser a
  | .findRoleById _, a => r.afterFindRole a
  | .findPermissionKeysByRoleId roleId, a => r.afterFindKeys roleId a
  | .findPermissionsByKeyNames keyNames, a => r.afterResolve keyNames a
  | .countActiveUsersGrantingPermission permissionKey excludeUserId, a =>
    r.afterCount permissionKey excludeUserId a
  | _, _ => r

/-- The target was no administrator, or there are others. -/
def Spares (r : Review) (target : Account) : Prop :=
  (target.roleId, false) ∈ r.granting ∨ target.id ∈ r.others

/-- The change leaves the role and the status, or spares administration, or grants it again. -/
def Admits (r : Review) (target : Account) (patch : UserUpdate) : Prop :=
  (patch.roleId = none ∧ patch.isActive ≠ some false) ∨ r.Spares target ∨
    ∃ roleId, patch.roleId = some roleId ∧ (roleId, true) ∈ r.granting ∧
      patch.isActive ≠ some false

/-- The permissions are those that were asked for, and a locked role keeps its own. -/
def Retains (r : Review) (role : RoleRow) (permissionIds : List String) : Prop :=
  ∃ keyNames resolved, (keyNames, resolved) ∈ ([], []) :: r.resolved ∧
    permissionIds = resolved.map Permission.id ∧
    (ReplaceRolePermissionsHandler.locked role = true →
      (role.id, false) ∈ r.granting ∨ adminUsersManage ∈ keyNames)

def allows (r : Review) : DirectoryOp → Prop
  | .updateUser id patch => ∃ target ∈ r.accounts, target.id = id ∧ r.Admits target patch
  | .deactivate id => ∃ target ∈ r.accounts, target.id = id ∧ r.Spares target
  | .replaceForRole roleId permissionIds =>
    ∃ role ∈ r.roles, role.id = roleId ∧ r.Retains role permissionIds
  | _ => True

end Review

def review : Monitor DirectoryOp DirectoryAnswer Review := ⟨Review.next, Review.allows⟩

/-- A call that takes nothing from anyone. -/
def DirectoryOp.isSafe : DirectoryOp → Bool
  | .updateUser _ _ => false
  | .deactivate _ => false
  | .replaceForRole _ _ => false
  | _ => true

theorem DirectoryOp.isSafe_of_isRead (op : DirectoryOp) (h : op.isRead = true) :
    op.isSafe = true := by
  cases op <;> first | rfl | cases h

namespace Review

variable {r r' r'' : Review}

/-- What was read stays recorded. -/
structure Grows (r r' : Review) : Prop where
  accounts : ∀ u ∈ r.accounts, u ∈ r'.accounts
  granting : ∀ p ∈ r.granting, p ∈ r'.granting
  others : ∀ id ∈ r.others, id ∈ r'.others
  roles : ∀ role ∈ r.roles, role ∈ r'.roles
  resolved : ∀ p ∈ r.resolved, p ∈ r'.resolved

theorem Grows.refl (r : Review) : r.Grows r :=
  ⟨fun _ h => h, fun _ h => h, fun _ h => h, fun _ h => h, fun _ h => h⟩

theorem Grows.trans (h : r.Grows r') (h' : r'.Grows r'') : r.Grows r'' where
  accounts u hu := h'.accounts u (h.accounts u hu)
  granting p hp := h'.granting p (h.granting p hp)
  others id hid := h'.others id (h.others id hid)
  roles role hrole := h'.roles role (h.roles role hrole)
  resolved p hp := h'.resolved p (h.resolved p hp)

theorem grows_next (r : Review) (op : DirectoryOp) (a : DirectoryAnswer op) :
    r.Grows (r.next op a) := by
  cases op with
  | findUserById id =>
    rcases a with e | _ | user <;> constructor <;> simp +contextual [next, afterFindUser]
  | findRoleById id =>
    rcases a with e | _ | role <;> constructor <;> simp +contextual [next, afterFindRole]
  | findPermissionKeysByRoleId roleId =>
    rcases a with e | keys <;> constructor <;> simp +contextual [next, afterFindKeys]
  | findPermissionsByKeyNames keyNames =>
    rcases a with e | resolved <;> constructor <;> simp +contextual [next, afterResolve]
  | countActiveUsersGrantingPermission permissionKey excludeUserId =>
    rcases a with e | n
    · exact .refl r
    · simp only [next, afterCount]
      split
      · constructor <;> simp +contextual
      · exact .refl r
  | _ => exact .refl r

theorem Spares.mono (hgrows : r.Grows r') {target : Account} (h : r.Spares target) :
    r'.Spares target := by
  rcases h with h | h
  · exact .inl (hgrows.granting _ h)
  · exact .inr (hgrows.others _ h)

theorem Admits.mono (hgrows : r.Grows r') {target : Account} {patch : UserUpdate}
    (h : r.Admits target patch) : r'.Admits target patch := by
  rcases h with h | h | ⟨roleId, hrole, hgranting, hactive⟩
  · exact .inl h
  · exact .inr (.inl (h.mono hgrows))
  · exact .inr (.inr ⟨roleId, hrole, hgrows.granting _ hgranting, hactive⟩)

section Programs

variable {α : Type}

/-- Nothing is said of how a command ends. -/
abbrev Any (_ : Review) (_ : Except DirectoryError α) : Prop := True

theorem obeys_safe {p : DirectoryProgram α} (h : p.Within (·.isSafe)) (r : Review) :
    p.Obeys review r fun r' _ => r.Grows r' := by
  refine Within.keeps (R := r.Grows) h ?_ r (.refl r)
  intro r' op hr hop
  refine ⟨?_, fun a => hr.trans (grows_next r' op a)⟩
  cases op with
  | updateUser _ _ | deactivate _ | replaceForRole _ _ => cases hop
  | _ => trivial

theorem obeys_step {β : Type} {p : DirectoryProgram β} {f : β → DirectoryProgram α} {r : Review}
    (hp : p.Within (·.isSafe)) (hf : ∀ b r', r.Grows r' → (f b).Obeys review r' Any) :
    (p >>= f).Obeys review r Any :=
  (obeys_safe hp r).seq hf fun _ _ _ => trivial

theorem obeys_unless {c : Prop} [Decidable c] {e : DirectoryError} {β : Type}
    {f : β → DirectoryProgram α} {p : DirectoryProgram α} {r : Review}
    (h : ¬ c → p.Obeys review r Any) : (if c then throw e >>= f else p).Obeys review r Any := by
  by_cases hc : c
  · simp only [hc, if_true]
    trivial
  · simp only [hc, if_false]
    exact h hc

theorem obeys_assertOtherAdmin (targetUserId : String) (r : Review) :
    (UpdateUserHandler.assertOtherAdmin targetUserId).Obeys review r fun r' result =>
      ∀ u, result = .ok u → r.Grows r' ∧ targetUserId ∈ r'.others := by
  apply Obeys.afterPerform trivial
  intro a
  apply Obeys.afterLift
  · rintro e u ⟨⟩
  · intro others hothers
    have hgrows := grows_next r (.countActiveUsersGrantingPermission adminUsersManage targetUserId) a
    by_cases hzero : others = 0
    · simp only [hzero, if_true]
      rintro u ⟨⟩
    · simp only [hzero, if_false]
      intro u _
      refine ⟨hgrows, ?_⟩
      simp [review, next, afterCount, hothers, Nat.pos_of_ne_zero hzero]

/-- What a check that passes has found. -/
theorem obeys_assertNotLastAdmin (targetUserId currentRoleId nextRoleId : String)
    (deactivating : Bool) (r : Review) :
    (UpdateUserHandler.assertNotLastAdmin targetUserId currentRoleId nextRoleId
      deactivating).Obeys review r fun r' result => ∀ u, result = .ok u → r.Grows r' ∧
        ((currentRoleId, false) ∈ r'.granting ∨ targetUserId ∈ r'.others ∨
          deactivating = false ∧ (nextRoleId, true) ∈ r'.granting) := by
  apply Obeys.afterPerform trivial
  intro a
  apply Obeys.afterLift
  · rintro e u ⟨⟩
  · intro currentKeys hcurrent
    have hgrows := grows_next r (.findPermissionKeysByRoleId currentRoleId) a
    have hother : ∀ r₁, r.Grows r₁ → (UpdateUserHandler.assertOtherAdmin targetUserId).Obeys review
        r₁ fun r' result => ∀ u, result = .ok u → r.Grows r' ∧
          ((currentRoleId, false) ∈ r'.granting ∨ targetUserId ∈ r'.others ∨
            deactivating = false ∧ (nextRoleId, true) ∈ r'.granting) := by
      intro r₁ h₁
      refine Obeys.mono (obeys_assertOtherAdmin targetUserId r₁) ?_
      intro r' result h u hu
      exact ⟨h₁.trans (h u hu).1, .inr (.inl (h u hu).2)⟩
    by_cases hholds : currentKeys.contains adminUsersManage
    · simp only [hholds, Bool.not_true, Bool.false_eq_true, if_false]
      by_cases hmoves : (!deactivating && currentRoleId ≠ nextRoleId) = true
      · simp only [hmoves, if_true]
        apply Obeys.afterPerform trivial
        intro a'
        apply Obeys.afterLift
        · rintro e u ⟨⟩
        · intro nextKeys hnext
          have hgrows' := hgrows.trans (grows_next _ (.findPermissionKeysByRoleId nextRoleId) a')
          by_cases hgrants : nextKeys.contains adminUsersManage
          · simp only [hgrants, if_true]
            intro u _
            refine ⟨hgrows', .inr (.inr ⟨by simp_all, ?_⟩)⟩
            simp only [review, next, hnext, afterFindKeys, hgrants]
            exact List.mem_cons_self ..
          · simp only [hgrants, Bool.false_eq_true, if_false]
            exact hother _ hgrows'
      · simp only [hmoves, Bool.false_eq_true, if_false]
        exact hother _ hgrows
    · simp only [hholds, Bool.not_false, if_true]
      intro u _
      refine ⟨hgrows, .inl ?_⟩
      simp only [review, next, hcurrent, afterFindKeys, hholds]
      exact List.mem_cons_self ..

theorem revokeAllForUser_safe (userId : String) :
    (RefreshTokenRepository.revokeAllForUser userId).Within (·.isSafe) :=
  stamped_within rfl fun _ => rfl

theorem invalidateTokens_safe (id : String) :
    (UserRepository.invalidateTokens id).Within (·.isSafe) :=
  stamped_within rfl fun _ => rfl

theorem obeys_write {op : DirectoryOp} {g : DirectoryAnswer op → Except DirectoryError Unit}
    {f : Unit → DirectoryProgram α} {r : Review} (h : r.allows op)
    (hf : ∀ u, (f u).Within (·.isSafe)) :
    (perform op >>= fun a => lift (g a) >>= f : DirectoryProgram α).Obeys review r Any := by
  apply Obeys.afterPerform h
  intro a
  apply Obeys.afterLift (fun _ => trivial)
  intro u _
  exact Obeys.mono (obeys_safe (hf u) _) fun _ _ _ => trivial

theorem obeys_applyPatch {target : Account} {patch : UserUpdate} {r : Review}
    (htarget : target ∈ r.accounts) (h : r.Admits target patch) (deactivation : Bool) :
    (UpdateUserHandler.applyPatch target patch deactivation).Obeys review r Any := by
  have hrest : (do
      UserRepository.invalidateTokens target.id
      if deactivation then
        RefreshTokenRepository.revokeAllForUser target.id
      UserRepository.findById target.id : DirectoryProgram (Option Account)).Within (·.isSafe) := by
    refine Within.bind (invalidateTokens_safe target.id) ?_
    intro _
    refine Within.when (revokeAllForUser_safe target.id) ?_
    intro _
    exact answer_within rfl
  unfold UpdateUserHandler.applyPatch
  by_cases hempty : patch.isEmpty
  · simp only [hempty, Bool.not_true, Bool.false_eq_true, if_false]
    exact Obeys.mono (obeys_safe hrest r) fun _ _ _ => trivial
  · simp only [hempty, Bool.not_false, if_true]
    exact obeys_write ⟨target, htarget, rfl, h⟩ fun _ => hrest

theorem filter_ne_false {isActive : Option Bool} {current : Bool}
    (h : ¬ (isActive = some false ∧ current = true)) :
    isActive.filter (fun a => a ≠ current) ≠ some false := by
  intro hfilter
  simp only [Option.filter_eq_some_iff, decide_eq_true_eq] at hfilter
  apply h
  refine ⟨hfilter.1, ?_⟩
  cases current <;> simp_all

/-- What is written rests on what was read. -/
theorem obeys_change {input : UpdateUserCommand.Input} (context : UserManagementContext)
    {target : Account} (newRole : RoleRow) {roleChange deactivation : Bool} {r : Review}
    (htarget : target ∈ r.accounts)
    (hdeactivation : deactivation = (input.isActive = some false && target.isActive)) :
    (UpdateUserHandler.change input context target newRole roleChange deactivation).Obeys review r
      Any := by
  have hactive : deactivation = false → ∀ fspId, (UpdateUserHandler.patchFor target newRole
      roleChange fspId input.isActive).isActive ≠ some false := by
    intro hfalse fspId
    apply filter_ne_false
    rw [hfalse] at hdeactivation
    simpa using hdeactivation.symm
  apply obeys_step (assertCanAssignRole_within context newRole)
  intro _ r₁ h₁
  apply obeys_step (assertScopeFitsFsp_within newRole _)
  intro _ r₂ h₂
  have hwrite : ∀ (u : Unit) r₃, r₂.Grows r₃ → ∀ fspId, r₃.Admits target
      (UpdateUserHandler.patchFor target newRole roleChange fspId input.isActive) →
      (do
        UserManagementPolicy.assertNotLastDfspManager target target.roleId newRole.id fspId
          deactivation
        let updated ← UpdateUserHandler.applyPatch target
          (UpdateUserHandler.patchFor target newRole roleChange fspId input.isActive) deactivation
        return { user := updated, role := newRole } :
        DirectoryProgram UpdateUserCommand.Output).Obeys review r₃ Any := by
    intro _ r₃ h₃ fspId hadmits
    apply obeys_step ((assertNotLastDfspManager_within _ _ _ _ _).mono DirectoryOp.isSafe_of_isRead)
    intro _ r₄ h₄
    have htarget₄ := h₄.accounts _ (h₃.accounts _ (h₂.accounts _ (h₁.accounts _ htarget)))
    refine Obeys.andThen (T := fun _ _ => True) ?_ (fun _ _ _ => trivial) fun _ _ => trivial
    exact Obeys.mono (obeys_applyPatch htarget₄ (hadmits.mono h₄) deactivation)
      fun _ _ _ _ _ => trivial
  by_cases hcheck : (deactivation || roleChange) = true
  · simp only [hcheck, if_true]
    refine Obeys.andThen (obeys_assertNotLastAdmin _ _ _ _ r₂) ?_ fun _ _ => trivial
    rintro u r₃ ⟨h₃, hcleared⟩
    apply hwrite u r₃ h₃
    rcases hcleared with hcurrent | hothers | ⟨hfalse, hnext⟩
    · exact .inr (.inl (.inl hcurrent))
    · exact .inr (.inl (.inr hothers))
    · obtain rfl : roleChange = true := by simpa [hfalse] using hcheck
      exact .inr (.inr ⟨newRole.id, rfl, hnext, hactive hfalse _⟩)
  · simp only [hcheck, Bool.false_eq_true, if_false]
    simp only [Bool.or_eq_true, not_or, Bool.not_eq_true] at hcheck
    apply hwrite () r₂ (.refl r₂)
    exact .inl ⟨by simp [UpdateUserHandler.patchFor, hcheck.2], hactive hcheck.1 _⟩

theorem obeys_updateUser (input : UpdateUserCommand.Input) :
    (UpdateUserHandler.execute input).Obeys review initial Any := by
  apply obeys_step ((resolveManagementContext_within _).mono DirectoryOp.isSafe_of_isRead)
  intro context r₁ _
  apply Obeys.afterPerform trivial
  intro found
  apply Obeys.afterLift (fun _ => trivial)
  rintro (_ | target) hfound
  · trivial
  have htarget : target ∈ (r₁.next (.findUserById input.targetUserId) found).accounts := by
    simp [next, hfound, afterFindUser]
  apply obeys_step (answer_within rfl)
  rintro (_ | targetRole) r₂ h₂
  · trivial
  apply obeys_step (assertCanManageTargetRole_within context target targetRole)
  intro _ r₃ h₃
  apply obeys_unless
  intro _
  apply obeys_step (answer_within rfl)
  rintro (_ | newRole) r₄ h₄
  · trivial
  exact obeys_change context newRole (h₄.accounts _ (h₃.accounts _ (h₂.accounts _ htarget))) rfl

theorem obeys_deactivateUser (input : DeactivateUserCommand.Input) :
    (DeactivateUserHandler.execute input).Obeys review initial Any := by
  apply obeys_step ((resolveManagementContext_within _).mono DirectoryOp.isSafe_of_isRead)
  intro context r₁ _
  apply obeys_unless
  intro _
  apply Obeys.afterPerform trivial
  intro found
  apply Obeys.afterLift (fun _ => trivial)
  rintro (_ | target) hfound
  · trivial
  have htarget : target ∈ (r₁.next (.findUserById input.targetUserId) found).accounts := by
    simp [next, hfound, afterFindUser]
  apply obeys_step (answer_within rfl)
  intro found r₂ h₂
  apply obeys_step (nonNull_within found)
  intro role r₃ h₃
  apply obeys_step (assertCanManageTargetRole_within context target role)
  intro _ r₄ h₄
  have htarget₄ := h₄.accounts _ (h₃.accounts _ (h₂.accounts _ htarget))
  by_cases hinactive : (!target.isActive) = true
  · simp only [hinactive, if_true]
    trivial
  · simp only [hinactive, Bool.false_eq_true, if_false]
    have hwrite : ∀ (u : Unit) r₅, r₄.Grows r₅ → r₅.Spares target → (do
        UserManagementPolicy.assertNotLastDfspManager target target.roleId target.roleId
          target.fspId true
        let refreshed ← DeactivateUserHandler.switchOff target
        return { user := refreshed, role := role } :
        DirectoryProgram DeactivateUserCommand.Output).Obeys review r₅ Any := by
      intro _ r₅ h₅ hspares
      apply obeys_step
        ((assertNotLastDfspManager_within _ _ _ _ _).mono DirectoryOp.isSafe_of_isRead)
      intro _ r₆ h₆
      refine Obeys.andThen (T := fun _ _ => True) ?_ (fun _ _ _ => trivial) fun _ _ => trivial
      refine Obeys.mono (obeys_write (α := Option Account)
        ⟨target, h₆.accounts _ (h₅.accounts _ htarget₄), rfl, hspares.mono h₆⟩ fun _ => ?_)
        fun _ _ _ _ _ => trivial
      refine Within.bind (revokeAllForUser_safe target.id) ?_
      intro _
      refine Within.bind (invalidateTokens_safe target.id) ?_
      intro _
      exact answer_within rfl
    apply Obeys.afterPerform trivial
    intro a
    apply Obeys.afterLift (fun _ => trivial)
    intro grants hgrants
    have hgrows := grows_next r₄ (.findPermissionKeysByRoleId target.roleId) a
    by_cases hholds : grants.contains adminUsersManage = true
    · simp only [hholds, if_true]
      refine Obeys.andThen (obeys_assertOtherAdmin target.id _) ?_ fun _ _ => trivial
      rintro u r₅ ⟨h₅, hothers⟩
      exact hwrite u r₅ (hgrows.trans h₅) (.inr hothers)
    · simp only [hholds, Bool.false_eq_true, if_false]
      apply hwrite () _ hgrows
      left
      simp only [next, hgrants, afterFindKeys, hholds]
      exact List.mem_cons_self ..

/-- What `findByKeyNames` resolves is recorded, unless nothing was asked for. -/
theorem obeys_findByKeyNames (keyNames : List String) (r : Review) :
    (PermissionRepository.findByKeyNames keyNames).Obeys review r fun r' result =>
      ∀ resolved, result = .ok resolved → r.Grows r' ∧
        (keyNames, resolved) ∈ ([], []) :: r'.resolved := by
  unfold PermissionRepository.findByKeyNames
  split
  · rename_i hempty
    rintro resolved ⟨⟩
    rw [List.isEmpty_iff.mp hempty]
    exact ⟨.refl r, List.mem_cons_self ..⟩
  · refine ⟨trivial, fun a => ?_⟩
    rintro resolved rfl
    exact ⟨grows_next r (.findPermissionsByKeyNames keyNames) (.ok resolved),
      List.mem_cons_of_mem _ (List.mem_cons_self ..)⟩

theorem isAdminKey_adminUsersManage :
    ReplaceRolePermissionsHandler.isAdminKey adminUsersManage = true := rfl

theorem obeys_replaceRolePermissions (input : ReplaceRolePermissionsCommand.Input) :
    (ReplaceRolePermissionsHandler.execute input).Obeys review initial Any := by
  apply Obeys.afterPerform trivial
  intro found
  apply Obeys.afterLift (fun _ => trivial)
  rintro (_ | role) hfound
  · trivial
  have hrole : role ∈ (initial.next (.findRoleById input.roleId) found).roles := by
    simp [next, hfound, afterFindRole]
  refine Obeys.andThen (obeys_findByKeyNames _ _) ?_ fun _ _ => trivial
  rintro resolved r₁ ⟨h₁, hresolved⟩
  apply obeys_unless
  intro _
  apply obeys_unless
  intro _
  have hwrite : ∀ (u : Unit) r₂, r₁.Grows r₂ →
      (ReplaceRolePermissionsHandler.locked role = true → (role.id, false) ∈ r₂.granting ∨
        adminUsersManage ∈ input.permissionKeys.eraseDups) → (do
      RolePermissionRepository.replaceForRole role.id (resolved.map Permission.id)
      UserRepository.invalidateTokensForRole role.id
      return { roleId := role.id
               permissionKeys := (resolved.map Permission.keyName).mergeSort fun a b => a ≤ b } :
      DirectoryProgram ReplaceRolePermissionsCommand.Output).Obeys review r₂ Any := by
    intro _ r₂ h₂ hlocked
    have hretains : r₂.Retains role (resolved.map Permission.id) := by
      refine ⟨input.permissionKeys.eraseDups, resolved, ?_, rfl, hlocked⟩
      rcases List.mem_cons.mp hresolved with heq | hmem
      · exact heq ▸ List.mem_cons_self ..
      · exact List.mem_cons_of_mem _ (h₂.resolved _ hmem)
    have hallows : r₂.allows (.replaceForRole role.id (resolved.map Permission.id)) :=
      ⟨role, h₂.roles _ (h₁.roles _ hrole), rfl, hretains⟩
    apply obeys_write hallows
    intro _
    refine Within.bind (stamped_within rfl fun _ => rfl) ?_
    exact fun _ => Async.Program.within_pure _
  by_cases hlocked : ReplaceRolePermissionsHandler.locked role = true
  · simp only [hlocked, if_true]
    apply Obeys.afterPerform trivial
    intro a
    apply Obeys.afterLift (fun _ => trivial)
    intro currentKeys hcurrent
    apply obeys_unless
    intro hkept
    apply hwrite () _ (grows_next r₁ (.findPermissionKeysByRoleId role.id) a)
    intro _
    by_cases hholds : adminUsersManage ∈ currentKeys
    · right
      simp only [List.any_eq_true, List.mem_filter, Bool.not_eq_true', List.contains_eq_mem,
        decide_eq_false_iff_not, not_exists, not_and, not_not] at hkept
      exact hkept adminUsersManage ⟨hholds, isAdminKey_adminUsersManage⟩
    · left
      simp [next, hcurrent, afterFindKeys, hholds]
  · simp only [hlocked, Bool.false_eq_true, if_false]
    exact hwrite () r₁ (.refl r₁) fun h => absurd h hlocked

end Programs
end Review

/-- The requests that may take the management of users from someone. -/
inductive AdministrationJob where
  | updateUser (input : UpdateUserCommand.Input)
  | deactivateUser (input : DeactivateUserCommand.Input)
  | replaceRolePermissions (input : ReplaceRolePermissionsCommand.Input)
  deriving DecidableEq

def AdministrationJob.execute : AdministrationJob → DirectoryProgram Unit
  | .updateUser input => do let _ ← UpdateUserHandler.execute input
  | .deactivateUser input => do let _ ← DeactivateUserHandler.execute input
  | .replaceRolePermissions input => do let _ ← ReplaceRolePermissionsHandler.execute input

/-- Any number of them, over one directory. -/
def administration (settings : DirectorySettings) :
    System DirectoryOp DirectoryAnswer DirectoryError Unit AdministrationJob Directory where
  entry job := job.execute
  perform := Directory.performs settings
  background _ _ := False

theorem Review.obeys_job (job : AdministrationJob) :
    job.execute.Obeys review Review.initial Review.Any := by
  have hentry : ∀ {α : Type} {p : DirectoryProgram α}, p.Obeys review Review.initial Review.Any →
      (p >>= fun _ => pure () : DirectoryProgram Unit).Obeys review Review.initial Review.Any := by
    intro α p hp
    refine Obeys.andThen (T := fun _ _ => True) ?_ (fun _ _ _ => trivial) fun _ _ => trivial
    exact Obeys.mono hp fun _ _ _ _ _ => trivial
  cases job with
  | updateUser input => exact hentry (Review.obeys_updateUser input)
  | deactivateUser input => exact hentry (Review.obeys_deactivateUser input)
  | replaceRolePermissions input => exact hentry (Review.obeys_replaceRolePermissions input)

/-- An active user may manage users. -/
def Administered (d : Directory) : Prop := ∃ u ∈ d.users.rows, d.Grants adminUsersManage u

instance (d : Directory) : Decidable (Administered d) :=
  inferInstanceAs (Decidable (∃ u ∈ d.users.rows, _))

section Writes

variable {d : Directory} {p : Account → Bool} {f : Account → Account} {h : ∀ u, (f u).id = u.id}

theorem permissionKeys_congr {d d' : Directory} (hpermissions : d'.permissions = d.permissions)
    (hgrants : d'.rolePermissions = d.rolePermissions) (roleId : String) :
    d'.permissionKeys roleId = d.permissionKeys roleId := by
  simp only [Directory.permissionKeys, hpermissions, hgrants]

theorem administered_updateUsers {u : Account} (hu : u ∈ d.users.rows)
    (hgrants : d.Grants adminUsersManage (if p u then f u else u)) :
    Administered (d.updateUsers p f h) := by
  exact ⟨_, d.mem_updateUsers.mpr ⟨u, hu, rfl⟩, hgrants⟩

theorem permissionKeys_replaceForRole_ne {roleId other : String} (hne : other ≠ roleId)
    (permissionIds : List String) :
    (d.replaceForRole roleId permissionIds).permissionKeys other = d.permissionKeys other := by
  have hold : (d.rolePermissions.filter fun g => g.1 ≠ roleId).filter (fun g => g.1 = other) =
      d.rolePermissions.filter fun g => g.1 = other := by
    rw [List.filter_filter]
    apply List.filter_congr
    intro g _
    by_cases hg : g.1 = other <;> simp [hg, hne]
  have hnew : (permissionIds.map fun p => (roleId, p)).filter (fun g => g.1 = other) = [] := by
    simp [List.filter_eq_nil_iff, Ne.symm hne]
  simp only [Directory.permissionKeys, Directory.replaceForRole, List.filter_append, hold, hnew,
    List.append_nil]

theorem permissionKeys_replaceForRole (roleId : String) (permissionIds : List String) :
    (d.replaceForRole roleId permissionIds).permissionKeys roleId =
      permissionIds.filterMap fun id => (d.permissions.find? id).map Permission.keyName := by
  have hold : (d.rolePermissions.filter fun g => g.1 ≠ roleId).filter (fun g => g.1 = roleId) = [] := by
    rw [List.filter_filter, List.filter_eq_nil_iff]
    intro g _
    by_cases hg : g.1 = roleId <;> simp [hg]
  have hnew : (permissionIds.map fun p => (roleId, p)).filter (fun g => g.1 = roleId) =
      permissionIds.map fun p => (roleId, p) := by
    simp [List.filter_eq_self]
  simp only [Directory.permissionKeys, Directory.replaceForRole, List.filter_append, hold, hnew,
    List.nil_append, List.filterMap_map]
  rfl

end Writes

/-- What an execution has read still holds of the user it writes to. -/
structure Current (d : Directory) (r : Review) (id : String) : Prop where
  account : ∀ u ∈ r.accounts, u.id = id → ∃ v ∈ d.users.rows, v.id = id ∧ v.roleId = u.roleId
  granting : ∀ p ∈ r.granting, p.2 = decide (adminUsersManage ∈ d.permissionKeys p.1)
  others : id ∈ r.others → ∃ v ∈ d.users.rows, d.Grants adminUsersManage v ∧ v.id ≠ id

instance (d : Directory) (r : Review) (id : String) : Decidable (Current d r id) :=
  decidable_of_iff ((∀ u ∈ r.accounts, u.id = id → ∃ v ∈ d.users.rows, v.id = id ∧
      v.roleId = u.roleId) ∧
    (∀ p ∈ r.granting, p.2 = decide (adminUsersManage ∈ d.permissionKeys p.1)) ∧
    (id ∈ r.others → ∃ v ∈ d.users.rows, d.Grants adminUsersManage v ∧ v.id ≠ id))
    ⟨fun h => ⟨h.1, h.2.1, h.2.2⟩, fun h => ⟨h.account, h.granting, h.others⟩⟩

variable {ι : Type}

/-- The conditions of the result. A user is written to only while what the execution has read of
that user, of the roles and of the other administrators still holds; the keys of a locked role
are replaced only while what was read of them still holds; and the management of users is taken
from another role only while an active user of some other role has it. -/
def Timely (d : Directory) (f : ι → Option Review) :
    Label ι DirectoryOp DirectoryAnswer AdministrationJob → Prop
  | .call i ⟨.updateUser id _, _⟩ => ∀ r, f i = some r → Current d r id
  | .call i ⟨.deactivate id, _⟩ => ∀ r, f i = some r → Current d r id
  | .call i ⟨.replaceForRole roleId permissionIds, _⟩ => ∀ role ∈ d.roles.rows, role.id = roleId →
    if ReplaceRolePermissionsHandler.locked role then
      ∀ r, f i = some r → ∀ p ∈ r.granting, p.1 = roleId →
        p.2 = decide (adminUsersManage ∈ d.permissionKeys roleId)
    else adminUsersManage ∈ d.permissionKeys roleId →
      adminUsersManage ∉ (d.replaceForRole roleId permissionIds).permissionKeys roleId →
      ∃ v ∈ d.users.rows, d.Grants adminUsersManage v ∧ v.roleId ≠ roleId
  | _ => True

section Steps

variable {d d' : Directory} {r : Review}

/-- What is recorded of roles and permissions is in the tables, which no request changes. -/
structure Recorded (d : Directory) (r : Review) : Prop where
  roles : ∀ role ∈ r.roles, role ∈ d.roles.rows
  resolved : ∀ p ∈ r.resolved, p.2 = d.permissions.rows.filter fun q => q.keyName ∈ p.1

/-- A user who is spared is no administrator, or not the only one. -/
theorem exists_other {id : String} (h : Administered d) (hcurrent : Current d r id)
    {target : Account} (htarget : target ∈ r.accounts) (hid : target.id = id)
    (hspares : r.Spares target) : ∃ v ∈ d.users.rows, d.Grants adminUsersManage v ∧ v.id ≠ id := by
  obtain ⟨u, hu, hactive, hkey⟩ := h
  by_cases huid : u.id = id
  · rcases hspares with hnone | hothers
    · obtain ⟨v, hv, hvid, hvrole⟩ := hcurrent.account target htarget hid
      obtain rfl : v = u := d.users.eq_of_key hv hu (hvid.trans huid.symm)
      have hlost := hcurrent.granting _ hnone
      simp [← hvrole, hkey] at hlost
    · exact hcurrent.others (hid ▸ hothers)
  · exact ⟨u, hu, ⟨hactive, hkey⟩, huid⟩

theorem administered_updateUser {id : String} {patch : UserUpdate} (h : Administered d)
    (hcurrent : Current d r id) {target : Account} (htarget : target ∈ r.accounts)
    (hid : target.id = id) (hadmits : r.Admits target patch) : Administered (d.updateUser id patch) := by
  have hother := exists_other h hcurrent htarget hid
  obtain ⟨u, hu, hactive, hkey⟩ := h
  by_cases huid : u.id = id
  · have hpatched : patch.isActive ≠ some false →
        adminUsersManage ∈ d.permissionKeys (patch.roleId.getD u.roleId) →
        Administered (d.updateUser id patch) := by
      intro hstays hgrants
      apply administered_updateUsers hu
      simp only [huid, decide_true, if_true]
      refine ⟨?_, hgrants⟩
      simp only [UserUpdate.apply, hactive]
      rcases hpatch : patch.isActive with _ | _ | _ <;> simp_all
    rcases hadmits with ⟨hrole, hstays⟩ | hspares | ⟨roleId, hrole, hgranting, hstays⟩
    · apply hpatched hstays
      rwa [hrole]
    · obtain ⟨v, hv, hgrants, hne⟩ := hother hspares
      apply administered_updateUsers hv
      simpa [hne] using hgrants
    · apply hpatched hstays
      have hgrants := hcurrent.granting _ hgranting
      rw [hrole]
      simpa using hgrants
  · apply administered_updateUsers hu
    simpa [huid] using ⟨hactive, hkey⟩

theorem administered_deactivate {id : String} (h : Administered d) (hcurrent : Current d r id)
    {target : Account} (htarget : target ∈ r.accounts) (hid : target.id = id)
    (hspares : r.Spares target) : Administered (d.deactivate id) := by
  obtain ⟨v, hv, hgrants, hne⟩ := exists_other h hcurrent htarget hid hspares
  apply administered_updateUsers hv
  simpa [hne] using hgrants

theorem administered_replaceForRole (h : Administered d) (hrecorded : Recorded d r)
    {role : RoleRow} {permissionIds : List String}
    (hretains : r.Retains role permissionIds)
    (hlocked : ReplaceRolePermissionsHandler.locked role = true → ∀ p ∈ r.granting,
      p.1 = role.id → p.2 = decide (adminUsersManage ∈ d.permissionKeys role.id))
    (hother : ReplaceRolePermissionsHandler.locked role = false →
      adminUsersManage ∈ d.permissionKeys role.id →
      adminUsersManage ∉ (d.replaceForRole role.id permissionIds).permissionKeys role.id →
      ∃ v ∈ d.users.rows, d.Grants adminUsersManage v ∧ v.roleId ≠ role.id) :
    Administered (d.replaceForRole role.id permissionIds) := by
  obtain ⟨u, hu, hactive, hkey⟩ := h
  have hapart : ∀ v ∈ d.users.rows, d.Grants adminUsersManage v → v.roleId ≠ role.id →
      Administered (d.replaceForRole role.id permissionIds) := by
    rintro v hv ⟨hvactive, hvkey⟩ hne
    exact ⟨v, hv, hvactive, by rwa [permissionKeys_replaceForRole_ne hne]⟩
  by_cases hsame : u.roleId = role.id
  · rw [hsame] at hkey
    by_cases hkept : adminUsersManage ∈
        (d.replaceForRole role.id permissionIds).permissionKeys role.id
    · exact ⟨u, hu, hactive, by rwa [hsame]⟩
    · cases hlock : ReplaceRolePermissionsHandler.locked role with
      | false =>
        obtain ⟨v, hv, hgrants, hne⟩ := hother hlock hkey hkept
        exact hapart v hv hgrants hne
      | true =>
        -- The role had the key, so that its permission was asked for and resolved.
        exfalso
        obtain ⟨keyNames, resolved, hresolved, rfl, hnames⟩ := hretains
        rcases hnames hlock with hnone | hnamed
        · have hlost := hlocked hlock _ hnone rfl
          simp [hkey] at hlost
        · apply hkept
          obtain ⟨g, -, hg⟩ := List.mem_filterMap.mp hkey
          obtain ⟨q, hq, hname⟩ := Option.map_eq_some_iff.mp hg
          rw [permissionKeys_replaceForRole, List.mem_filterMap]
          have hrow := (Store.Table.find?_eq_some_iff.mp hq).1
          refine ⟨q.id, List.mem_map_of_mem ?_, ?_⟩
          · rcases List.mem_cons.mp hresolved with heq | hmem
            · rw [(Prod.mk.inj heq).1] at hnamed
              cases hnamed
            · rw [show resolved = _ from hrecorded.resolved _ hmem, List.mem_filter]
              exact ⟨hrow, by simpa [hname] using hnamed⟩
          · simp [Store.Table.find?_of_mem hrow, hname]
  · exact hapart u hu ⟨hactive, hkey⟩ hsame

/-- A change of users' columns other than the role and the status. -/
theorem administered_columns {p : Account → Bool} {f : Account → Account}
    {hid : ∀ u, (f u).id = u.id} (h : Administered d) (hf : ∀ u, (f u).roleId = u.roleId ∧
      (f u).isActive = u.isActive) : Administered (d.updateUsers p f hid) := by
  obtain ⟨u, hu, hactive, hkey⟩ := h
  apply administered_updateUsers hu
  split
  · exact ⟨(hf u).2.trans hactive, by rwa [(hf u).1]⟩
  · exact ⟨hactive, hkey⟩

theorem administered_applies {ε : Type} (a : Written ε Unit) (h : Administered d)
    (h' : Administered d') : Administered (a.applies d d') := by
  rcases a.applies_cases d d' with ha | ⟨-, ha⟩
  · rwa [ha]
  · rwa [ha]

theorem administered_congr (h : Administered d) (husers : d'.users = d.users)
    (hpermissions : d'.permissions = d.permissions)
    (hgrants : d'.rolePermissions = d.rolePermissions) : Administered d' := by
  obtain ⟨u, hu, hactive, hkey⟩ := h
  exact ⟨u, husers ▸ hu, hactive, by rwa [permissionKeys_congr hpermissions hgrants]⟩

variable {settings : DirectorySettings} {op : DirectoryOp} {a : DirectoryAnswer op}

/-- A call of the token service, or to a table of tokens, leaves the other tables as they are. -/
theorem tables_of_performsAuth {op : AuthOp} {a : AuthAnswer op} (hp : d.performsAuth op a d') :
    d'.users = d.users ∧ d'.roles = d.roles ∧ d'.permissions = d.permissions ∧
      d'.rolePermissions = d.rolePermissions := by
  cases op with
  | now => simp [show d' = _ from hp]
  | randomBytes => simp [show d' = _ from hp]
  | nextId => simp [show d' = _ from hp.2]
  | findUser _ | findRole _ | findPermissionKeys _ => simp [show d' = _ from hp.1]
  | sign claims =>
    rcases a with e | jwt <;> simp [show d' = _ from hp]
  | findByTokenHash _ | revokeFamily _ _ | markRevoked _ _ _ | insert _ =>
    obtain ⟨t, -, rfl⟩ := hp
    exact ⟨rfl, rfl, rfl, rfl⟩

theorem administered_safe (h : Administered d) (hop : op.isSafe = true)
    (hp : d.performs settings op a d') : Administered d' := by
  cases op with
  | auth op =>
    obtain ⟨husers, -, hpermissions, hgrants⟩ := tables_of_performsAuth hp
    exact administered_congr h husers hpermissions hgrants
  | updateUser _ _ | deactivate _ | replaceForRole _ _ => cases hop
  | findUserById _ | findUserByEmail _ | findRoleById _ | findRoleByCode _
    | findPermissionKeysByRoleId _ | findPermissionsByKeyNames _
    | countActiveUsersGrantingPermission _ _ | countActiveUsersByRoleIdForFsp _ _ _
    | verifyPassword _ _ => rwa [hp.1]
  | generateTempPassword => rwa [show d' = d from hp]
  | hashPassword _ => rwa [show d' = d from hp]
  | insertUser user =>
    rcases hp with ⟨hadmits, rfl⟩ | ⟨-, -, rfl⟩
    · apply administered_applies a h
      obtain ⟨u, hu, hgrants⟩ := h
      have hmem : u ∈ (d.users.insert user fun v hv => (hadmits v hv).1).rows :=
        Store.Table.mem_insert.mpr (.inl hu)
      exact ⟨u, hmem, hgrants⟩
    · exact h
  | revokeAllForUser _ _ =>
    rw [show d' = _ from hp]
    exact administered_applies a h (administered_congr h rfl rfl rfl)
  | updatePasswordHash _ _ _ | recordSuccessfulLogin _ _ | incrementFailedAttempts _
    | lockUntil _ _ | invalidateTokens _ _ | invalidateTokensForRole _ _ =>
    rw [show d' = _ from hp]
    exact administered_applies a h (administered_columns h fun u => ⟨rfl, rfl⟩)

/-- No request changes the roles or the permissions. -/
theorem tables_of_performs (hp : d.performs settings op a d') :
    d'.roles = d.roles ∧ d'.permissions = d.permissions := by
  cases op with
  | auth op =>
    obtain ⟨-, hroles, hpermissions, -⟩ := tables_of_performsAuth hp
    exact ⟨hroles, hpermissions⟩
  | findUserById _ | findUserByEmail _ | findRoleById _ | findRoleByCode _
    | findPermissionKeysByRoleId _ | findPermissionsByKeyNames _
    | countActiveUsersGrantingPermission _ _ | countActiveUsersByRoleIdForFsp _ _ _
    | verifyPassword _ _ => simp [show d' = _ from hp.1]
  | generateTempPassword => simp [show d' = _ from hp]
  | hashPassword _ => simp [show d' = _ from hp]
  | insertUser user =>
    rcases hp with ⟨hadmits, rfl⟩ | ⟨-, -, rfl⟩
    · cases a <;> exact ⟨rfl, rfl⟩
    · exact ⟨rfl, rfl⟩
  | _ =>
    rw [show d' = _ from hp]
    cases a <;> exact ⟨rfl, rfl⟩

theorem recorded_next (h : Recorded d r) (hp : d.performs settings op a d') :
    Recorded d' (r.next op a) := by
  obtain ⟨hroles, hpermissions⟩ := tables_of_performs hp
  have hkeep : Recorded d' r := by
    constructor
    · rw [hroles]
      exact h.roles
    · rw [hpermissions]
      exact h.resolved
  cases op with
  | findUserById id => rcases a with e | _ | user <;> exact ⟨hkeep.roles, hkeep.resolved⟩
  | findRoleById id =>
    rcases a with e | _ | role
    · exact hkeep
    · exact hkeep
    · refine ⟨?_, hkeep.resolved⟩
      intro role' hrole'
      rcases List.mem_cons.mp hrole' with rfl | hrole'
      · rw [hroles]
        exact (Store.Table.find?_eq_some_iff.mp (hp.2 _ rfl).symm).1
      · exact hkeep.roles role' hrole'
  | findPermissionKeysByRoleId roleId => rcases a with e | keys <;> exact ⟨hkeep.roles, hkeep.resolved⟩
  | findPermissionsByKeyNames keyNames =>
    rcases a with e | resolved
    · exact hkeep
    · refine ⟨hkeep.roles, ?_⟩
      intro p hmem
      rcases List.mem_cons.mp hmem with rfl | hmem
      · rw [hpermissions]
        exact hp.2 _ rfl
      · exact hkeep.resolved p hmem
  | countActiveUsersGrantingPermission permissionKey excludeUserId =>
    rcases a with e | n
    · exact hkeep
    · simp only [Review.next, Review.afterCount]
      split <;> exact ⟨hkeep.roles, hkeep.resolved⟩
  | _ => exact hkeep

theorem administered_call {i : ι} {f : ι → Option Review} (h : Administered d)
    (hi : f i = some r) (hrecorded : Recorded d r) (hallows : r.allows op)
    (hl : Timely d f (.call i ⟨op, a⟩)) (hp : d.performs settings op a d') : Administered d' := by
  cases hop : op.isSafe with
  | true => exact administered_safe h hop hp
  | false =>
    cases op with
    | updateUser id patch =>
      obtain ⟨target, htarget, hid, hadmits⟩ := hallows
      rw [show d' = _ from hp]
      exact administered_applies a h (administered_updateUser h (hl r hi) htarget hid hadmits)
    | deactivate id =>
      obtain ⟨target, htarget, hid, hspares⟩ := hallows
      rw [show d' = _ from hp]
      exact administered_applies a h (administered_deactivate h (hl r hi) htarget hid hspares)
    | replaceForRole roleId permissionIds =>
      obtain ⟨role, hrole, rfl, hretains⟩ := hallows
      have hrow := hl role (hrecorded.roles role hrole) rfl
      rw [show d' = _ from hp]
      apply administered_applies a h
      apply administered_replaceForRole h hrecorded hretains
      · intro hlocked
        simp only [hlocked, if_true] at hrow
        exact hrow r hi
      · intro hlocked
        simpa only [hlocked, Bool.false_eq_true, if_false] using hrow
    | _ => cases hop

/-- The directory has an administrator, and what the executions under way recorded is so. -/
structure Governed (d : Directory) (f : ι → Option Review) : Prop where
  administered : Administered d
  recorded : ∀ i r, f i = some r → Recorded d r

theorem Governed.move [DecidableEq ι] {f f' : ι → Option Review} (h : Governed d f)
    {l : Label ι DirectoryOp DirectoryAnswer AdministrationJob} (hl : Timely d f l)
    (hm : (administration settings).LiveMove review (fun _ => .initial) d f l d' f') :
    Governed d' f' := by
  cases hm with
  | start job hi hx =>
    refine ⟨h.administered, ?_⟩
    intro j r hj
    rcases Async.update_eq_some.mp hj with ⟨rfl, rfl⟩ | ⟨-, hj⟩
    · obtain rfl : r = .initial := by simpa using hx
      constructor
      · rintro role ⟨⟩
      · rintro p ⟨⟩
    · exact h.recorded j r hj
  | @call _ _ i r op a x hi hr hp hx =>
    refine ⟨administered_call h.administered hi (h.recorded i r hi) hr hl hp, ?_⟩
    intro j r' hj
    rcases Async.update_eq_some.mp hj with ⟨rfl, rfl⟩ | ⟨-, hj⟩
    · obtain rfl : r' = review.next r op a := by simpa using hx
      exact recorded_next (h.recorded j r hi) hp
    · obtain ⟨hroles, hpermissions⟩ := tables_of_performs hp
      refine ⟨?_, ?_⟩
      · rw [hroles]
        exact (h.recorded j r' hj).roles
      · rw [hpermissions]
        exact (h.recorded j r' hj).resolved
  | crash hi =>
    refine ⟨h.administered, ?_⟩
    intro j r hj
    exact h.recorded j r (Async.of_update_none hj).2
  | background hb => exact hb.elim

end Steps

abbrev Administration (ι : Type) :=
  Config ι DirectoryOp DirectoryAnswer DirectoryError Unit AdministrationJob Directory

/-- `Timely`, of a step. -/
def TimelyStep [DecidableEq ι] (c : Administration ι)
    (l : Label ι DirectoryOp DirectoryAnswer AdministrationJob) : Prop :=
  Timely c.shared (c.live review fun _ => .initial) l

/-- Someone is left who may manage users. -/
theorem administration_kept [DecidableEq ι] {settings : DirectorySettings} {d : Directory}
    {c : Administration ι} (hd : Administered d)
    (h : (administration settings).Reaches TimelyStep (.initial d) c) : Administered c.shared := by
  have hgoverned : Governed c.shared (c.live review fun _ => .initial) :=
    h.live_invariant (fun s f l => Timely s f l) Governed Review.obeys_job
      ⟨hd, fun _ _ h => nomatch h⟩ fun s f l s' f' hP hl hm => hP.move hl hm
  exact hgoverned.administered

/-! Two administrators of a role that is not locked. -/

open Directory (sampleDirectorySettings performs_respond)

def sampleKeepers : Directory where
  users := ⟨[Account.new "a@hub" "p" "keeper" none false "a",
    Account.new "b@hub" "p" "keeper" none false "b"], by decide⟩
  roles := ⟨[⟨⟨"keeper", "KEEPER"⟩, "Keeper", none, .hub, false⟩], by decide⟩
  permissions := ⟨[⟨"k", adminUsersManage, .hub⟩], by decide⟩
  rolePermissions := [("keeper", "k")]
  refreshTokens := .empty
  accessTokens := []
  issued := []
  latest := 0

/-- What `Timely` asks of a call while no other execution is there. -/
def TimelyAlone (d : Directory) (t : List (Event DirectoryOp DirectoryAnswer))
    (e : Event DirectoryOp DirectoryAnswer) : Prop :=
  match e.op with
  | .updateUser id _ => Current d (review.after .initial t) id
  | .deactivate id => Current d (review.after .initial t) id
  | .replaceForRole _ _ => False
  | _ => True

instance (d : Directory) (t : List (Event DirectoryOp DirectoryAnswer))
    (e : Event DirectoryOp DirectoryAnswer) : Decidable (TimelyAlone d t e) := by
  unfold TimelyAlone
  split <;> infer_instance

theorem TimelyAlone.timely {d : Directory} {t : List (Event DirectoryOp DirectoryAnswer)}
    {e : Event DirectoryOp DirectoryAnswer} (h : TimelyAlone d t e) {f : ι → Option Review} {i : ι}
    (hf : ∀ j r, f j = some r → r = review.after .initial t) : Timely d f (.call i e) := by
  obtain ⟨op, a⟩ := e
  cases op with
  | updateUser id patch => exact fun r hi => hf i r hi ▸ h
  | deactivate id => exact fun r hi => hf i r hi ▸ h
  | replaceForRole roleId permissionIds => exact h.elim
  | _ => trivial

/-- One administrator deactivates the other. -/
theorem administration_kept_sample : ∃ c : Administration Bool,
    (c.process false).map (fun p => p.program.result) = some (some (.ok ())) ∧
    (c.shared.users.find? "b").map (fun u => u.isActive) = some false ∧
    Administered c.shared := by
  have hcalm : (AdministrationJob.execute (.deactivateUser ⟨"b", "a"⟩)).SoloAll
      (Directory.respond sampleDirectorySettings) (fun d t e => TimelyAlone d t e) sampleKeepers [] := by
    decide +kernel
  have hrun : (administration sampleDirectorySettings).Reaches TimelyStep
      (.initial sampleKeepers : Administration Bool) _ :=
    System.Reaches.refl.solo false (.deactivateUser ⟨"b", "a"⟩) rfl
      (performs_respond sampleDirectorySettings) trivial
      (hcalm.mono fun _ _ _ he _ => he.timely fun _ _ hj =>
        Config.live_alone (c := (.initial sampleKeepers : Administration Bool)) (fun _ => rfl) hj)
  exact ⟨_, by decide +kernel, by decide +kernel, administration_kept (by decide +kernel) hrun⟩

/-- The keys of a role that is not locked are replaced, whoever holds it. -/
theorem not_administration_kept : ¬ ∀ c : Administration Bool, Administered sampleKeepers →
    (administration sampleDirectorySettings).Reaches System.Any (.initial sampleKeepers) c →
    Administered c.shared := by
  intro h
  have hrun : (administration sampleDirectorySettings).Reaches System.Any
      (.initial sampleKeepers : Administration Bool) _ :=
    System.Reaches.refl.solo false (.replaceRolePermissions ⟨"keeper", []⟩) rfl
      (performs_respond sampleDirectorySettings) trivial
      (Async.Program.soloAll_of_forall (fun _ _ _ _ => trivial) _ _ _)
  have hkept := h _ (by decide +kernel) hrun
  revert hkept
  decide +kernel

end Auth
