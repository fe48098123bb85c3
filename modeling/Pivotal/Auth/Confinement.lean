import Pivotal.Async.Alone
import Pivotal.Auth.UserManagement

/-! What a command does to the rows of `users`, and who may be touched by an actor that manages
the users of one FSP. -/
namespace Auth
open Async (Written)
open Async.Program
open UserManagementPolicy

namespace Directory

/-- At most the row `id` changes, as `Q` describes, and no row comes or goes. -/
structure Alters (id : String) (Q : Account → Account → Prop) (d d' : Directory) : Prop where
  roles : d'.roles = d.roles
  others : ∀ k, k ≠ id → d'.users.find? k = d.users.find? k
  row : ∀ u, d.users.find? id = some u → ∃ u', d'.users.find? id = some u' ∧ Q u u'
  absent : d.users.find? id = none → d'.users.find? id = none

variable {id : String} {Q Q' : Account → Account → Prop} {d d' d'' : Directory}

theorem Alters.of_eq (hroles : d'.roles = d.roles) (husers : d'.users = d.users)
    (hQ : ∀ u, Q u u) : Alters id Q d d' where
  roles := hroles
  others k _ := by rw [husers]
  row u hu := ⟨u, by rw [husers, hu], hQ u⟩
  absent h := by rw [husers, h]

theorem Alters.mono (h : Alters id Q d d') (hQ : ∀ u u', Q u u' → Q' u u') : Alters id Q' d d' where
  roles := h.roles
  others := h.others
  row u hu := by
    obtain ⟨u', hu', hq⟩ := h.row u hu
    exact ⟨u', hu', hQ u u' hq⟩
  absent := h.absent

theorem Alters.trans (h : Alters id Q d d') (h' : Alters id Q' d' d'') :
    Alters id (Relation.Comp Q Q') d d'' where
  roles := h'.roles.trans h.roles
  others k hk := (h'.others k hk).trans (h.others k hk)
  row u hu := by
    obtain ⟨u', hu', hq⟩ := h.row u hu
    obtain ⟨u'', hu'', hq'⟩ := h'.row u' hu'
    exact ⟨u'', hu'', u', hq, hq'⟩
  absent hu := h'.absent (h.absent hu)

theorem alters_updateUsers (d : Directory) (id : String) (f : Account → Account)
    (h : ∀ u, (f u).id = u.id) :
    Alters id (fun u u' => u' = f u) d (d.updateUsers (fun u => u.id = id) f h) := by
  constructor
  · rfl
  · intro k hk
    simp only [updateUsers, Store.Table.find?_modify]
    cases hfind : d.users.find? k with
    | none => rfl
    | some u =>
      have hid : u.id = k := (Store.Table.find?_eq_some_iff.mp hfind).2
      simp [hid, hk]
  · intro u hu
    have hid : u.id = id := (Store.Table.find?_eq_some_iff.mp hu).2
    exact ⟨f u, by simp [updateUsers, Store.Table.find?_modify, hu, hid], rfl⟩
  · intro hu
    simp [updateUsers, Store.Table.find?_modify, hu]

theorem alters_applies {ε : Type} (a : Written ε Unit) (hnext : Alters id Q d d')
    (hQ : ∀ u, Q u u) : Alters id Q d (a.applies d d') := by
  rcases a.applies_cases d d' with h | ⟨-, h⟩
  · rwa [h]
  · rw [h]
    exact .of_eq rfl rfl hQ

end Directory

/-- The FSP and the role of a row stay. -/
def KeepsAffiliation (u u' : Account) : Prop := u'.fspId = u.fspId ∧ u'.roleId = u.roleId

theorem keepsAffiliation_refl (u : Account) : KeepsAffiliation u u := ⟨rfl, rfl⟩

theorem keepsAffiliation_comp {u u' : Account}
    (h : Relation.Comp KeepsAffiliation KeepsAffiliation u u') : KeepsAffiliation u u' := by
  obtain ⟨v, hv, hv'⟩ := h
  exact ⟨hv'.1.trans hv.1, hv'.2.trans hv.2⟩

open Directory

/-! What the calls yield when nothing comes in between. -/

section Calls

variable (settings : DirectorySettings) (d : Directory)

theorem findUserById_yields (id : String) : (UserRepository.findById id).Yields
    (Directory.performs settings) d fun d' found => d' = d ∧ found = d.users.find? id :=
  yields_answer fun _ _ h found hfound => ⟨h.1, h.2 found hfound⟩

theorem findUserByEmail_yields (email : String) : (UserRepository.findByEmail email).Yields
    (Directory.performs settings) d fun d' _ => d' = d :=
  yields_answer fun _ _ h _ _ => h.1

theorem findRoleById_yields (id : String) : (RoleRepository.findById id).Yields
    (Directory.performs settings) d fun d' found => d' = d ∧ found = d.roles.find? id :=
  yields_answer fun _ _ h found hfound => ⟨h.1, h.2 found hfound⟩

theorem findRoleByCode_yields (code : String) : (RoleRepository.findByCode code).Yields
    (Directory.performs settings) d fun d' _ => d' = d :=
  yields_answer fun _ _ h _ _ => h.1

theorem findPermissionKeysByRoleId_yields (roleId : String) :
    (RolePermissionRepository.findPermissionKeysByRoleId roleId).Yields
      (Directory.performs settings) d fun d' keys => d' = d ∧ keys = d.permissionKeys roleId :=
  yields_answer fun _ _ h found hfound => ⟨h.1, h.2 found hfound⟩

theorem countGranting_yields (permissionKey excludeUserId : String) :
    (UserRepository.countActiveUsersGrantingPermission permissionKey excludeUserId).Yields
      (Directory.performs settings) d fun d' _ => d' = d :=
  yields_answer fun _ _ h _ _ => h.1

theorem countForFsp_yields (roleId fspId excludeUserId : String) :
    (UserRepository.countActiveUsersByRoleIdForFsp roleId fspId excludeUserId).Yields
      (Directory.performs settings) d fun d' _ => d' = d :=
  yields_answer fun _ _ h _ _ => h.1

theorem hash_yields (plaintext : String) : (PasswordService.hash plaintext).Yields
    (Directory.performs settings) d fun d' _ => d' = d :=
  yields_answer fun _ _ h _ _ => h

theorem generateTempPassword_yields :
    (perform DirectoryOp.generateTempPassword : DirectoryProgram String).Yields
      (Directory.performs settings) d fun d' _ => d' = d :=
  yields_perform fun _ _ h => h

theorem nonNull_yields {α : Type} (x : Option α) :
    (nonNull x).Yields (Directory.performs settings) d fun d' a => d' = d ∧ x = some a := by
  cases x with
  | none => exact yields_throw _
  | some a => exact yields_pure ⟨rfl, rfl⟩

/-- A write of the row `id` that keeps its affiliation. -/
theorem updateRow_yields {op : DirectoryOp} {f : DirectoryAnswer op → Except DirectoryError Unit}
    {id : String} (h : ∀ a d', Directory.performs settings d op a d' →
      Alters id KeepsAffiliation d d') :
    (perform op >>= fun a => lift (f a) : DirectoryProgram Unit).Yields
      (Directory.performs settings) d fun d' _ => Alters id KeepsAffiliation d d' :=
  yields_answer fun a d' ha _ _ => h a d' ha

theorem updatePasswordHash_yields (id passwordHash : String) (mustChangePassword : Bool) :
    (UserRepository.updatePasswordHash id passwordHash mustChangePassword).Yields
      (Directory.performs settings) d fun d' _ => Alters id KeepsAffiliation d d' := by
  apply updateRow_yields
  rintro a d' rfl
  apply alters_applies a _ keepsAffiliation_refl
  apply (alters_updateUsers d id _ _).mono
  rintro u _ rfl
  exact ⟨rfl, rfl⟩

theorem deactivate_yields (id : String) : (UserRepository.deactivate id).Yields
    (Directory.performs settings) d fun d' _ => Alters id KeepsAffiliation d d' := by
  apply updateRow_yields
  rintro a d' rfl
  apply alters_applies a _ keepsAffiliation_refl
  apply (alters_updateUsers d id _ _).mono
  rintro u _ rfl
  exact ⟨rfl, rfl⟩

theorem now_yields (id : String) : (perform (DirectoryOp.auth .now) : DirectoryProgram Js.Date).Yields
    (Directory.performs settings) d fun d' _ => Alters id KeepsAffiliation d d' := by
  apply yields_perform
  rintro a d' rfl
  exact .of_eq rfl rfl keepsAffiliation_refl

theorem seq_yields {α β : Type} {id : String} {p : DirectoryProgram α}
    {f : α → DirectoryProgram β}
    (hp : p.Yields (Directory.performs settings) d fun d' _ => Alters id KeepsAffiliation d d')
    (hf : ∀ a d', (f a).Yields (Directory.performs settings) d' fun d'' _ =>
      Alters id KeepsAffiliation d' d'') :
    (p >>= f).Yields (Directory.performs settings) d fun d' _ =>
      Alters id KeepsAffiliation d d' := by
  apply Yields.bind hp
  intro a d' h
  apply (hf a d').mono
  intro d'' _ h'
  exact (h.trans h').mono fun _ _ => keepsAffiliation_comp

theorem invalidateTokens_yields (id : String) : (UserRepository.invalidateTokens id).Yields
    (Directory.performs settings) d fun d' _ => Alters id KeepsAffiliation d d' := by
  apply seq_yields settings d (now_yields settings d id)
  intro now d'
  apply updateRow_yields
  rintro a d'' rfl
  apply alters_applies a _ keepsAffiliation_refl
  apply (alters_updateUsers d' id _ _).mono
  rintro u _ rfl
  exact ⟨rfl, rfl⟩

theorem revokeAllForUser_yields (id userId : String) :
    (RefreshTokenRepository.revokeAllForUser userId).Yields (Directory.performs settings) d
      fun d' _ => Alters id KeepsAffiliation d d' := by
  apply seq_yields settings d (now_yields settings d id)
  intro now d'
  apply updateRow_yields
  rintro a d'' rfl
  exact alters_applies a (.of_eq rfl rfl keepsAffiliation_refl) keepsAffiliation_refl

theorem findUserById_alters (id k : String) : (UserRepository.findById k).Yields
    (Directory.performs settings) d fun d' _ => Alters id KeepsAffiliation d d' := by
  refine Yields.mono (findUserById_yields settings d k) ?_
  rintro d' _ ⟨rfl, -⟩
  exact .of_eq rfl rfl keepsAffiliation_refl

end Calls

/-- The actor does not hold `admin.users.manage`. -/
structure FspManager (d : Directory) (actingUserId : String) (actor : Account) : Prop where
  isActor : d.users.find? actingUserId = some actor
  notGlobal : PermissionKey.adminUsersManage ∉ d.permissionKeys actor.roleId

/-- The context of an actor that manages the users of its own FSP. -/
structure OwnContext (context : UserManagementContext) (actor : Account) : Prop where
  notGlobal : context.globalManager = false
  ownFsp : context.managementFspId = actor.fspId
  hasFsp : actor.fspId.isSome = true

section Checks

variable (settings : DirectorySettings) {d : Directory} {actor : Account}
  {context : UserManagementContext}

theorem resolveManagementContext_yields {actorId : String} (h : FspManager d actorId actor) :
    (resolveManagementContext actorId).Yields (Directory.performs settings) d
      fun d' context => d' = d ∧ OwnContext context actor := by
  apply Yields.bind (findUserById_yields settings d actorId)
  rintro (_ | actor') d' ⟨rfl, hfound⟩
  · exact yields_throw _
  · obtain rfl : actor' = actor := Option.some.inj (hfound.trans h.isActor)
    apply yields_unless
    intro hactive
    apply Yields.bind (findRoleById_yields settings d' actor'.roleId)
    rintro (_ | actorRole) d ⟨rfl, hrole⟩
    · exact yields_throw _
    · apply Yields.bind (findPermissionKeysByRoleId_yields settings d actor'.roleId)
      rintro keys d' ⟨rfl, rfl⟩
      have hglobal : (d'.permissionKeys actor'.roleId).contains PermissionKey.adminUsersManage =
          false := by simpa using h.notGlobal
      apply yields_unless
      intro hmanager
      apply yields_unless
      intro hfsp
      apply yields_pure
      refine ⟨rfl, hglobal, by simp only [hglobal, Bool.false_eq_true, if_false], ?_⟩
      simpa only [hglobal, Bool.not_false, Bool.true_and, Bool.not_eq_true,
        Option.isNone_eq_false_iff] using hfsp

/-- A target that may be managed belongs to the actor's FSP. -/
theorem OwnContext.target (h : OwnContext context actor) {target : Account} {role : RoleRow}
    (hcan : canManageTargetRole context target role = true) : target.fspId = actor.fspId := by
  simp only [canManageTargetRole, h.notGlobal, h.ownFsp, Bool.false_eq_true, if_false] at hcan
  split at hcan
  · contradiction
  · rename_i hown
    exact not_not.mp fun hne => hown (.inr hne)

/-- A role that a manager of one FSP may assign. -/
def RoleRow.Assignable (role : RoleRow) : Prop :=
  role.scope = .dfsp ∧ role.code ≠ dfspAdminRoleCode

theorem OwnContext.role (h : OwnContext context actor) {role : RoleRow}
    (hcan : canAssignRole context role = true) : role.Assignable := by
  simp only [canAssignRole, h.notGlobal, Bool.false_eq_true, if_false] at hcan
  split at hcan
  · contradiction
  · rename_i hscope
    exact ⟨not_not.mp hscope, of_decide_eq_true hcan⟩

theorem assertCanManageTargetRole_yields (h : OwnContext context actor) (target : Account)
    (role : RoleRow) : (assertCanManageTargetRole context target role).Yields
      (Directory.performs settings) d fun d' _ => d' = d ∧ target.fspId = actor.fspId := by
  unfold assertCanManageTargetRole
  split
  · rename_i hcan
    exact yields_pure ⟨rfl, h.target hcan⟩
  · exact yields_throw _

theorem assertCanAssignRole_yields (h : OwnContext context actor) (role : RoleRow) :
    (assertCanAssignRole context role).Yields (Directory.performs settings) d
      fun d' _ => d' = d ∧ role.Assignable := by
  unfold assertCanAssignRole
  split
  · rename_i hcan
    exact yields_pure ⟨rfl, h.role hcan⟩
  · exact yields_throw _

theorem assertScopeFitsFsp_yields (role : RoleRow) (fspId : Option String) :
    (assertScopeFitsFsp role fspId).Yields (Directory.performs settings) d
      fun d' _ => d' = d := by
  apply yields_unless
  intro hhub
  split
  · exact yields_throw _
  · exact yields_pure rfl

theorem assertOtherAdmin_yields (targetUserId : String) :
    (UpdateUserHandler.assertOtherAdmin targetUserId).Yields (Directory.performs settings) d
      fun d' _ => d' = d := by
  apply Yields.bind (countGranting_yields settings d _ targetUserId)
  rintro others d' rfl
  split
  · exact yields_throw _
  · exact yields_pure rfl

theorem assertNotLastAdmin_yields (targetUserId currentRoleId nextRoleId : String)
    (deactivating : Bool) :
    (UpdateUserHandler.assertNotLastAdmin targetUserId currentRoleId nextRoleId deactivating).Yields
      (Directory.performs settings) d fun d' _ => d' = d := by
  apply Yields.bind (findPermissionKeysByRoleId_yields settings d currentRoleId)
  rintro keys d' ⟨rfl, -⟩
  split
  · exact yields_pure rfl
  · split
    · apply Yields.bind (findPermissionKeysByRoleId_yields settings d' nextRoleId)
      rintro nextKeys d ⟨rfl, -⟩
      split
      · exact yields_pure rfl
      · exact assertOtherAdmin_yields settings targetUserId
    · exact assertOtherAdmin_yields settings targetUserId

theorem assertOtherDfspManager_yields (fspId targetUserId : String) :
    (assertOtherDfspManager fspId targetUserId).Yields (Directory.performs settings) d
      fun d' _ => d' = d := by
  apply Yields.bind (findRoleByCode_yields settings d dfspAdminRoleCode)
  rintro (_ | role) d' rfl
  · exact yields_throw _
  · apply Yields.bind (countForFsp_yields settings d' role.id fspId targetUserId)
    rintro others d rfl
    split
    · exact yields_throw _
    · exact yields_pure rfl

theorem assertNotLastDfspManager_yields (targetUser : Account) (currentRoleId nextRoleId : String)
    (nextFspId : Option String) (deactivating : Bool) :
    (assertNotLastDfspManager targetUser currentRoleId nextRoleId nextFspId deactivating).Yields
      (Directory.performs settings) d fun d' _ => d' = d := by
  unfold assertNotLastDfspManager
  split
  · apply Yields.bind (findRoleById_yields settings d currentRoleId)
    rintro currentRole d' ⟨rfl, -⟩
    split
    · exact yields_pure rfl
    · split
      · exact yields_pure rfl
      · split
        · apply Yields.bind (findRoleById_yields settings d' nextRoleId)
          rintro nextRole d ⟨rfl, -⟩
          split
          · exact yields_pure rfl
          · exact assertOtherDfspManager_yields settings _ _
        · exact assertOtherDfspManager_yields settings _ _
  · exact yields_pure rfl

end Checks

/-- Every row that was changed or added belongs to the actor's FSP, before and after, and a role
it was given is neither HUB-scoped nor that of the DFSP administrators. -/
def Confined (actor : Account) (d d' : Directory) : Prop :=
  ∃ fspId, actor.fspId = some fspId ∧ ∀ id, d'.users.find? id ≠ d.users.find? id →
    (∀ u, d.users.find? id = some u → u.fspId = some fspId) ∧
    ∃ u', d'.users.find? id = some u' ∧ u'.fspId = some fspId ∧
      ((d.users.find? id).map (fun u => u.roleId) ≠ some u'.roleId →
        ∃ role, d'.roles.find? u'.roleId = some role ∧ role.Assignable)

section Rows

variable {d d' : Directory} {actor target : Account} {context : UserManagementContext}
  {Q : Account → Account → Prop}

theorem confined_of_alters (h : OwnContext context actor)
    (hfound : d.users.find? target.id = some target) (hown : target.fspId = actor.fspId)
    (halters : Alters target.id Q d d')
    (hQ : ∀ u', Q target u' → u'.fspId = actor.fspId ∧ (u'.roleId ≠ target.roleId →
      ∃ role, d.roles.find? u'.roleId = some role ∧ role.Assignable)) : Confined actor d d' := by
  obtain ⟨fspId, hfsp⟩ := Option.isSome_iff_exists.mp h.hasFsp
  refine ⟨fspId, hfsp, ?_⟩
  intro id hne
  by_cases hid : id = target.id
  · subst hid
    obtain ⟨u', hu', hq⟩ := halters.row target hfound
    obtain ⟨hfsp', hrole⟩ := hQ u' hq
    constructor
    · intro u hu
      obtain rfl : target = u := Option.some.inj (hfound.symm.trans hu)
      exact hown.trans hfsp
    · refine ⟨u', hu', hfsp'.trans hfsp, ?_⟩
      intro hchange
      rw [halters.roles]
      apply hrole
      intro heq
      exact hchange (by rw [hfound, heq]; rfl)
  · exact absurd (halters.others id hid) hne

theorem confined_of_keeps (h : OwnContext context actor)
    (hfound : d.users.find? target.id = some target) (hown : target.fspId = actor.fspId)
    (halters : Alters target.id KeepsAffiliation d d') : Confined actor d d' :=
  confined_of_alters h hfound hown halters fun _ hq =>
    ⟨hq.1.trans hown, fun hne => absurd hq.2 hne⟩

theorem confined_refl (h : OwnContext context actor) (d : Directory) : Confined actor d d := by
  obtain ⟨fspId, hfsp⟩ := Option.isSome_iff_exists.mp h.hasFsp
  exact ⟨fspId, hfsp, fun _ hne => absurd rfl hne⟩

theorem confined_insert (h : OwnContext context actor) {collate : String → String} {user : Account}
    {hadmits : d.AdmitsUser collate user} (hown : user.fspId = actor.fspId) {role : RoleRow}
    (hrole : d.roles.find? user.roleId = some role) (hassign : role.Assignable) :
    Confined actor d (d.insertUser collate user hadmits) := by
  obtain ⟨fspId, hfsp⟩ := Option.isSome_iff_exists.mp h.hasFsp
  refine ⟨fspId, hfsp, ?_⟩
  intro id hne
  simp only [insertUser, Store.Table.find?_insert] at hne ⊢
  by_cases hid : user.id = id
  · subst hid
    constructor
    · intro u hu
      obtain ⟨hmem, heq⟩ := Store.Table.find?_eq_some_iff.mp hu
      exact absurd heq (hadmits u hmem).1
    · exact ⟨user, by simp, hown.trans hfsp, fun _ => ⟨role, hrole, hassign⟩⟩
  · simp [hid] at hne

theorem patchFor_affiliation {newRole : RoleRow} {roleChange : Bool} {fspId : Option String}
    {isActive : Option Bool} {v u' : Account}
    (hv : v = (UpdateUserHandler.patchFor target newRole roleChange fspId isActive).apply target)
    (hu' : KeepsAffiliation v u') : u'.fspId = fspId ∧
      u'.roleId = if roleChange then newRole.id else target.roleId := by
  subst hv
  obtain ⟨hfsp, hrole⟩ := hu'
  constructor
  · rw [hfsp]
    simp only [UserUpdate.apply, UpdateUserHandler.patchFor]
    split
    · rfl
    · rename_i heq
      exact (not_not.mp heq).symm
  · rw [hrole]
    simp only [UserUpdate.apply, UpdateUserHandler.patchFor]
    split <;> rfl

end Rows

section Handlers

variable (settings : DirectorySettings) {d : Directory} {actor : Account}
  {context : UserManagementContext}

theorem OwnContext.created (h : OwnContext context actor) (requestedFspId : Option String) :
    resolveCreateFspId context requestedFspId = actor.fspId := by
  simp [resolveCreateFspId, h.notGlobal, h.ownFsp]

theorem save_confined (h : OwnContext context actor) {email passwordHash : String} {role : RoleRow}
    {fspId : Option String} (hfsp : fspId = actor.fspId) (hrole : role ∈ d.roles.rows)
    (hassign : role.Assignable) :
    (UserRepository.save (Account.new email passwordHash role.id fspId true)).Yields
      (Directory.performs settings) d fun d' _ => Confined actor d d' := by
  refine Yields.bind (P := fun d' _ => d'.users = d.users ∧ d'.roles = d.roles)
    (yields_perform ?_) ?_
  · rintro id d' ⟨-, rfl⟩
    exact ⟨rfl, rfl⟩
  · rintro id d₁ ⟨husers, hroles⟩
    refine Yields.bind (P := fun d' a => ∀ b, a.toExcept = .ok b → Confined actor d d')
      (yields_perform ?_) ?_
    · rintro a d' (⟨hadmits, rfl⟩ | ⟨-, ⟨e, rfl⟩, -⟩) _ hok
      · have hconfined : Confined actor d₁ (d₁.insertUser _ _ hadmits) := by
          apply confined_insert h hfsp _ hassign
          rw [hroles]
          exact Store.Table.find?_of_mem hrole
        simp only [Confined, husers] at hconfined ⊢
        rcases a.applies_cases d₁ (d₁.insertUser _ _ hadmits) with happ | ⟨⟨e, rfl⟩, -⟩
        · rw [happ]
          exact hconfined
        · contradiction
      · contradiction
    · intro a d' hconfined
      refine Yields.bind (P := fun d' _ => Confined actor d d') (yields_lift hconfined) ?_
      intro _ d' hconfined
      exact yields_pure hconfined

theorem switchOff_yields (d : Directory) (target : Account) :
    (DeactivateUserHandler.switchOff target).Yields (Directory.performs settings) d
      fun d' _ => Alters target.id KeepsAffiliation d d' := by
  apply seq_yields settings d (deactivate_yields settings d target.id)
  intro _ d₁
  apply seq_yields settings d₁ (revokeAllForUser_yields settings d₁ target.id target.id)
  intro _ d₂
  apply seq_yields settings d₂ (invalidateTokens_yields settings d₂ target.id)
  intro _ d₃
  exact findUserById_alters settings d₃ target.id target.id

/-- The end of `applyPatch`, where the affiliation stays. -/
theorem withdraw_yields (d : Directory) (target : Account) (deactivation : Bool) :
    (do
      UserRepository.invalidateTokens target.id
      if deactivation then
        RefreshTokenRepository.revokeAllForUser target.id
      UserRepository.findById target.id : DirectoryProgram (Option Account)).Yields
      (Directory.performs settings) d fun d' _ => Alters target.id KeepsAffiliation d d' := by
  apply seq_yields settings d (invalidateTokens_yields settings d target.id)
  intro _ d₁
  split
  · apply seq_yields settings d₁ (revokeAllForUser_yields settings d₁ target.id target.id)
    intro _ d₂
    exact findUserById_alters settings d₂ target.id target.id
  · exact findUserById_alters settings d₁ target.id target.id

theorem apply_of_isEmpty {patch : UserUpdate} (h : patch.isEmpty = true) (u : Account) :
    patch.apply u = u := by
  simp only [UserUpdate.isEmpty, Bool.and_eq_true, Option.isNone_iff_eq_none] at h
  obtain ⟨⟨hrole, hfsp⟩, hactive⟩ := h
  simp [UserUpdate.apply, hrole, hfsp, hactive]

theorem update_yields (d : Directory) (id : String) (patch : UserUpdate) :
    (UserRepository.update id patch).Yields (Directory.performs settings) d
      fun d' _ => Alters id (fun u u' => u' = patch.apply u) d d' := by
  apply yields_answer
  rintro a d' rfl _ hok
  rcases a.applies_cases d (d.updateUser id patch) with happ | ⟨⟨e, rfl⟩, -⟩
  · rw [happ]
    exact alters_updateUsers d id _ _
  · contradiction

theorem applyPatch_yields (d : Directory) (target : Account) (patch : UserUpdate)
    (deactivation : Bool) :
    (UpdateUserHandler.applyPatch target patch deactivation).Yields (Directory.performs settings) d
      fun d' _ => Alters target.id
        (Relation.Comp (fun u v => v = patch.apply u) KeepsAffiliation) d d' := by
  unfold UpdateUserHandler.applyPatch
  apply yields_when (P := fun d₁ _ => Alters target.id (fun u v => v = patch.apply u) d d₁)
  · intro hpatch
    exact update_yields settings d target.id patch
  · intro hempty
    exact .of_eq rfl rfl fun u => (apply_of_isEmpty (by simpa using hempty) u).symm
  · intro _ d₁ hpatch
    apply (withdraw_yields settings d₁ target deactivation).mono
    intro d₂ _ hkeeps
    exact hpatch.trans hkeeps

theorem change_confined (h : OwnContext context actor) {input : UpdateUserCommand.Input}
    {target : Account} {newRole : RoleRow} {roleChange deactivation : Bool}
    (hfound : d.users.find? target.id = some target) (hown : target.fspId = actor.fspId)
    (hrole : newRole ∈ d.roles.rows) :
    (UpdateUserHandler.change input context target newRole roleChange deactivation).Yields
      (Directory.performs settings) d fun d' _ => Confined actor d d' := by
  apply Yields.bind (assertCanAssignRole_yields settings h newRole)
  rintro _ d' ⟨rfl, hassign⟩
  have hfsp : ∀ requested, (if context.globalManager then requested
      else context.managementFspId) = actor.fspId := by
    intro requested
    simp [h.notGlobal, h.ownFsp]
  apply Yields.bind (assertScopeFitsFsp_yields settings newRole _)
  rintro _ d rfl
  apply yields_when (P := fun d' _ => d' = d)
  · intro hchange
    exact assertNotLastAdmin_yields settings target.id _ _ deactivation
  · intro hsame
    rfl
  rintro _ d' rfl
  apply Yields.bind (assertNotLastDfspManager_yields settings target _ _ _ _)
  rintro _ d rfl
  apply Yields.bind (applyPatch_yields settings d target _ deactivation)
  intro updated d' halters
  apply yields_pure
  apply confined_of_alters h hfound hown halters
  rintro u' ⟨v, hv, hkeeps⟩
  obtain ⟨hfsp', hrole'⟩ := patchFor_affiliation hv hkeeps
  constructor
  · exact hfsp'.trans (hfsp _)
  · intro hne
    cases roleChange with
    | false => exact absurd hrole' hne
    | true => exact ⟨newRole, by rw [hrole']; exact Store.Table.find?_of_mem hrole, hassign⟩

theorem createUser_confined {input : CreateUserCommand.Input}
    (h : FspManager d input.actingUserId actor) : (CreateUserHandler.execute input).Yields
      (Directory.performs settings) d fun d' _ => Confined actor d d' := by
  apply Yields.bind (resolveManagementContext_yields settings h)
  rintro context d' ⟨rfl, hown⟩
  apply Yields.bind (findRoleById_yields settings d' input.roleId)
  rintro (_ | role) d ⟨rfl, hrole⟩
  · exact yields_throw _
  apply Yields.bind (assertCanAssignRole_yields settings hown role)
  rintro _ d' ⟨rfl, hassign⟩
  apply Yields.bind (assertScopeFitsFsp_yields settings role _)
  rintro _ d rfl
  apply Yields.bind (findUserByEmail_yields settings d input.email)
  rintro existing d' rfl
  apply yields_unless
  intro hnew
  apply Yields.bind (generateTempPassword_yields settings d')
  rintro tempPassword d rfl
  apply Yields.bind (hash_yields settings d tempPassword)
  rintro passwordHash d' rfl
  apply Yields.bind (save_confined settings hown (hown.created _)
    (Store.Table.find?_eq_some_iff.mp hrole.symm).1 hassign)
  intro saved d hconfined
  exact yields_pure hconfined

theorem updateUser_confined {input : UpdateUserCommand.Input}
    (h : FspManager d input.actingUserId actor) : (UpdateUserHandler.execute input).Yields
      (Directory.performs settings) d fun d' _ => Confined actor d d' := by
  apply Yields.bind (resolveManagementContext_yields settings h)
  rintro context d' ⟨rfl, hown⟩
  apply Yields.bind (findUserById_yields settings d' input.targetUserId)
  rintro (_ | target) d ⟨rfl, hfound⟩
  · exact yields_throw _
  apply Yields.bind (findRoleById_yields settings d target.roleId)
  rintro (_ | targetRole) d' ⟨rfl, -⟩
  · exact yields_throw _
  apply Yields.bind (assertCanManageTargetRole_yields settings hown target targetRole)
  rintro _ d ⟨rfl, htarget⟩
  apply yields_unless
  intro hself
  apply Yields.bind (findRoleById_yields settings d _)
  rintro (_ | newRole) d' ⟨rfl, hrole⟩
  · exact yields_throw _
  have hid := (Store.Table.find?_eq_some_iff.mp hfound.symm).2
  exact change_confined settings hown (by rw [hid, hfound]) htarget
    (Store.Table.find?_eq_some_iff.mp hrole.symm).1

theorem deactivateUser_confined {input : DeactivateUserCommand.Input}
    (h : FspManager d input.actingUserId actor) : (DeactivateUserHandler.execute input).Yields
      (Directory.performs settings) d fun d' _ => Confined actor d d' := by
  apply Yields.bind (resolveManagementContext_yields settings h)
  rintro context d' ⟨rfl, hown⟩
  apply yields_unless
  intro hself
  apply Yields.bind (findUserById_yields settings d' input.targetUserId)
  rintro (_ | target) d ⟨rfl, hfound⟩
  · exact yields_throw _
  have hid := (Store.Table.find?_eq_some_iff.mp hfound.symm).2
  apply Yields.bind (findRoleById_yields settings d target.roleId)
  rintro found d' ⟨rfl, -⟩
  apply Yields.bind (nonNull_yields settings d' found)
  rintro role d ⟨rfl, -⟩
  apply Yields.bind (assertCanManageTargetRole_yields settings hown target role)
  rintro _ d' ⟨rfl, htarget⟩
  split
  · exact yields_pure (confined_refl hown d')
  apply Yields.bind (findPermissionKeysByRoleId_yields settings d' target.roleId)
  rintro grants d ⟨rfl, -⟩
  apply yields_when (P := fun d' _ => d' = d)
  · intro hgrants
    exact assertOtherAdmin_yields settings target.id
  · intro hgrants
    rfl
  rintro _ d' rfl
  apply Yields.bind (assertNotLastDfspManager_yields settings target _ _ _ _)
  rintro _ d rfl
  apply Yields.bind (switchOff_yields settings d target)
  intro refreshed d' halters
  exact yields_pure (confined_of_keeps hown (by rw [hid, hfound]) htarget halters)

theorem resetUserPassword_confined {input : ResetUserPasswordCommand.Input}
    (h : FspManager d input.actingUserId actor) : (ResetUserPasswordHandler.execute input).Yields
      (Directory.performs settings) d fun d' _ => Confined actor d d' := by
  apply Yields.bind (resolveManagementContext_yields settings h)
  rintro context d' ⟨rfl, hown⟩
  apply Yields.bind (findUserById_yields settings d' input.targetUserId)
  rintro (_ | user) d ⟨rfl, hfound⟩
  · exact yields_throw _
  have hid := (Store.Table.find?_eq_some_iff.mp hfound.symm).2
  apply Yields.bind (findRoleById_yields settings d user.roleId)
  rintro found d' ⟨rfl, -⟩
  apply Yields.bind (nonNull_yields settings d' found)
  rintro role d ⟨rfl, -⟩
  apply Yields.bind (assertCanManageTargetRole_yields settings hown user role)
  rintro _ d' ⟨rfl, htarget⟩
  apply Yields.bind (generateTempPassword_yields settings d')
  rintro tempPassword d rfl
  apply Yields.bind (hash_yields settings d tempPassword)
  rintro passwordHash d' rfl
  refine Yields.mono (R := fun d'' _ => Alters user.id KeepsAffiliation d' d'') ?_ ?_
  · apply seq_yields settings d' (updatePasswordHash_yields settings d' user.id passwordHash true)
    intro _ d₁
    apply seq_yields settings d₁ (revokeAllForUser_yields settings d₁ user.id user.id)
    intro _ d₂
    apply seq_yields settings d₂ (invalidateTokens_yields settings d₂ user.id)
    intro _ d₃
    apply seq_yields settings d₃ (findUserById_alters settings d₃ user.id user.id)
    intro _ d₄
    exact yields_pure (.of_eq rfl rfl keepsAffiliation_refl)
  · intro d'' _ halters
    exact confined_of_keeps hown (by rw [hid, hfound]) htarget halters

end Handlers

/-- The commands that manage users. -/
inductive ManagementCommand where
  | createUser (input : CreateUserCommand.Input)
  | updateUser (input : UpdateUserCommand.Input)
  | deactivateUser (input : DeactivateUserCommand.Input)
  | resetUserPassword (input : ResetUserPasswordCommand.Input)

namespace ManagementCommand

def actingUserId : ManagementCommand → String
  | .createUser input => input.actingUserId
  | .updateUser input => input.actingUserId
  | .deactivateUser input => input.actingUserId
  | .resetUserPassword input => input.actingUserId

def execute : ManagementCommand → DirectoryProgram Unit
  | .createUser input => do let _ ← CreateUserHandler.execute input
  | .updateUser input => do let _ ← UpdateUserHandler.execute input
  | .deactivateUser input => do let _ ← DeactivateUserHandler.execute input
  | .resetUserPassword input => do let _ ← ResetUserPasswordHandler.execute input

end ManagementCommand

/-- Whatever the directory holds and however its calls end, a command of an actor that does not
hold `admin.users.manage` and that succeeds stays within the actor's FSP. -/
theorem fsp_manager_confined (settings : DirectorySettings) {d d' : Directory}
    {command : ManagementCommand} {actor : Account}
    (hactor : d.users.find? command.actingUserId = some actor)
    (hrole : PermissionKey.adminUsersManage ∉ d.permissionKeys actor.roleId)
    (h : command.execute.Executes (Directory.performs settings) d (.ok ()) d') :
    Confined actor d d' := by
  refine Yields.of_executes (R := fun d' _ => Confined actor d d') ?_ h
  have hend : ∀ {α : Type} (a : α) (d' : Directory), Confined actor d d' →
      (pure () : DirectoryProgram Unit).Yields (Directory.performs settings) d'
        fun d' _ => Confined actor d d' := fun _ _ hconfined => yields_pure hconfined
  cases command with
  | createUser input =>
    exact Yields.bind (createUser_confined settings ⟨hactor, hrole⟩) hend
  | updateUser input =>
    exact Yields.bind (updateUser_confined settings ⟨hactor, hrole⟩) hend
  | deactivateUser input =>
    exact Yields.bind (deactivateUser_confined settings ⟨hactor, hrole⟩) hend
  | resetUserPassword input =>
    exact Yields.bind (resetUserPassword_confined settings ⟨hactor, hrole⟩) hend

/-- A manager of the users of one FSP, with one of them. -/
def sampleFsp : Directory where
  users := ⟨[Account.new "m@f" "p" "manager" (some "F") false "m",
    Account.new "u@f" "p" "clerk" (some "F") false "u"], by decide⟩
  roles := ⟨[⟨⟨"manager", "MANAGER"⟩, "Manager", none, .dfsp, false⟩,
    ⟨⟨"clerk", "CLERK"⟩, "Clerk", none, .dfsp, false⟩], by decide⟩
  permissions := ⟨[⟨"k", PermissionKey.adminDfspUsersManage, .dfsp⟩], by decide⟩
  rolePermissions := [("manager", "k")]
  refreshTokens := .empty
  accessTokens := []
  issued := []
  latest := 0

/-- The manager makes the other user a manager too. -/
theorem fsp_manager_confined_sample : ∃ d', (d'.users.find? "u").map (fun u => u.roleId) =
    some "manager" ∧
    Confined (Account.new "m@f" "p" "manager" (some "F") false "m") sampleFsp d' := by
  have hrun := executes_solo (Directory.performs_respond sampleDirectorySettings)
    (ManagementCommand.updateUser ⟨"u", "m", some "manager", none, none⟩).execute sampleFsp []
  have hok : ((ManagementCommand.updateUser ⟨"u", "m", some "manager", none, none⟩).execute.solo
      (Directory.respond sampleDirectorySettings) sampleFsp []).2.2 = .ok () := by decide +kernel
  rw [hok] at hrun
  have hactor : sampleFsp.users.find? (ManagementCommand.actingUserId
      (.updateUser ⟨"u", "m", some "manager", none, none⟩)) =
      some (Account.new "m@f" "p" "manager" (some "F") false "m") := by decide +kernel
  exact ⟨_, by decide +kernel,
    fsp_manager_confined sampleDirectorySettings hactor (by decide +kernel) hrun⟩

end Auth
