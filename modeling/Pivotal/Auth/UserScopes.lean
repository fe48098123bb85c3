import Pivotal.Async.Alone
import Pivotal.Auth.LastAdmin

/-! The scope of a role and the FSP of its users, over commands that manage users one after
another. What an execution has read is recorded until it changes a user. -/
namespace Auth
open Async (Monitor)
open Async.Program (Leaves Obeys Within executes_solo)
open UserManagementPolicy

/-- A HUB-scoped role goes with no FSP, and a DFSP-scoped one with one. -/
def RoleRow.Fits (role : RoleRow) (fspId : Option String) : Prop :=
  (role.scope = .hub → fspId = none) ∧ (role.scope = .dfsp → fspId ≠ none)

instance (role : RoleRow) (fspId : Option String) : Decidable (role.Fits fspId) :=
  inferInstanceAs (Decidable (_ ∧ _))

/-- The role of every user fits the user's FSP. -/
def Directory.Scoped (d : Directory) : Prop :=
  ∀ u ∈ d.users.rows, ∀ role ∈ d.roles.rows, role.id = u.roleId → role.Fits u.fspId

instance (d : Directory) : Decidable d.Scoped :=
  inferInstanceAs (Decidable (∀ u ∈ d.users.rows, ∀ role ∈ d.roles.rows, _))

/-- The accounts that were found, and the roles with what they were looked up by. -/
structure Scoping where
  accounts : List Account
  roles : List (String × RoleRow)

namespace Scoping

def initial : Scoping := ⟨[], []⟩

def afterFindUser (r : Scoping) : Except DirectoryError (Option Account) → Scoping
  | .ok (some user) => { r with accounts := user :: r.accounts }
  | _ => r

def afterFindRole (r : Scoping) (id : String) : Except DirectoryError (Option RoleRow) → Scoping
  | .ok (some role) => { r with roles := (id, role) :: r.roles }
  | _ => r

def next (r : Scoping) : (op : DirectoryOp) → DirectoryAnswer op → Scoping
  | .findUserById _, a => r.afterFindUser a
  | .findRoleById id, a => r.afterFindRole id a
  | .updateUser _ _, _ => { r with accounts := [] }
  | _, _ => r

/-- The role that the target has after the patch was found, and fits the FSP that it has then. -/
def Pairs (r : Scoping) (target : Account) (patch : UserUpdate) : Prop :=
  ∃ p ∈ r.roles, (patch.roleId = some p.2.id ∨ patch.roleId = none ∧ p.1 = target.roleId) ∧
    p.2.Fits (patch.fspId.getD target.fspId)

def allows (r : Scoping) : DirectoryOp → Prop
  | .insertUser user => ∃ p ∈ r.roles, user.roleId = p.2.id ∧ p.2.Fits user.fspId
  | .updateUser id patch => ∃ target ∈ r.accounts, target.id = id ∧ r.Pairs target patch
  | _ => True

end Scoping

def scoping : Monitor DirectoryOp DirectoryAnswer Scoping := ⟨Scoping.next, Scoping.allows⟩

/-- A call that neither adds a user nor changes one's role or FSP. -/
def DirectoryOp.keepsScopes : DirectoryOp → Bool
  | .insertUser _ => false
  | .updateUser _ _ => false
  | _ => true

theorem DirectoryOp.keepsScopes_of_isRead (op : DirectoryOp) (h : op.isRead = true) :
    op.keepsScopes = true := by
  cases op <;> first | rfl | cases h

namespace Scoping

variable {r r' r'' : Scoping}

/-- What was read stays recorded. -/
structure Grows (r r' : Scoping) : Prop where
  accounts : ∀ u ∈ r.accounts, u ∈ r'.accounts
  roles : ∀ p ∈ r.roles, p ∈ r'.roles

theorem Grows.refl (r : Scoping) : r.Grows r := ⟨fun _ h => h, fun _ h => h⟩

theorem Grows.trans (h : r.Grows r') (h' : r'.Grows r'') : r.Grows r'' where
  accounts u hu := h'.accounts u (h.accounts u hu)
  roles p hp := h'.roles p (h.roles p hp)

theorem grows_next (r : Scoping) {op : DirectoryOp} (hop : op.keepsScopes = true)
    (a : DirectoryAnswer op) : r.Grows (r.next op a) := by
  cases op with
  | findUserById id =>
    rcases a with e | _ | user <;> constructor <;> simp +contextual [next, afterFindUser]
  | findRoleById id =>
    rcases a with e | _ | role <;> constructor <;> simp +contextual [next, afterFindRole]
  | insertUser _ | updateUser _ _ => cases hop
  | _ => exact .refl r

theorem Pairs.mono (hgrows : r.Grows r') {target : Account} {patch : UserUpdate}
    (h : r.Pairs target patch) : r'.Pairs target patch := by
  obtain ⟨p, hp, hrole, hfits⟩ := h
  exact ⟨p, hgrows.roles p hp, hrole, hfits⟩

section Programs

variable {α : Type}

/-- Nothing is said of how a command ends. -/
abbrev Any (_ : Scoping) (_ : Except DirectoryError α) : Prop := True

theorem obeys_keeping {p : DirectoryProgram α} (h : p.Within (·.keepsScopes)) (r : Scoping) :
    p.Obeys scoping r fun r' _ => r.Grows r' := by
  refine Within.keeps (R := r.Grows) h ?_ r (.refl r)
  intro r' op hr hop
  refine ⟨?_, fun a => hr.trans (grows_next r' hop a)⟩
  cases op with
  | insertUser _ | updateUser _ _ => cases hop
  | _ => trivial

/-- A step that keeps the scopes, and what follows it. -/
theorem obeys_keep {β : Type} {p : DirectoryProgram β} {f : β → DirectoryProgram α} {r : Scoping}
    (hp : p.Within (·.keepsScopes)) (hf : ∀ b r', r.Grows r' → (f b).Obeys scoping r' Any) :
    (p >>= f).Obeys scoping r Any :=
  (obeys_keeping hp r).seq hf fun _ _ _ => trivial

theorem obeys_found {β : Type} {p : DirectoryProgram β} {f : β → DirectoryProgram α} {r : Scoping}
    (hp : p.Within (·.isRead)) (hf : ∀ b r', r.Grows r' → (f b).Obeys scoping r' Any) :
    (p >>= f).Obeys scoping r Any :=
  obeys_keep (hp.mono DirectoryOp.keepsScopes_of_isRead) hf

theorem obeys_findUser {id : String} {e : DirectoryError} {f : Account → DirectoryProgram α}
    (hf : ∀ user r', r.Grows r' → user ∈ r'.accounts → (f user).Obeys scoping r' Any) :
    (do
      let some user ← UserRepository.findById id | throw e
      f user : DirectoryProgram α).Obeys scoping r Any := by
  apply Obeys.afterPerform trivial
  intro a
  apply Obeys.afterLift (fun _ => trivial)
  rintro (_ | user) hfound
  · trivial
  · apply hf user _ (grows_next r rfl a)
    simp [next, hfound, afterFindUser]

theorem obeys_findRole {id : String} {e : DirectoryError} {f : RoleRow → DirectoryProgram α}
    (hf : ∀ role r', r.Grows r' → (id, role) ∈ r'.roles → (f role).Obeys scoping r' Any) :
    (do
      let some role ← RoleRepository.findById id | throw e
      f role : DirectoryProgram α).Obeys scoping r Any := by
  apply Obeys.afterPerform trivial
  intro a
  apply Obeys.afterLift (fun _ => trivial)
  rintro (_ | role) hfound
  · trivial
  · apply hf role _ (grows_next r rfl a)
    simp [next, hfound, afterFindRole]

theorem obeys_check {c : Prop} [Decidable c] {e : DirectoryError} {β : Type}
    {f : β → DirectoryProgram α} {p : DirectoryProgram α} (h : ¬ c → p.Obeys scoping r Any) :
    (if c then throw e >>= f else p).Obeys scoping r Any := by
  by_cases hc : c
  · simp only [hc, if_true]
    trivial
  · simp only [hc, if_false]
    exact h hc

theorem obeys_assertScopeFitsFsp {role : RoleRow} {fspId : Option String}
    {f : Unit → DirectoryProgram α} (hf : role.Fits fspId → (f ()).Obeys scoping r Any) :
    (assertScopeFitsFsp role fspId >>= f).Obeys scoping r Any := by
  cases hscope : role.scope with
  | hub =>
    cases fspId with
    | none =>
      have hpasses : assertScopeFitsFsp role none = pure () := by simp [assertScopeFitsFsp, hscope]
      rw [hpasses]
      exact hf ⟨fun _ => rfl, fun h => by simp [hscope] at h⟩
    | some fsp =>
      have hfails : assertScopeFitsFsp role (some fsp) =
          throw (adminError .badRequest .userAdminForbidsFspId) := by
        simp [assertScopeFitsFsp, hscope]
        rfl
      rw [hfails]
      trivial
  | dfsp =>
    cases fspId with
    | none =>
      have hfails : assertScopeFitsFsp role none =
          throw (adminError .badRequest .userDfspRequiresFspId) := by
        simp [assertScopeFitsFsp, hscope]
      rw [hfails]
      trivial
    | some fsp =>
      have hpasses : assertScopeFitsFsp role (some fsp) = pure () := by
        simp [assertScopeFitsFsp, hscope]
      rw [hpasses]
      exact hf ⟨fun h => by simp [hscope] at h, fun _ => by simp⟩

theorem obeys_written {op : DirectoryOp} {g : DirectoryAnswer op → Except DirectoryError Unit}
    {f : Unit → DirectoryProgram α} (h : r.allows op) (hf : ∀ u, (f u).Within (·.keepsScopes)) :
    (Async.Program.perform op >>= fun a => Async.Program.lift (g a) >>= f :
      DirectoryProgram α).Obeys scoping r Any := by
  apply Obeys.afterPerform h
  intro a
  apply Obeys.afterLift (fun _ => trivial)
  intro u _
  exact Obeys.mono (obeys_keeping (hf u) _) fun _ _ _ => trivial

theorem obeys_createUser (input : CreateUserCommand.Input) :
    (CreateUserHandler.execute input).Obeys scoping initial Any := by
  apply obeys_found (resolveManagementContext_within _)
  intro context r₁ _
  apply obeys_findRole
  intro role r₂ _ hrole
  apply obeys_keep (assertCanAssignRole_within context role)
  intro _ r₃ h₃
  apply obeys_assertScopeFitsFsp
  intro hfits
  apply obeys_found (answer_within rfl)
  intro existing r₄ h₄
  apply obeys_check
  intro _
  apply obeys_found (Async.Program.within_perform.mpr rfl)
  intro tempPassword r₅ h₅
  apply obeys_found (answer_within rfl)
  intro passwordHash r₆ h₆
  have hfound := h₆.roles _ (h₅.roles _ (h₄.roles _ (h₃.roles _ hrole)))
  refine Obeys.seq (R := fun _ => True) ?_ (fun _ _ _ => trivial) fun _ _ _ => trivial
  -- The identifier is assigned, and the row is inserted under it.
  refine ⟨trivial, fun id => ⟨⟨_, hfound, rfl, hfits⟩, fun a => ?_⟩⟩
  cases a <;> trivial

theorem withdraw_keeps (target : Account) (deactivation : Bool) : (do
    UserRepository.invalidateTokens target.id
    if deactivation then
      RefreshTokenRepository.revokeAllForUser target.id
    UserRepository.findById target.id : DirectoryProgram (Option Account)).Within
      (·.keepsScopes) := by
  refine Within.bind (stamped_within rfl fun _ => rfl) ?_
  intro _
  refine Within.when (stamped_within rfl fun _ => rfl) ?_
  intro _
  exact answer_within rfl

theorem obeys_applyPatch {target : Account} {patch : UserUpdate} (htarget : target ∈ r.accounts)
    (h : r.Pairs target patch) (deactivation : Bool) :
    (UpdateUserHandler.applyPatch target patch deactivation).Obeys scoping r Any := by
  unfold UpdateUserHandler.applyPatch
  by_cases hempty : patch.isEmpty
  · simp only [hempty, Bool.not_true, Bool.false_eq_true, if_false]
    exact Obeys.mono (obeys_keeping (withdraw_keeps target deactivation) r) fun _ _ _ => trivial
  · simp only [hempty, Bool.not_false, if_true]
    exact obeys_written ⟨target, htarget, rfl, h⟩ fun _ => withdraw_keeps target deactivation

/-- The FSP after the patch is the one that was checked. -/
theorem patchFor_fspId (target : Account) (newRole : RoleRow) (roleChange : Bool)
    (fspId : Option String) (isActive : Option Bool) :
    (UpdateUserHandler.patchFor target newRole roleChange fspId isActive).fspId.getD target.fspId =
      fspId := by
  by_cases hsame : fspId = target.fspId
  · simp [UpdateUserHandler.patchFor, hsame]
  · simp [UpdateUserHandler.patchFor, hsame]

/-- What is written pairs the new role with an FSP that fits it. -/
theorem obeys_change {input : UpdateUserCommand.Input} (context : UserManagementContext)
    {target : Account} {newRole : RoleRow} {roleChange : Bool} (deactivation : Bool)
    (htarget : target ∈ r.accounts) {id : String} (hrole : (id, newRole) ∈ r.roles)
    (hid : roleChange = false → id = target.roleId) :
    (UpdateUserHandler.change input context target newRole roleChange deactivation).Obeys scoping r
      Any := by
  apply obeys_keep (assertCanAssignRole_within context newRole)
  intro _ r₁ h₁
  apply obeys_assertScopeFitsFsp
  intro hfits
  have hwrite : ∀ fspId, newRole.Fits fspId → ∀ r₂, r₁.Grows r₂ → (do
      assertNotLastDfspManager target target.roleId newRole.id fspId deactivation
      let updated ← UpdateUserHandler.applyPatch target
        (UpdateUserHandler.patchFor target newRole roleChange fspId input.isActive) deactivation
      return { user := updated, role := newRole } :
      DirectoryProgram UpdateUserCommand.Output).Obeys scoping r₂ Any := by
    intro fspId hfits r₂ h₂
    apply obeys_found (assertNotLastDfspManager_within _ _ _ _ _)
    intro _ r₃ h₃
    have hpairs : r₃.Pairs target
        (UpdateUserHandler.patchFor target newRole roleChange fspId input.isActive) := by
      refine ⟨(id, newRole), h₃.roles _ (h₂.roles _ (h₁.roles _ hrole)), ?_, ?_⟩
      · cases roleChange with
        | true => exact .inl rfl
        | false => exact .inr ⟨rfl, hid rfl⟩
      · rw [patchFor_fspId]
        exact hfits
    have htarget₃ := h₃.accounts _ (h₂.accounts _ (h₁.accounts _ htarget))
    refine Obeys.seq (R := fun _ => True) ?_ (fun _ _ _ => trivial) fun _ _ _ => trivial
    exact Obeys.mono (obeys_applyPatch htarget₃ hpairs deactivation) fun _ _ _ => trivial
  by_cases hcheck : (deactivation || roleChange) = true
  · simp only [hcheck, if_true]
    apply obeys_keep (assertNotLastAdmin_within _ _ _ _ (fun _ => rfl) fun _ _ => rfl)
    intro _ r₂ h₂
    exact hwrite _ hfits r₂ h₂
  · simp only [hcheck, Bool.false_eq_true, if_false]
    exact hwrite _ hfits r₁ (.refl r₁)

theorem obeys_updateUser (input : UpdateUserCommand.Input) :
    (UpdateUserHandler.execute input).Obeys scoping initial Any := by
  apply obeys_found (resolveManagementContext_within _)
  intro context r₁ _
  apply obeys_findUser
  intro target r₂ _ htarget
  apply obeys_findRole
  intro targetRole r₃ h₃ _
  apply obeys_keep (assertCanManageTargetRole_within context target targetRole)
  intro _ r₄ h₄
  apply obeys_check
  intro _
  apply obeys_findRole
  intro newRole r₅ h₅ hrole
  apply obeys_change context _ (h₅.accounts _ (h₄.accounts _ (h₃.accounts _ htarget))) hrole
  intro hstays
  simp only [hstays, Bool.false_eq_true, if_false]

theorem deactivateUser_keeps (input : DeactivateUserCommand.Input) :
    (DeactivateUserHandler.execute input).Within (·.keepsScopes) := by
  have hread : ∀ {α : Type} {p : DirectoryProgram α}, p.Within (·.isRead) →
      p.Within (·.keepsScopes) := fun hp => hp.mono DirectoryOp.keepsScopes_of_isRead
  refine Within.bind (hread (resolveManagementContext_within _)) ?_
  intro context
  apply Within.unless
  refine Within.bind (answer_within rfl) ?_
  rintro (_ | target)
  · trivial
  refine Within.bind (answer_within rfl) ?_
  intro found
  refine Within.bind (nonNull_within found) ?_
  intro role
  refine Within.bind (assertCanManageTargetRole_within context target role) ?_
  intro _
  split
  · trivial
  refine Within.bind (answer_within rfl) ?_
  intro grants
  refine Within.when (assertOtherAdmin_within target.id fun _ _ => rfl) ?_
  intro _
  refine Within.bind (hread (assertNotLastDfspManager_within _ _ _ _ _)) ?_
  intro _
  refine Within.bind (p := DeactivateUserHandler.switchOff target) ?_ fun _ => trivial
  refine Within.bind (answer_within rfl) ?_
  intro _
  refine Within.bind (stamped_within rfl fun _ => rfl) ?_
  intro _
  refine Within.bind (stamped_within rfl fun _ => rfl) ?_
  intro _
  exact answer_within rfl

end Programs

/-- What was read of the users and the roles is so, and roles fit. -/
structure Holds (r : Scoping) (d : Directory) : Prop where
  fits : d.Scoped
  accounts : ∀ u ∈ r.accounts, ∃ v ∈ d.users.rows, v.id = u.id ∧ v.roleId = u.roleId ∧
    v.fspId = u.fspId
  roles : ∀ p ∈ r.roles, p.2 ∈ d.roles.rows ∧ p.2.id = p.1

variable {d d' : Directory}

theorem Holds.congr (h : r.Holds d) (husers : d'.users = d.users) (hroles : d'.roles = d.roles) :
    r.Holds d' := by
  refine ⟨?_, ?_, ?_⟩
  · unfold Directory.Scoped
    rw [husers, hroles]
    exact h.fits
  · rw [husers]
    exact h.accounts
  · rw [hroles]
    exact h.roles

/-- A write of other columns than the role and the FSP. -/
theorem Holds.columns (h : r.Holds d) {p : Account → Bool} {f : Account → Account}
    {hid : ∀ u, (f u).id = u.id} (hf : ∀ u, (f u).roleId = u.roleId ∧ (f u).fspId = u.fspId) :
    r.Holds (d.updateUsers p f hid) := by
  have hrow : ∀ u, (if p u then f u else u).id = u.id ∧
      (if p u then f u else u).roleId = u.roleId ∧ (if p u then f u else u).fspId = u.fspId := by
    intro u
    split
    · exact ⟨hid u, hf u⟩
    · exact ⟨rfl, rfl, rfl⟩
  refine ⟨?_, ?_, h.roles⟩
  · intro u hu role hrole hrid
    obtain ⟨v, hv, rfl⟩ := d.mem_updateUsers.mp hu
    rw [(hrow v).2.1] at hrid
    rw [(hrow v).2.2]
    exact h.fits v hv role hrole hrid
  · intro u hu
    obtain ⟨v, hv, hvid, hvrole, hvfsp⟩ := h.accounts u hu
    exact ⟨_, d.mem_updateUsers.mpr ⟨v, hv, rfl⟩, (hrow v).1.trans hvid,
      (hrow v).2.1.trans hvrole, (hrow v).2.2.trans hvfsp⟩

theorem Holds.applies {ε : Type} (a : Async.Written ε Unit) (h : r.Holds d) (h' : r.Holds d') :
    r.Holds (a.applies d d') := by
  rcases a.applies_cases d d' with ha | ⟨-, ha⟩
  · rwa [ha]
  · rwa [ha]

theorem mem_insertUser {user u : Account} {collate : String → String}
    {h : d.AdmitsUser collate user} :
    u ∈ (d.insertUser collate user h).users.rows ↔ u ∈ d.users.rows ∨ u = user :=
  Store.Table.mem_insert (h := fun v hv => (h v hv).1)

theorem Holds.insertUser (h : r.Holds d) {user : Account} {collate : String → String}
    (hadmits : d.AdmitsUser collate user) (hallows : r.allows (.insertUser user)) :
    r.Holds (d.insertUser collate user hadmits) := by
  obtain ⟨p, hp, hrole, hfits⟩ := hallows
  refine ⟨?_, ?_, h.roles⟩
  · intro u hu role hrow hid
    rcases mem_insertUser.mp hu with hold | rfl
    · exact h.fits u hold role hrow hid
    · obtain rfl : role = p.2 := d.roles.eq_of_key hrow (h.roles p hp).1 (hid.trans hrole)
      exact hfits
  · intro u hu
    obtain ⟨v, hv, hsame⟩ := h.accounts u hu
    exact ⟨v, mem_insertUser.mpr (.inl hv), hsame⟩

theorem Holds.updateUser (h : r.Holds d) {id : String} {patch : UserUpdate}
    (hallows : r.allows (.updateUser id patch)) : (d.updateUser id patch).Scoped := by
  obtain ⟨target, htarget, rfl, p, hp, hrole, hfits⟩ := hallows
  obtain ⟨v, hv, hvid, hvrole, hvfsp⟩ := h.accounts target htarget
  obtain ⟨hrow, hkey⟩ := h.roles p hp
  intro u hu role hin hid
  obtain ⟨w, hw, rfl⟩ := d.mem_updateUsers.mp hu
  by_cases hwid : w.id = target.id
  · obtain rfl : w = v := d.users.eq_of_key hw hv (hwid.trans hvid.symm)
    simp only [hwid, decide_true, if_true, UserUpdate.apply, hvrole, hvfsp] at hid ⊢
    have hnew : patch.roleId.getD target.roleId = p.2.id := by
      rcases hrole with hsome | ⟨hnone, hlooked⟩
      · simp [hsome]
      · simp [hnone, hkey, hlooked]
    obtain rfl : role = p.2 := d.roles.eq_of_key hin hrow (hid.trans hnew)
    exact hfits
  · simp only [hwid, decide_false, Bool.false_eq_true, if_false] at hid ⊢
    exact h.fits w hw role hin hid

variable {settings : DirectorySettings} {op : DirectoryOp} {a : DirectoryAnswer op}

theorem holds_next (h : r.Holds d) (hallows : r.allows op) (hp : d.performs settings op a d') :
    (r.next op a).Holds d' := by
  cases op with
  | auth op =>
    obtain ⟨husers, hroles, -, -⟩ := tables_of_performsAuth hp
    exact h.congr husers hroles
  | findUserById id =>
    obtain ⟨rfl, hfound⟩ := hp
    rcases a with e | _ | user
    · exact h
    · exact h
    · refine ⟨h.fits, ?_, h.roles⟩
      intro u hu
      rcases List.mem_cons.mp hu with rfl | hu
      · exact ⟨u, (Store.Table.find?_eq_some_iff.mp (hfound _ rfl).symm).1, rfl, rfl, rfl⟩
      · exact h.accounts u hu
  | findRoleById id =>
    obtain ⟨rfl, hfound⟩ := hp
    rcases a with e | _ | role
    · exact h
    · exact h
    · refine ⟨h.fits, h.accounts, ?_⟩
      intro p hmem
      rcases List.mem_cons.mp hmem with rfl | hmem
      · exact Store.Table.find?_eq_some_iff.mp (hfound _ rfl).symm
      · exact h.roles p hmem
  | findUserByEmail _ | findRoleByCode _ | findPermissionKeysByRoleId _
    | findPermissionsByKeyNames _ | countActiveUsersGrantingPermission _ _
    | countActiveUsersByRoleIdForFsp _ _ _ | verifyPassword _ _ =>
    rw [hp.1]
    exact h
  | generateTempPassword | hashPassword _ =>
    rw [show d' = d from hp]
    exact h
  | insertUser user =>
    rcases hp with ⟨hadmits, rfl⟩ | ⟨-, -, rfl⟩
    · exact h.applies a (h.insertUser hadmits hallows)
    · exact h
  | updateUser id patch =>
    rw [show d' = _ from hp]
    refine ⟨?_, ?_, ?_⟩
    · rcases a.applies_cases d (d.updateUser id patch) with ha | ⟨-, ha⟩
      · rw [ha]
        exact h.updateUser hallows
      · rw [ha]
        exact h.fits
    · rintro u ⟨⟩
    · cases a <;> exact h.roles
  | replaceForRole _ _ | revokeAllForUser _ _ =>
    rw [show d' = _ from hp]
    exact h.applies a (h.congr rfl rfl)
  | deactivate _ | updatePasswordHash _ _ _ | recordSuccessfulLogin _ _ | incrementFailedAttempts _
    | lockUntil _ _ | invalidateTokens _ _ | invalidateTokensForRole _ _ =>
    rw [show d' = _ from hp]
    exact h.applies a (h.columns fun u => ⟨rfl, rfl⟩)

end Scoping

/-- The commands that give a user a role and an FSP, or take the user away. -/
inductive UserCommand where
  | createUser (input : CreateUserCommand.Input)
  | updateUser (input : UpdateUserCommand.Input)
  | deactivateUser (input : DeactivateUserCommand.Input)

def UserCommand.execute : UserCommand → DirectoryProgram Unit
  | .createUser input => do let _ ← CreateUserHandler.execute input
  | .updateUser input => do let _ ← UpdateUserHandler.execute input
  | .deactivateUser input => do let _ ← DeactivateUserHandler.execute input

theorem Scoping.obeys_command (command : UserCommand) :
    command.execute.Obeys scoping Scoping.initial Scoping.Any := by
  have hentry : ∀ {α : Type} {p : DirectoryProgram α},
      p.Obeys scoping Scoping.initial Scoping.Any →
      (p >>= fun _ => pure () : DirectoryProgram Unit).Obeys scoping Scoping.initial
        Scoping.Any := by
    intro α p hp
    refine Obeys.seq (R := fun _ => True) ?_ (fun _ _ _ => trivial) fun _ _ _ => trivial
    exact Obeys.mono hp fun _ _ _ => trivial
  cases command with
  | createUser input => exact hentry (Scoping.obeys_createUser input)
  | updateUser input => exact hentry (Scoping.obeys_updateUser input)
  | deactivateUser input =>
    apply hentry
    exact Obeys.mono (Scoping.obeys_keeping (Scoping.deactivateUser_keeps input) _)
      fun _ _ _ => trivial

/-- Commands one after another: each has ended, or was given up on its way. -/
inductive Managed (settings : DirectorySettings) : Directory → List UserCommand → Directory → Prop
  | nil (d : Directory) : Managed settings d [] d
  | cons {d d' d'' : Directory} {command : UserCommand} {commands : List UserCommand} :
      command.execute.Leaves (Directory.performs settings) d d' → Managed settings d' commands d'' →
      Managed settings d (command :: commands) d''

variable {settings : DirectorySettings} {d d' : Directory}

/-- One command keeps the pairing of roles and FSPs. -/
theorem scoped_of_leaves {command : UserCommand} (hd : d.Scoped)
    (h : command.execute.Leaves (Directory.performs settings) d d') : d'.Scoped := by
  have hinitial : Scoping.initial.Holds d := by
    refine ⟨hd, ?_, ?_⟩
    · rintro u ⟨⟩
    · rintro p ⟨⟩
  obtain ⟨r, hr⟩ := h.invariant (I := Scoping.Holds) (Scoping.obeys_command command) hinitial
    fun r s op a s' hI hallows hp => Scoping.holds_next hI hallows hp
  exact hr.fits

/-- Any sequence of commands keeps it. -/
theorem user_scopes_kept {commands : List UserCommand} (hd : d.Scoped)
    (h : Managed settings d commands d') : d'.Scoped := by
  induction h with
  | nil d => exact hd
  | cons hleaves _ ih => exact ih (scoped_of_leaves hd hleaves)

/-! The administrator of a directory whose calls all succeed. -/

open Directory (sampleDirectorySettings performs_respond)

def sampleScopes : Directory where
  users := sampleKeepers.users
  roles := ⟨[⟨⟨"keeper", "KEEPER"⟩, "Keeper", none, .hub, false⟩,
    ⟨⟨"clerk", "CLERK"⟩, "Clerk", none, .dfsp, false⟩], by decide⟩
  permissions := sampleKeepers.permissions
  rolePermissions := sampleKeepers.rolePermissions
  refreshTokens := .empty
  accessTokens := []
  issued := ["a", "b"]
  latest := 0

/-- The directory after a command. -/
def Directory.run (d : Directory) (command : UserCommand) : Directory :=
  (command.execute.solo (Directory.respond sampleDirectorySettings) d []).1

theorem managed_run (d : Directory) (commands : List UserCommand) :
    Managed sampleDirectorySettings d commands (commands.foldl Directory.run d) := by
  induction commands generalizing d with
  | nil => exact .nil d
  | cons command commands ih =>
    exact .cons (executes_solo (performs_respond sampleDirectorySettings) _ d []).leaves (ih _)

/-- A clerk of an FSP is created, and then becomes a keeper of none. -/
def sampleCommands : List UserCommand :=
  [.createUser ⟨"a", "u@f", "clerk", some " F "⟩,
    .updateUser ⟨"bb", "a", some "keeper", some none, none⟩, .deactivateUser ⟨"bb", "a"⟩]

theorem user_scopes_kept_sample :
    ((sampleCommands.foldl Directory.run sampleScopes).users.find? "bb").map
      (fun u => (u.roleId, u.fspId, u.isActive)) = some ("keeper", none, false) ∧
    (sampleCommands.foldl Directory.run sampleScopes).Scoped :=
  ⟨by decide +kernel,
    user_scopes_kept (by decide +kernel) (managed_run sampleScopes sampleCommands)⟩

end Auth
