import Pivotal.Auth.Calls

/-! Access tokens beside a change of what they carry. A command dates the tokens it withdraws by
the clock, after its change; a token is signed from what was read before, at a time that was read
before. The two are compared in whole seconds. -/
namespace Auth
open Async (Config Event Label Monitor Process System Written)
open Async.Program (Keeps Obeys Within lift perform)

/-- The requests that sign access tokens, and those that change a role or its permissions. -/
inductive PermissionJob where
  | login (input : LoginCommand.Input)
  | refreshTokens (input : RefreshTokensCommand.Input)
  | updateUser (input : UpdateUserCommand.Input)
  | replaceRolePermissions (input : ReplaceRolePermissionsCommand.Input)
  deriving DecidableEq

namespace PermissionJob

def execute (settings : DirectorySettings) : PermissionJob → DirectoryProgram Unit
  | .login input => do let _ ← LoginHandler.execute settings input
  | .refreshTokens input => do
    let _ ← ofAuth (RefreshTokensHandler.execute settings.toAuthSettings input)
  | .updateUser input => do let _ ← UpdateUserHandler.execute input
  | .replaceRolePermissions input => do let _ ← ReplaceRolePermissionsHandler.execute input

def isCommand : PermissionJob → Bool
  | .updateUser _ => true
  | .replaceRolePermissions _ => true
  | _ => false

/-- Whose role, or the permissions of whose role, the command is given. -/
def Changes : PermissionJob → Account → Prop
  | .updateUser input, u => u.id = input.targetUserId
  | .replaceRolePermissions input, u => u.roleId = input.roleId
  | _, _ => False

end PermissionJob

/-- Any number of them, over one directory. -/
def issuing (settings : DirectorySettings) :
    System DirectoryOp DirectoryAnswer DirectoryError Unit PermissionJob Directory where
  entry job := job.execute settings
  perform := Directory.performs settings
  background _ _ := False

/-- What a request has read to make a token of: the user and the user's role identifier, the role
with the identifier that was asked for, and the keys with that of their role. -/
structure Basis where
  user : Option (String × String)
  role : Option (String × Role)
  keys : Option (String × List String)

namespace Basis

def empty : Basis := ⟨none, none, none⟩

/-- The token carries the role and the permissions that were read for its user. -/
def Carries (b : Basis) (claims : AccessTokenClaims) : Prop :=
  ∃ roleId id, b.user = some (claims.sub, roleId) ∧ b.role = some (roleId, ⟨id, claims.role⟩) ∧
    b.keys = some (id, claims.permissions)

end Basis

/-- The last time a request has read, the first one, the rows it knows, whether it has withdrawn
the tokens, and what it has read for a token. -/
structure Dating where
  job : PermissionJob
  clock : Option Js.Date
  dated : Option Js.Date
  known : List (String × String)
  withdrawn : Bool
  basis : Basis

namespace Dating

def initial (job : PermissionJob) : Dating := ⟨job, none, none, [], false, .empty⟩

def afterNow (r : Dating) (now : Js.Date) : Dating :=
  { r with clock := some now, dated := r.dated <|> some now }

/-- The row that `id` was answered with. -/
def afterFind (r : Dating) (id : String) : Option String → Dating
  | some answered => { r with known := (id, answered) :: r.known }
  | none => r

def afterUser (r : Dating) : Option User → Dating
  | some user => { r with basis := { r.basis with user := some (user.id, user.roleId) } }
  | none => r

def afterRole (r : Dating) (id : String) : Option Role → Dating
  | some role => { r with basis := { r.basis with role := some (id, role) } }
  | none => r

def afterKeys (r : Dating) (id : String) : Option (List String) → Dating
  | some keys => { r with basis := { r.basis with keys := some (id, keys) } }
  | none => r

def afterInvalidate (r : Dating) : Written DirectoryError Unit → Dating
  | .done _ => { r with withdrawn := true }
  | _ => r

def next (r : Dating) : (op : DirectoryOp) → DirectoryAnswer op → Dating
  | .auth .now, a => r.afterNow a
  | .auth (.findUser _), a => r.afterUser a.toOption.join
  | .auth (.findRole id), a => r.afterRole id a.toOption.join
  | .auth (.findPermissionKeys id), a => r.afterKeys id a.toOption
  | .findUserById id, a => r.afterFind id (a.toOption.bind fun user => user.map fun u => u.id)
  | .findUserByEmail _, a =>
    r.afterUser (a.toOption.bind fun user => user.map fun u => u.toUser)
  | .findRoleById id, a =>
    (r.afterFind id (a.toOption.bind fun role => role.map fun r => r.id)).afterRole id
      (a.toOption.bind fun role => role.map fun r => r.toRole)
  | .findPermissionKeysByRoleId id, a => r.afterKeys id a.toOption
  | .invalidateTokens _ _, a => r.afterInvalidate a
  | .invalidateTokensForRole _ _, a => r.afterInvalidate a
  | _, _ => r

/-- A token is issued at the time that was read last, and carries what was read. A command makes
its change before it reads the time that it dates the tokens by. -/
def allows (r : Dating) : DirectoryOp → Prop
  | .auth (.sign claims) =>
    (∃ now, r.clock = some now ∧ claims.iat = now / 1000) ∧ r.basis.Carries claims
  | .updateUser _ _ => r.job.isCommand = true ∧ r.dated = none
  | .replaceForRole _ _ => r.job.isCommand = true ∧ r.dated = none
  | .invalidateTokens id d => r.dated = some d ∧ ∃ input, r.job = .updateUser input ∧
    (input.targetUserId, id) ∈ r.known
  | .invalidateTokensForRole roleId d => r.dated = some d ∧
    ∃ input, r.job = .replaceRolePermissions input ∧ (input.roleId, roleId) ∈ r.known
  | .insertUser _ => False
  | .deactivate _ => False
  | _ => True

/-- A command that succeeded has withdrawn the tokens. -/
def Succeeded (job : PermissionJob) (r : Dating) (result : Except DirectoryError Unit) : Prop :=
  r.job = job ∧ (result = .ok () → job.isCommand = true → r.withdrawn = true)

end Dating

def dating : Monitor DirectoryOp DirectoryAnswer Dating := ⟨Dating.next, Dating.allows⟩

/-- A call that is no change of users or roles, and signs nothing. -/
def DirectoryOp.isHarmless : DirectoryOp → Bool
  | .auth (.sign _) => false
  | .updateUser _ _ => false
  | .replaceForRole _ _ => false
  | .invalidateTokens _ _ => false
  | .invalidateTokensForRole _ _ => false
  | .insertUser _ => false
  | .deactivate _ => false
  | _ => true

/-- One that does not read the clock either. -/
def DirectoryOp.isTimeless : DirectoryOp → Bool
  | .auth .now => false
  | op => op.isHarmless

/-- A harmless call that reads nothing for a token. -/
def DirectoryOp.isOblivious : DirectoryOp → Bool
  | .auth (.findUser _) => false
  | .auth (.findRole _) => false
  | .auth (.findPermissionKeys _) => false
  | .findUserByEmail _ => false
  | .findRoleById _ => false
  | .findPermissionKeysByRoleId _ => false
  | op => op.isHarmless

theorem DirectoryOp.isHarmless_of_isOblivious {op : DirectoryOp} (h : op.isOblivious = true) :
    op.isHarmless = true := by
  cases op with
  | auth op =>
    cases op with
    | sign _ => cases h
    | _ => rfl
  | updateUser _ _ | replaceForRole _ _ | invalidateTokens _ _ | invalidateTokensForRole _ _
    | insertUser _ | deactivate _ => cases h
  | _ => rfl

namespace Dating

variable {r r' r'' : Dating}

@[simp] theorem afterFind_job (r : Dating) (id : String) (found : Option String) :
    (r.afterFind id found).job = r.job := by
  cases found <;> rfl

@[simp] theorem afterUser_job (r : Dating) (found : Option User) :
    (r.afterUser found).job = r.job := by
  cases found <;> rfl

@[simp] theorem afterRole_job (r : Dating) (id : String) (found : Option Role) :
    (r.afterRole id found).job = r.job := by
  cases found <;> rfl

@[simp] theorem afterKeys_job (r : Dating) (id : String) (found : Option (List String)) :
    (r.afterKeys id found).job = r.job := by
  cases found <;> rfl

@[simp] theorem afterFind_basis (r : Dating) (id : String) (found : Option String) :
    (r.afterFind id found).basis = r.basis := by
  cases found <;> rfl

@[simp] theorem afterInvalidate_job (r : Dating) (a : Written DirectoryError Unit) :
    (r.afterInvalidate a).job = r.job := by
  cases a <;> rfl

@[simp] theorem next_job (r : Dating) (op : DirectoryOp) (a : DirectoryAnswer op) :
    (r.next op a).job = r.job := by
  cases op with
  | auth op => cases op <;> simp [next, afterNow]
  | _ => simp [next]

theorem allows_of_isHarmless (r : Dating) {op : DirectoryOp} (hop : op.isHarmless = true) :
    r.allows op := by
  cases op with
  | auth op =>
    cases op with
    | sign _ => cases hop
    | _ => trivial
  | updateUser _ _ | replaceForRole _ _ | invalidateTokens _ _ | invalidateTokensForRole _ _
    | insertUser _ | deactivate _ => cases hop
  | _ => trivial

/-- What a call of `isTimeless` leaves, and what it adds to. -/
structure Learns (r r' : Dating) : Prop where
  job : r'.job = r.job
  dated : r'.dated = r.dated
  withdrawn : r'.withdrawn = r.withdrawn
  known : ∀ p ∈ r.known, p ∈ r'.known

theorem Learns.refl (r : Dating) : r.Learns r := ⟨rfl, rfl, rfl, fun _ h => h⟩

theorem Learns.trans (h : r.Learns r') (h' : r'.Learns r'') : r.Learns r'' where
  job := h'.job.trans h.job
  dated := h'.dated.trans h.dated
  withdrawn := h'.withdrawn.trans h.withdrawn
  known p hp := h'.known p (h.known p hp)

theorem learns_afterFind (r : Dating) (id : String) (found : Option String) :
    r.Learns (r.afterFind id found) := by
  cases found with
  | none => exact .refl r
  | some answered => exact ⟨rfl, rfl, rfl, fun p hp => List.mem_cons_of_mem _ hp⟩

theorem learns_afterUser (r : Dating) (found : Option User) : r.Learns (r.afterUser found) := by
  cases found with
  | none => exact .refl r
  | some user => exact ⟨rfl, rfl, rfl, fun _ h => h⟩

theorem learns_afterRole (r : Dating) (id : String) (found : Option Role) :
    r.Learns (r.afterRole id found) := by
  cases found with
  | none => exact .refl r
  | some role => exact ⟨rfl, rfl, rfl, fun _ h => h⟩

theorem learns_afterKeys (r : Dating) (id : String) (found : Option (List String)) :
    r.Learns (r.afterKeys id found) := by
  cases found with
  | none => exact .refl r
  | some keys => exact ⟨rfl, rfl, rfl, fun _ h => h⟩

theorem learns_next (r : Dating) {op : DirectoryOp} (hop : op.isTimeless = true)
    (a : DirectoryAnswer op) : r.Learns (r.next op a) := by
  cases op with
  | auth op =>
    cases op with
    | now => cases hop
    | findUser _ => exact learns_afterUser r _
    | findRole id => exact learns_afterRole r id _
    | findPermissionKeys id => exact learns_afterKeys r id _
    | _ => exact .refl r
  | findUserById id => exact learns_afterFind r id _
  | findUserByEmail _ => exact learns_afterUser r _
  | findRoleById id => exact (learns_afterFind r id _).trans (learns_afterRole _ id _)
  | findPermissionKeysByRoleId id => exact learns_afterKeys r id _
  | invalidateTokens _ _ => cases hop
  | invalidateTokensForRole _ _ => cases hop
  | _ => exact .refl r

theorem isHarmless_of_isTimeless (op : DirectoryOp) (h : op.isTimeless = true) :
    op.isHarmless = true := by
  cases op with
  | auth op =>
    cases op with
    | sign _ => cases h
    | _ => rfl
  | _ => exact h

theorem isTimeless_of_isHarmless {op : DirectoryOp} (h : op.isHarmless = true)
    (hnow : op ≠ .auth .now) : op.isTimeless = true := by
  cases op with
  | auth op =>
    cases op with
    | now => exact absurd rfl hnow
    | _ => exact h
  | _ => exact h

theorem isTimeless_of_isRead (op : DirectoryOp) (h : op.isRead = true) :
    op.isTimeless = true := by
  cases op with
  | auth op => cases op <;> first | rfl | cases h
  | _ => first | rfl | cases h

section Programs

variable {α β : Type} {job : PermissionJob}

theorem obeys_timeless {p : DirectoryProgram α} (h : p.Within (·.isTimeless)) (r : Dating) :
    p.Obeys dating r fun r' _ => r.Learns r' := by
  refine Within.keeps (R := r.Learns) h ?_ r (.refl r)
  intro r' op hr hop
  exact ⟨allows_of_isHarmless r' (isHarmless_of_isTimeless op hop),
    fun a => hr.trans (learns_next r' hop a)⟩

theorem keepsAuth_harmless {p : AuthProgram α}
    (h : p.Within fun op => (DirectoryOp.auth op).isHarmless) :
    p.Keeps (authPart dating) fun r => r.job = job := by
  apply h.keeps
  intro r op hr hop
  exact ⟨allows_of_isHarmless r hop, fun a => (r.next_job (.auth op) a).trans hr⟩

theorem keeps_ofAuth {p : AuthProgram α} {R : Dating → Prop} (h : p.Keeps (authPart dating) R) :
    (ofAuth p).Keeps dating R := fun r hr => obeys_ofAuth (h r hr)

/-- A request, and what it has read for a token. -/
def At (job : PermissionJob) (b : Basis) (r : Dating) : Prop := r.job = job ∧ r.basis = b

theorem next_basis (r : Dating) {op : DirectoryOp} (hop : op.isOblivious = true)
    (a : DirectoryAnswer op) : (r.next op a).basis = r.basis := by
  cases op with
  | auth op =>
    cases op with
    | findUser _ | findRole _ | findPermissionKeys _ => cases hop
    | _ => rfl
  | findUserById id => exact afterFind_basis r id _
  | findUserByEmail _ | findRoleById _ | findPermissionKeysByRoleId _ => cases hop
  | invalidateTokens _ _ | invalidateTokensForRole _ _ => cases hop
  | _ => rfl

theorem At.next {b : Basis} {r : Dating} (h : At job b r) {op : DirectoryOp}
    (hop : op.isOblivious = true) (a : DirectoryAnswer op) : At job b (r.next op a) :=
  ⟨(r.next_job op a).trans h.1, (next_basis r hop a).trans h.2⟩

theorem keepsAuth_at {b : Basis} {p : AuthProgram α}
    (h : p.Within fun op => (DirectoryOp.auth op).isOblivious) :
    p.Keeps (authPart dating) (At job b) := by
  apply h.keeps
  intro r op hr hop
  exact ⟨allows_of_isHarmless r (DirectoryOp.isHarmless_of_isOblivious hop),
    fun a => At.next hr (show (DirectoryOp.auth op).isOblivious = true from hop) a⟩

/-- A step that reads nothing for a token, and what follows it. -/
theorem obeys_at {b : Basis} {r : Dating} {p : DirectoryProgram β}
    {f : β → DirectoryProgram α} (h : At job b r) (hp : p.Within (·.isOblivious))
    (hf : ∀ x r', At job b r' → (f x).Obeys dating r' fun r'' _ => r''.job = job) :
    (p >>= f).Obeys dating r fun r' _ => r'.job = job := by
  have hkeeps : p.Keeps dating (At job b) := by
    apply hp.keeps
    intro r op hr hop
    exact ⟨allows_of_isHarmless r (DirectoryOp.isHarmless_of_isOblivious hop),
      fun a => hr.next hop a⟩
  exact (hkeeps r h).seq hf fun _ _ h' => h'.1

theorem obeysAuth_at {b : Basis} {r : Dating} {p : AuthProgram β} {f : β → AuthProgram α}
    (h : At job b r) (hp : p.Within fun op => (DirectoryOp.auth op).isOblivious)
    (hf : ∀ x r', At job b r' → (f x).Obeys (authPart dating) r' fun r'' _ => r''.job = job) :
    (p >>= f).Obeys (authPart dating) r fun r' _ => r'.job = job :=
  (keepsAuth_at hp r h).seq hf fun _ _ h' => h'.1

/-- What is read of a user, the user's role and the keys of that role. -/
def basisOf (user : User) (role : Option Role) (permissions : Option (List String)) : Basis :=
  ⟨some (user.id, user.roleId), role.map fun role => (user.roleId, role),
    role.bind fun role => permissions.map fun keys => (role.id, keys)⟩

/-- A token is issued at the time that is read just before, and carries what was read. -/
theorem keeps_signAccessToken (settings : AuthSettings) (user : User) (role : Role)
    (permissions : List String) (sessionExpiresAt : Js.Date) :
    (TokenService.signAccessToken settings user role.code permissions sessionExpiresAt).Keeps
      (authPart dating) (At job (basisOf user (some role) (some permissions))) := by
  intro r hr
  have hbasis : r.basis = basisOf user (some role) (some permissions) := hr.2
  refine ⟨trivial, fun now => ⟨trivial, fun jti => ⟨⟨⟨now, rfl, rfl⟩, ?_⟩, fun a => ?_⟩⟩⟩
  · refine ⟨user.roleId, role.id, ?_, ?_, ?_⟩
    · exact congrArg Basis.user hbasis
    · exact congrArg Basis.role hbasis
    · exact congrArg Basis.keys hbasis
  · cases a <;> exact hr

theorem obeys_rotate (settings : AuthSettings) (existing : RefreshToken) (user : User)
    (role : Role) {r : Dating} (h : At job (basisOf user (some role) none) r) :
    (RefreshTokensHandler.rotate settings existing user role).Obeys (authPart dating) r
      fun r' _ => r'.job = job := by
  refine obeysAuth_at h ⟨rfl, fun _ => ⟨rfl, fun _ => trivial⟩⟩ ?_
  intro issued r₁ h₁
  refine obeysAuth_at h₁ ⟨rfl, fun _ => ⟨rfl, fun a => ?_⟩⟩ ?_
  · cases a <;> trivial
  intro savedNew r₂ h₂
  refine obeysAuth_at h₂ ⟨rfl, fun _ => ⟨rfl, fun _ => trivial⟩⟩ ?_
  intro _ r₃ h₃
  refine Obeys.afterPerform trivial fun found => ?_
  refine Obeys.afterLift (fun e => (r₃.next_job (.auth (.findPermissionKeys role.id)) found).trans
    h₃.1) ?_
  rintro permissions rfl
  have h₄ : At job (basisOf user (some role) (some permissions))
      (r₃.next (.auth (.findPermissionKeys role.id)) (.ok permissions)) := by
    refine ⟨h₃.1, ?_⟩
    show { r₃.basis with keys := some (role.id, permissions) } = _
    rw [h₃.2]
    rfl
  exact (keeps_signAccessToken _ _ _ _ _ _ h₄).seq (fun accessToken r' h' => h'.1)
    fun e r' h' => h'.1

theorem keeps_revoked (familyId : String) (e : AuthError) :
    (do RefreshTokenRepository.revokeFamily familyId
        throw e : AuthProgram α).Keeps (authPart dating) fun r => r.job = job := by
  refine Keeps.bind (keepsAuth_harmless ⟨rfl, fun _ => ⟨rfl, fun _ => trivial⟩⟩) ?_
  exact fun _ => Async.Program.keeps_throw e

theorem obeys_refreshTokens (settings : AuthSettings) (input : RefreshTokensCommand.Input)
    {r : Dating} (h : At job .empty r) :
    (RefreshTokensHandler.execute settings input).Obeys (authPart dating) r
      fun r' _ => r'.job = job := by
  refine obeysAuth_at h ⟨rfl, fun _ => trivial⟩ ?_
  rintro (_ | existing) r₁ h₁
  · exact h₁.1
  refine obeysAuth_at h₁ ⟨rfl, fun _ => trivial⟩ ?_
  intro now r₂ h₂
  cases hexp : RefreshTokensHandler.expired existing now with
  | some reason => exact keeps_revoked _ _ r₂ h₂.1
  | none =>
    by_cases hrev : existing.revokedAt.isSome
    · simp only [hrev, if_true]
      exact keeps_revoked _ _ r₂ h₂.1
    · simp only [hrev, if_neg (Bool.false_ne_true)]
      refine Obeys.afterPerform trivial fun found => ?_
      have hjob₃ := (r₂.next_job (.auth (.findUser existing.userId)) found).trans h₂.1
      refine Obeys.afterLift (fun e => hjob₃) ?_
      rintro (_ | user) rfl
      · exact keeps_revoked _ _ _ hjob₃
      have h₃ : At job (basisOf user none none)
          (r₂.next (.auth (.findUser existing.userId)) (.ok (some user))) := by
        refine ⟨h₂.1, ?_⟩
        show { r₂.basis with user := some (user.id, user.roleId) } = _
        rw [h₂.2]
        rfl
      by_cases hactive : user.isActive
      · simp only [hactive, Bool.not_true, Bool.false_eq_true, if_false]
        refine Obeys.afterPerform trivial fun found => ?_
        refine Obeys.afterLift (fun e => (Dating.next_job _ (.auth (.findRole user.roleId))
          found).trans h₃.1) ?_
        rintro (_ | role) rfl
        · exact h₃.1
        refine obeys_rotate settings existing user role ⟨h₃.1, ?_⟩
        show { (r₂.next (.auth (.findUser existing.userId)) (.ok (some user))).basis with
          role := some (user.roleId, role) } = _
        rw [h₃.2]
        rfl
      · simp only [hactive, Bool.not_false, if_true]
        exact keeps_revoked _ _ _ h₃.1

variable (settings : DirectorySettings)

theorem obeys_openSession (user : Account) {r : Dating}
    (h : At job (basisOf user.toUser none none) r) :
    (LoginHandler.openSession settings user).Obeys dating r fun r' _ => r'.job = job := by
  refine Obeys.afterPerform trivial fun found => ?_
  refine Obeys.afterLift (fun e => (r.next_job (.findRoleById user.roleId) found).trans h.1) ?_
  rintro (_ | role) rfl
  · exact h.1
  have h₁ : At job (basisOf user.toUser (some role.toRole) none)
      (r.next (.findRoleById user.roleId) (.ok (some role))) := by
    refine ⟨h.1, ?_⟩
    show { r.basis with role := some (user.roleId, role.toRole) } = _
    rw [h.2]
    rfl
  refine obeys_at h₁ (stamped_within rfl fun _ => rfl) ?_
  intro _ r₂ h₂
  refine Obeys.afterPerform trivial fun found => ?_
  refine Obeys.afterLift (fun e => (r₂.next_job (.findPermissionKeysByRoleId role.id) found).trans
    h₂.1) ?_
  rintro permissions rfl
  have h₃ : At job (basisOf user.toUser (some role.toRole) (some permissions))
      (r₂.next (.findPermissionKeysByRoleId role.id) (.ok permissions)) := by
    refine ⟨h₂.1, ?_⟩
    show { r₂.basis with keys := some (role.id, permissions) } = _
    rw [h₂.2]
    rfl
  refine obeys_at h₃ (Async.Program.within_perform.mpr rfl) ?_
  intro familyId r₄ h₄
  have hissued : (TokenService.issueRefreshToken settings.toAuthSettings none).Keeps
      (authPart dating) (At job (basisOf user.toUser (some role.toRole) (some permissions))) :=
    keepsAuth_at ⟨rfl, fun _ => ⟨rfl, fun _ => trivial⟩⟩
  refine (keeps_ofAuth hissued r₄ h₄).seq ?_ fun e r' h' => h'.1
  intro issued r₅ h₅
  refine (keeps_ofAuth (keeps_signAccessToken _ _ _ _ _) r₅ h₅).seq ?_ fun e r' h' => h'.1
  intro accessToken r₆ h₆
  have hsaved : ∀ token, (RefreshTokenRepository.save token).Keeps (authPart dating)
      fun r => r.job = job := by
    intro token
    refine keepsAuth_harmless ⟨rfl, fun _ => ⟨rfl, fun a => ?_⟩⟩
    cases a <;> trivial
  exact (keeps_ofAuth (hsaved _) r₆ h₆.1).seq (fun _ _ h' => h') fun _ _ h' => h'

theorem obeys_login (input : LoginCommand.Input) {r : Dating} (h : At job .empty r) :
    (LoginHandler.execute settings input).Obeys dating r fun r' _ => r'.job = job := by
  refine Obeys.afterPerform trivial fun found => ?_
  refine Obeys.afterLift (fun e => (r.next_job (.findUserByEmail input.email) found).trans h.1) ?_
  rintro (_ | user) rfl
  · exact h.1
  have h₁ : At job (basisOf user.toUser none none)
      (r.next (.findUserByEmail input.email) (.ok (some user))) := by
    refine ⟨h.1, ?_⟩
    show { r.basis with user := some (user.id, user.roleId) } = _
    rw [h.2]
    rfl
  refine Obeys.unless (fun _ => h₁.1) fun _ => ?_
  refine obeys_at h₁ (Async.Program.within_perform.mpr rfl) ?_
  intro now r₂ h₂
  refine Obeys.unless (fun _ => h₂.1) fun _ => ?_
  refine obeys_at h₂ (answer_within rfl) ?_
  intro passwordValid r₃ h₃
  split
  · refine obeys_at h₃ ?_ ?_
    · refine Within.bind (answer_within rfl) ?_
      intro _
      split
      · refine Within.bind (Async.Program.within_perform.mpr rfl) ?_
        intro now
        refine Within.bind (answer_within rfl) ?_
        exact fun _ => Async.Program.within_pure _
      · exact Async.Program.within_pure _
    · intro locked r₄ h₄
      split <;> exact h₄.1
  · exact obeys_openSession settings user h₃

/-- A command that has not read the clock, and what it knows. -/
structure Ready (job : PermissionJob) (known : List (String × String)) (r : Dating) : Prop where
  job : r.job = job
  dated : r.dated = none
  known : ∀ p ∈ known, p ∈ r.known

theorem Ready.learns {r r' : Dating} {known : List (String × String)} (hlearns : r.Learns r')
    (h : Ready job known r) : Ready job known r' :=
  ⟨hlearns.job.trans h.job, hlearns.dated.trans h.dated,
    fun p hp => hlearns.known p (h.known p hp)⟩

theorem ready_initial (job : PermissionJob) : Ready job [] (.initial job) := by
  refine ⟨rfl, rfl, ?_⟩
  rintro p ⟨⟩

/-- A command that succeeds has withdrawn the tokens. -/
def Completes (job : PermissionJob) (r : Dating) (result : Except DirectoryError α) : Prop :=
  r.job = job ∧ ∀ x, result = .ok x → r.withdrawn = true

theorem completes_error {r : Dating} (h : r.job = job) (e : DirectoryError) :
    Completes job r (.error e : Except DirectoryError α) := by
  refine ⟨h, ?_⟩
  rintro x ⟨⟩

theorem obeys_ready {p : DirectoryProgram β} {f : β → DirectoryProgram α} {r : Dating}
    {known : List (String × String)} (h : Ready job known r) (hp : p.Within (·.isTimeless))
    (hf : ∀ b r', Ready job known r' → (f b).Obeys dating r' (Completes job)) :
    (p >>= f).Obeys dating r (Completes job) := by
  apply (obeys_timeless hp r).seq
  · exact fun b r' hlearns => hf b r' (h.learns hlearns)
  · exact fun e r' hlearns => completes_error (h.learns hlearns).job e

theorem obeys_check {c : Prop} [Decidable c] {e : DirectoryError} {f : β → DirectoryProgram α}
    {p : DirectoryProgram α} {r : Dating} (hjob : r.job = job)
    (h : p.Obeys dating r (Completes job)) :
    (if c then throw e >>= f else p).Obeys dating r (Completes job) := by
  split
  · exact completes_error hjob e
  · exact h

theorem next_withdrawn (r : Dating) {op : DirectoryOp} (hop : op.isHarmless = true)
    (a : DirectoryAnswer op) : (r.next op a).withdrawn = r.withdrawn := by
  by_cases hnow : op = .auth .now
  · subst hnow
    rfl
  · exact (learns_next r (isTimeless_of_isHarmless hop hnow) a).withdrawn

theorem obeys_withdrawn {p : DirectoryProgram α} {r : Dating} (hp : p.Within (·.isHarmless))
    (hjob : r.job = job) (h : r.withdrawn = true) : p.Obeys dating r (Completes job) := by
  have hkeeps : p.Keeps dating fun r => r.job = job ∧ r.withdrawn = true := by
    apply hp.keeps
    intro r op hr hop
    refine ⟨allows_of_isHarmless r hop, fun a => ⟨(r.next_job op a).trans hr.1, ?_⟩⟩
    exact (next_withdrawn r hop a).trans hr.2
  exact Obeys.mono (hkeeps r ⟨hjob, h⟩) fun r' _ hr => ⟨hr.1, fun _ _ => hr.2⟩

theorem obeys_applyPatch {input : UpdateUserCommand.Input} {target : Account}
    (patch : UserUpdate) (deactivation : Bool) {r : Dating}
    (h : Ready (.updateUser input) [(input.targetUserId, target.id)] r) :
    (UpdateUserHandler.applyPatch target patch deactivation).Obeys dating r
      (Completes (.updateUser input)) := by
  have hafter : (if deactivation then RefreshTokenRepository.revokeAllForUser target.id >>= fun _ =>
      UserRepository.findById target.id else UserRepository.findById target.id).Within
      (·.isHarmless) := by
    split
    · exact Within.bind (stamped_within rfl fun _ => rfl) fun _ => answer_within rfl
    · exact answer_within rfl
  have hrest : ∀ (u : Unit) r', Ready (.updateUser input) [(input.targetUserId, target.id)] r' →
      (do
        UserRepository.invalidateTokens target.id
        if deactivation then
          RefreshTokenRepository.revokeAllForUser target.id
        UserRepository.findById target.id : DirectoryProgram (Option Account)).Obeys dating r'
        (Completes (.updateUser input)) := by
    intro _ r' h'
    refine ⟨trivial, fun now => ⟨⟨?_, input, h'.job, h'.known _ (List.mem_cons_self ..)⟩,
      fun a => ?_⟩⟩
    · simp [dating, next, afterNow, h'.dated]
    rcases a with a | e | e
    · exact obeys_withdrawn hafter h'.job rfl
    · exact completes_error h'.job e
    · exact completes_error h'.job e
  unfold UpdateUserHandler.applyPatch
  by_cases hempty : patch.isEmpty
  · simp only [hempty, Bool.not_true, Bool.false_eq_true, if_false]
    exact hrest () r h
  · simp only [hempty, Bool.not_false, if_true]
    refine ⟨⟨by rw [h.job]; rfl, h.dated⟩, fun a => ?_⟩
    rcases a with a | e | e
    · exact hrest a _ ⟨h.job, h.dated, h.known⟩
    · exact completes_error h.job e
    · exact completes_error h.job e

theorem obeys_change {input : UpdateUserCommand.Input} (context : UserManagementContext)
    {target : Account} (newRole : RoleRow) {roleChange deactivation : Bool} {r : Dating}
    (h : Ready (.updateUser input) [(input.targetUserId, target.id)] r) :
    (UpdateUserHandler.change input context target newRole roleChange deactivation).Obeys dating r
      (Completes (.updateUser input)) := by
  apply obeys_ready h (assertCanAssignRole_within context newRole)
  intro _ r₁ h₁
  apply obeys_ready h₁ (assertScopeFitsFsp_within newRole _)
  intro _ r₂ h₂
  have hwrite : ∀ (u : Unit) r₃, Ready (.updateUser input) [(input.targetUserId, target.id)] r₃ →
      ∀ fspId, (do
        UserManagementPolicy.assertNotLastDfspManager target target.roleId newRole.id fspId
          deactivation
        let updated ← UpdateUserHandler.applyPatch target
          (UpdateUserHandler.patchFor target newRole roleChange fspId input.isActive) deactivation
        return { user := updated, role := newRole } :
        DirectoryProgram UpdateUserCommand.Output).Obeys dating r₃
          (Completes (.updateUser input)) := by
    intro _ r₃ h₃ fspId
    apply obeys_ready h₃ ((assertNotLastDfspManager_within _ _ _ _ _).mono isTimeless_of_isRead)
    intro _ r₄ h₄
    rw [Async.Program.obeys_bind]
    refine Obeys.mono (obeys_applyPatch _ deactivation h₄) ?_
    rintro r₅ (e | updated) ⟨hjob, hwithdrawn⟩
    · exact completes_error hjob e
    · exact ⟨hjob, fun _ _ => hwithdrawn updated rfl⟩
  by_cases hcheck : (deactivation || roleChange) = true
  · simp only [hcheck, if_true]
    apply obeys_ready h₂ (assertNotLastAdmin_within _ _ _ _ (fun _ => rfl) fun _ _ => rfl)
    exact fun u r₃ h₃ => hwrite u r₃ h₃ _
  · simp only [hcheck, Bool.false_eq_true, if_false]
    exact hwrite () r₂ h₂ _

theorem obeys_updateUser (input : UpdateUserCommand.Input) :
    (UpdateUserHandler.execute input).Obeys dating (.initial (.updateUser input))
      (Completes (.updateUser input)) := by
  apply obeys_ready (ready_initial _)
    ((resolveManagementContext_within _).mono isTimeless_of_isRead)
  intro context r₁ h₁
  apply Obeys.afterPerform trivial
  intro found
  have h₂ := h₁.learns (learns_next r₁ rfl found)
  apply Obeys.afterLift (fun e => completes_error h₂.job e)
  rintro (_ | target) hfound
  · exact completes_error h₂.job _
  have htarget : Ready (.updateUser input) [(input.targetUserId, target.id)]
      (r₁.next (.findUserById input.targetUserId) found) := by
    refine ⟨h₂.job, h₂.dated, ?_⟩
    intro p hp
    rw [List.mem_singleton.mp hp]
    simp [next, hfound, Except.toOption, afterFind]
  apply obeys_ready htarget (answer_within rfl)
  rintro (_ | targetRole) r₃ h₃
  · exact completes_error h₃.job _
  apply obeys_ready h₃ (assertCanManageTargetRole_within context target targetRole)
  intro _ r₄ h₄
  apply obeys_check h₄.job
  apply obeys_ready h₄ (answer_within rfl)
  rintro (_ | newRole) r₅ h₅
  · exact completes_error h₅.job _
  · exact obeys_change context newRole h₅

theorem obeys_replaceRolePermissions (input : ReplaceRolePermissionsCommand.Input) :
    (ReplaceRolePermissionsHandler.execute input).Obeys dating
      (.initial (.replaceRolePermissions input)) (Completes (.replaceRolePermissions input)) := by
  apply Obeys.afterPerform trivial
  intro found
  have h₁ := (ready_initial (.replaceRolePermissions input)).learns
    (learns_next _ (rfl : DirectoryOp.isTimeless (.findRoleById input.roleId) = true) found)
  apply Obeys.afterLift (fun e => completes_error h₁.job e)
  rintro (_ | role) hfound
  · exact completes_error h₁.job _
  have hrole : Ready (.replaceRolePermissions input) [(input.roleId, role.id)]
      ((initial (.replaceRolePermissions input)).next (.findRoleById input.roleId) found) := by
    refine ⟨h₁.job, h₁.dated, ?_⟩
    intro p hp
    rw [List.mem_singleton.mp hp]
    simp [next, hfound, Except.toOption, afterFind, afterRole]
  apply obeys_ready hrole ((findByKeyNames_within _).mono isTimeless_of_isRead)
  intro resolved r₂ h₂
  apply obeys_check h₂.job
  apply obeys_check h₂.job
  have hwrite : ∀ (u : Unit) r₃,
      Ready (.replaceRolePermissions input) [(input.roleId, role.id)] r₃ → (do
        RolePermissionRepository.replaceForRole role.id (resolved.map Permission.id)
        UserRepository.invalidateTokensForRole role.id
        return { roleId := role.id
                 permissionKeys :=
                   (resolved.map Permission.keyName).mergeSort fun a b => a ≤ b } :
        DirectoryProgram ReplaceRolePermissionsCommand.Output).Obeys dating r₃
          (Completes (.replaceRolePermissions input)) := by
    intro _ r₃ h₃
    refine ⟨⟨by rw [h₃.job]; rfl, h₃.dated⟩, fun a => ?_⟩
    rcases a with a | e | e
    · refine ⟨trivial, fun now => ⟨⟨?_, input, h₃.job, h₃.known _ (List.mem_cons_self ..)⟩,
        fun a => ?_⟩⟩
      · simp [dating, next, afterNow, h₃.dated]
      rcases a with a | e | e
      · exact ⟨h₃.job, fun _ _ => rfl⟩
      · exact completes_error h₃.job e
      · exact completes_error h₃.job e
    · exact completes_error h₃.job e
    · exact completes_error h₃.job e
  split
  · apply obeys_ready h₂ (answer_within rfl)
    intro currentKeys r₃ h₃
    apply obeys_check h₃.job
    exact hwrite () r₃ h₃
  · exact hwrite () r₂ h₂

theorem obeys_job (job : PermissionJob) :
    (job.execute settings).Obeys dating (.initial job) (Succeeded job) := by
  have htoken : ∀ {α : Type} {p : DirectoryProgram α}, job.isCommand = false →
      p.Obeys dating (.initial job) (fun r _ => r.job = job) →
      (p >>= fun _ => pure ()).Obeys dating (.initial job) (Succeeded job) := by
    intro α p hjob hp
    rw [Async.Program.obeys_bind]
    refine Obeys.mono hp ?_
    rintro r (e | x) hr
    · refine ⟨hr, ?_⟩
      rintro ⟨⟩
    exact ⟨hr, fun _ hcommand => by rw [hjob] at hcommand; cases hcommand⟩
  have hcommand : ∀ {α : Type} {p : DirectoryProgram α},
      p.Obeys dating (.initial job) (Completes job) →
      (p >>= fun _ => pure ()).Obeys dating (.initial job) (Succeeded job) := by
    intro α p hp
    rw [Async.Program.obeys_bind]
    refine Obeys.mono hp ?_
    rintro r (e | x) ⟨hjob, hwithdrawn⟩
    · refine ⟨hjob, ?_⟩
      rintro ⟨⟩
    · exact ⟨hjob, fun _ _ => hwithdrawn x rfl⟩
  cases job with
  | login input => exact htoken rfl (obeys_login settings input ⟨rfl, rfl⟩)
  | refreshTokens input =>
    exact htoken rfl (obeys_ofAuth (obeys_refreshTokens _ input ⟨rfl, rfl⟩))
  | updateUser input => exact hcommand (obeys_updateUser input)
  | replaceRolePermissions input => exact hcommand (obeys_replaceRolePermissions input)

end Programs
end Dating

/-- The token carries the role of the user, and the permissions of that role. -/
def Backs (d : Directory) (claims : AccessTokenClaims) (u : Account) : Prop :=
  (d.roles.find? u.roleId).map (fun r => r.code) = some claims.role ∧
    (∀ key ∈ claims.permissions, key ∈ d.permissionKeys u.roleId) ∧
    ∀ key ∈ d.permissionKeys u.roleId, key ∈ claims.permissions

instance (d : Directory) (claims : AccessTokenClaims) (u : Account) : Decidable (Backs d claims u) :=
  inferInstanceAs (Decidable (_ ∧ _ ∧ _))

/-- Every row of the user backs the token. -/
def BacksAll (d : Directory) (claims : AccessTokenClaims) : Prop :=
  ∀ u ∈ d.users.rows, u.id = claims.sub → Backs d claims u

instance (d : Directory) (claims : AccessTokenClaims) : Decidable (BacksAll d claims) :=
  inferInstanceAs (Decidable (∀ u ∈ d.users.rows, _))

/-- What was read still is so: the user's role identifier, the role, and the keys of that role. -/
structure Basis.Holds (b : Basis) (d : Directory) : Prop where
  user : ∀ p ∈ b.user, ∀ u ∈ d.users.rows, u.id = p.1 → u.roleId = p.2
  role : ∀ p ∈ b.role, (d.roles.find? p.1).map (fun r => r.toRole) = some p.2
  keys : ∀ p ∈ b.keys, (∀ key ∈ p.2, key ∈ d.permissionKeys p.1) ∧
    ∀ key ∈ d.permissionKeys p.1, key ∈ p.2

instance (b : Basis) (d : Directory) : Decidable (b.Holds d) :=
  decidable_of_iff
    ((∀ p ∈ b.user, ∀ u ∈ d.users.rows, u.id = p.1 → u.roleId = p.2) ∧
      (∀ p ∈ b.role, (d.roles.find? p.1).map (fun r => r.toRole) = some p.2) ∧
      ∀ p ∈ b.keys, (∀ key ∈ p.2, key ∈ d.permissionKeys p.1) ∧
        ∀ key ∈ d.permissionKeys p.1, key ∈ p.2)
    ⟨fun h => ⟨h.1, h.2.1, h.2.2⟩, fun h => ⟨h.user, h.role, h.keys⟩⟩

theorem Basis.Holds.backsAll {b : Basis} {d : Directory} {claims : AccessTokenClaims}
    (h : b.Holds d) (hcarries : b.Carries claims) : BacksAll d claims := by
  obtain ⟨roleId, id, huser, hrole, hkeys⟩ := hcarries
  intro u hu hid
  obtain rfl : u.roleId = roleId := h.user _ huser u hu hid
  obtain ⟨row, hfound, hrow⟩ := Option.map_eq_some_iff.mp (h.role _ hrole)
  have hcode : row.code = claims.role := congrArg Role.code hrow
  obtain rfl : u.roleId = id :=
    (Store.Table.find?_eq_some_iff.mp hfound).2.symm.trans (congrArg Role.id hrow)
  refine ⟨?_, h.keys _ hkeys⟩
  rw [hfound, Option.map_some, hcode]

/-- No user's role and no role's permissions change; `keeps` says what else stays of a row. -/
structure Steady (keeps : Account → Account → Prop) (s s' : Directory) : Prop where
  roles : s'.roles = s.roles
  keys : ∀ roleId, s'.permissionKeys roleId = s.permissionKeys roleId
  users : ∀ u' ∈ s'.users.rows, ∃ u ∈ s.users.rows, u'.id = u.id ∧ u'.roleId = u.roleId ∧ keeps u u'

/-- The date of the row's tokens is left as it is. -/
def KeepsDate (u u' : Account) : Prop := u'.tokensInvalidatedAt = u.tokensInvalidatedAt

section Steady

variable {keeps : Account → Account → Prop} {s s' : Directory} {settings : DirectorySettings}

theorem Steady.backsAll (h : Steady keeps s s') {claims : AccessTokenClaims}
    (hclaims : BacksAll s claims) : BacksAll s' claims := by
  intro u' hu' hid
  obtain ⟨u, hu, hsame, hrole, -⟩ := h.users u' hu'
  obtain ⟨hcode, hsub, hsup⟩ := hclaims u hu (hsame.symm.trans hid)
  simp only [Backs, h.roles, h.keys, hrole]
  exact ⟨hcode, hsub, hsup⟩

theorem steady_of_eq (husers : s'.users = s.users) (hroles : s'.roles = s.roles)
    (hpermissions : s'.permissions = s.permissions)
    (hgrants : s'.rolePermissions = s.rolePermissions) (hkeeps : ∀ u, keeps u u) :
    Steady keeps s s' := by
  refine ⟨hroles, ?_, ?_⟩
  · intro roleId
    simp only [Directory.permissionKeys, hpermissions, hgrants]
  · rw [husers]
    exact fun u hu => ⟨u, hu, rfl, rfl, hkeeps u⟩

theorem steady_updateUsers {p : Account → Bool} {f : Account → Account}
    {hid : ∀ u, (f u).id = u.id} (hrole : ∀ u, (f u).roleId = u.roleId) (hkeeps : ∀ u, keeps u u)
    (hf : ∀ u, p u = true → keeps u (f u)) : Steady keeps s (s.updateUsers p f hid) := by
  refine ⟨rfl, fun _ => rfl, ?_⟩
  intro u' hu'
  obtain ⟨u, hu, rfl⟩ := (s.mem_updateUsers).mp hu'
  cases hp : p u with
  | true => exact ⟨u, hu, hid u, hrole u, hf u hp⟩
  | false => exact ⟨u, hu, rfl, rfl, hkeeps u⟩

theorem steady_applies {ε : Type} (a : Written ε Unit) (hkeeps : ∀ u, keeps u u)
    (h : Steady keeps s s') : Steady keeps s (a.applies s s') := by
  rcases a.applies_cases s s' with ha | ⟨-, ha⟩
  · rwa [ha]
  · rw [ha]
    exact steady_of_eq rfl rfl rfl rfl hkeeps

/-- What a call does that is not part of a command's change. -/
structure Passes (s s' : Directory) : Prop where
  steady : Steady KeepsDate s s'
  latest : s.latest ≤ s'.latest

theorem passes_auth {op : AuthOp} {a : AuthAnswer op} (hp : s.performsAuth op a s') :
    Passes s s' := by
  cases op with
  | now =>
    rw [show s' = _ from hp]
    exact ⟨steady_of_eq rfl rfl rfl rfl fun _ => rfl, le_max_left _ _⟩
  | sign claims =>
    rcases a with e | jwt
    · rw [show s' = s from hp]
      exact ⟨steady_of_eq rfl rfl rfl rfl fun _ => rfl, le_rfl⟩
    · rw [show s' = _ from hp]
      exact ⟨steady_of_eq rfl rfl rfl rfl fun _ => rfl, le_rfl⟩
  | randomBytes =>
    rw [show s' = s from hp]
    exact ⟨steady_of_eq rfl rfl rfl rfl fun _ => rfl, le_rfl⟩
  | nextId =>
    rw [show s' = _ from hp.2]
    exact ⟨steady_of_eq rfl rfl rfl rfl fun _ => rfl, le_rfl⟩
  | findUser _ | findRole _ | findPermissionKeys _ =>
    rw [show s' = s from hp.1]
    exact ⟨steady_of_eq rfl rfl rfl rfl fun _ => rfl, le_rfl⟩
  | findByTokenHash _ | revokeFamily _ _ | markRevoked _ _ _ | insert _ =>
    obtain ⟨t, -, rfl⟩ := hp
    exact ⟨steady_of_eq rfl rfl rfl rfl fun _ => rfl, le_rfl⟩

theorem tokens_auth {op : AuthOp} {a : AuthAnswer op} (hop : ∀ claims, op ≠ .sign claims)
    (hp : s.performsAuth op a s') : s'.accessTokens = s.accessTokens := by
  cases op with
  | now => rw [show s' = _ from hp]
  | sign claims => exact absurd rfl (hop claims)
  | randomBytes => rw [show s' = s from hp]
  | nextId => rw [show s' = _ from hp.2]
  | findUser _ | findRole _ | findPermissionKeys _ => rw [show s' = s from hp.1]
  | findByTokenHash _ | revokeFamily _ _ | markRevoked _ _ _ | insert _ =>
    obtain ⟨t, -, rfl⟩ := hp
    rfl

theorem passes_applies {ε : Type} (a : Written ε Unit) {d : Directory} (h : Steady KeepsDate s d)
    (hlatest : d.latest = s.latest) (htokens : d.accessTokens = s.accessTokens) :
    Passes s (a.applies s d) ∧ (a.applies s d).accessTokens = s.accessTokens := by
  refine ⟨⟨steady_applies a (fun _ => rfl) h, ?_⟩, ?_⟩
  · cases a <;> simp [hlatest]
  · cases a <;> simp [htokens]

theorem passes_of_performs {op : DirectoryOp} {a : DirectoryAnswer op}
    (hop : op.isHarmless = true) (hp : s.performs settings op a s') :
    Passes s s' ∧ s'.accessTokens = s.accessTokens := by
  cases op with
  | auth op =>
    refine ⟨passes_auth hp, tokens_auth ?_ hp⟩
    rintro claims rfl
    cases hop
  | findUserById _ | findUserByEmail _ | findRoleById _ | findRoleByCode _
    | findPermissionKeysByRoleId _ | findPermissionsByKeyNames _
    | countActiveUsersGrantingPermission _ _ | countActiveUsersByRoleIdForFsp _ _ _
    | verifyPassword _ _ =>
    rw [show s' = s from hp.1]
    exact ⟨⟨steady_of_eq rfl rfl rfl rfl fun _ => rfl, le_rfl⟩, rfl⟩
  | generateTempPassword =>
    rw [show s' = s from hp]
    exact ⟨⟨steady_of_eq rfl rfl rfl rfl fun _ => rfl, le_rfl⟩, rfl⟩
  | hashPassword _ =>
    rw [show s' = s from hp]
    exact ⟨⟨steady_of_eq rfl rfl rfl rfl fun _ => rfl, le_rfl⟩, rfl⟩
  | revokeAllForUser _ _ =>
    rw [show s' = _ from hp]
    exact passes_applies a (steady_of_eq rfl rfl rfl rfl fun _ => rfl) rfl rfl
  | updatePasswordHash _ _ _ | recordSuccessfulLogin _ _ | incrementFailedAttempts _
    | lockUntil _ _ =>
    rw [show s' = _ from hp]
    exact passes_applies a (steady_updateUsers (fun _ => rfl) (fun _ => rfl) fun _ _ => rfl) rfl rfl
  | updateUser _ _ | replaceForRole _ _ | invalidateTokens _ _ | invalidateTokensForRole _ _
    | insertUser _ | deactivate _ => cases hop

end Steady

variable {ι : Type}

/-- The conditions of the result, with the commands run by process `k`. No clock is behind a
reading before it when the command dates the tokens; when a request signs after that, what it has
read still holds, or it has read the clock no later than in the second of the date. -/
def Prompt (settings : DirectorySettings) (k : ι) (s : Directory) (f : ι → Option Dating) :
    Label ι DirectoryOp DirectoryAnswer PermissionJob → Prop
  | .start i job => job.isCommand = true → i = k
  | .call i ⟨.auth .now, now⟩ => ∀ r, f i = some r → r.job.isCommand = true → r.dated = none →
    s.latest ≤ now
  | .call i ⟨.auth (.sign _), .ok _⟩ => ∀ r d r', f k = some r → r.job.isCommand = true →
    r.dated = some d → f i = some r' → r'.basis.Holds s ∨
      ∀ now, r'.clock = some now → now / 1000 ≤ settings.datetime.store d / 1000
  | _ => True

/-- What process `k` has made of the tokens, if it runs a command. -/
structure Dates (settings : DirectorySettings) (s : Directory) (r : Dating) : Prop where
  backed : ∀ d, r.dated = some d → ∀ claims ∈ s.accessTokens,
    claims.iat ≤ settings.datetime.store d / 1000 ∨ BacksAll s claims
  withdrawn : r.withdrawn = true → ∃ d, r.dated = some d ∧
    ∀ u ∈ s.users.rows, r.job.Changes u → u.tokensInvalidatedAt = some (settings.datetime.store d)

/-- What a request knows is so, and the times it has read are past. -/
structure Knows (s : Directory) (r : Dating) : Prop where
  clock : ∀ now, r.clock = some now → now ≤ s.latest
  known : ∀ p ∈ r.known, p.1 = p.2

structure Timed (settings : DirectorySettings) (k : ι) (s : Directory) (f : ι → Option Dating) :
    Prop where
  issued : ∀ claims ∈ s.accessTokens, claims.iat ≤ s.latest / 1000
  knows : ∀ i r, f i = some r → Knows s r
  command : ∀ i r, f i = some r → r.job.isCommand = true → i = k ∧ Dates settings s r

section Timed

variable {settings : DirectorySettings} {k i : ι} {s s' : Directory} {f : ι → Option Dating}
  {r r' : Dating}

theorem changes_congr {job : PermissionJob} {u u' : Account} (hid : u'.id = u.id)
    (hrole : u'.roleId = u.roleId) : job.Changes u' ↔ job.Changes u := by
  cases job <;> simp [PermissionJob.Changes, hid, hrole]

theorem Dates.pass (h : Dates settings s r) (hp : Passes s s')
    (htokens : s'.accessTokens = s.accessTokens) : Dates settings s' r := by
  constructor
  · intro d hd claims hclaims
    rw [htokens] at hclaims
    exact (h.backed d hd claims hclaims).imp id hp.steady.backsAll
  · intro hwithdrawn
    obtain ⟨d, hd, hdated⟩ := h.withdrawn hwithdrawn
    refine ⟨d, hd, ?_⟩
    intro u' hu' hchanges
    obtain ⟨u, hu, hid, hrole, hkeeps⟩ := hp.steady.users u' hu'
    exact hkeeps.trans (hdated u hu ((changes_congr hid hrole).mp hchanges))

theorem Knows.pass (h : Knows s r) (hlatest : s.latest ≤ s'.latest) : Knows s' r :=
  ⟨fun now hnow => (h.clock now hnow).trans hlatest, h.known⟩

theorem issued_mono {iat latest latest' : ℤ} (h : iat ≤ latest / 1000) (hle : latest ≤ latest') :
    iat ≤ latest' / 1000 := h.trans (Int.ediv_le_ediv (by decide) hle)

theorem Timed.pass (h : Timed settings k s f) (hp : Passes s s')
    (htokens : s'.accessTokens = s.accessTokens) : Timed settings k s' f := by
  constructor
  · intro claims hclaims
    rw [htokens] at hclaims
    exact issued_mono (h.issued claims hclaims) hp.latest
  · exact fun i r hi => (h.knows i r hi).pass hp.latest
  · intro i r hi hcommand
    obtain ⟨hk, hdates⟩ := h.command i r hi hcommand
    exact ⟨hk, hdates.pass hp htokens⟩

theorem Timed.put [DecidableEq ι] (h : Timed settings k s f) (hknows : Knows s r')
    (hcommand : r'.job.isCommand = true → i = k ∧ Dates settings s r') :
    Timed settings k s (Function.update f i (some r')) := by
  constructor
  · exact h.issued
  · exact Async.forall_update.mpr ⟨hknows, fun j r _ hj => h.knows j r hj⟩
  · exact Async.forall_update.mpr ⟨hcommand, fun j r _ hj => h.command j r hj⟩

theorem Dates.learns (h : Dates settings s r) (hjob : r'.job = r.job) (hdated : r'.dated = r.dated)
    (hwithdrawn : r'.withdrawn = r.withdrawn) : Dates settings s r' := by
  constructor
  · rw [hdated]
    exact h.backed
  · rw [hdated, hwithdrawn, hjob]
    exact h.withdrawn

theorem knows_afterFind (h : Knows s r) {id : String} {found : Option String}
    (hfound : ∀ answered, found = some answered → answered = id) : Knows s (r.afterFind id found) := by
  cases found with
  | none => exact h
  | some answered =>
    refine ⟨h.clock, ?_⟩
    intro p hp
    rcases List.mem_cons.mp hp with rfl | hp
    · exact (hfound answered rfl).symm
    · exact h.known p hp

variable {op : DirectoryOp} {a : DirectoryAnswer op}

theorem knows_afterUser (h : Knows s r) (found : Option User) : Knows s (r.afterUser found) := by
  cases found <;> exact ⟨h.clock, h.known⟩

theorem knows_afterRole (h : Knows s r) (id : String) (found : Option Role) :
    Knows s (r.afterRole id found) := by
  cases found <;> exact ⟨h.clock, h.known⟩

theorem knows_afterKeys (h : Knows s r) (id : String) (found : Option (List String)) :
    Knows s (r.afterKeys id found) := by
  cases found <;> exact ⟨h.clock, h.known⟩

theorem knows_next (h : Knows s r) (hop : op.isTimeless = true) (hp : s.performs settings op a s') :
    Knows s (r.next op a) := by
  cases op with
  | findUserById id =>
    apply knows_afterFind h
    intro answered hanswered
    rcases a with e | user
    · cases hanswered
    · simp only [Except.toOption, Option.bind_some, hp.2 user rfl, Option.map_eq_some_iff] at hanswered
      obtain ⟨u, hu, rfl⟩ := hanswered
      exact (Store.Table.find?_eq_some_iff.mp hu).2
  | findRoleById id =>
    refine knows_afterRole (knows_afterFind h ?_) id _
    intro answered hanswered
    rcases a with e | role
    · cases hanswered
    · simp only [Except.toOption, Option.bind_some, hp.2 role rfl, Option.map_eq_some_iff] at hanswered
      obtain ⟨u, hu, rfl⟩ := hanswered
      exact (Store.Table.find?_eq_some_iff.mp hu).2
  | findUserByEmail _ => exact knows_afterUser h _
  | findPermissionKeysByRoleId id => exact knows_afterKeys h id _
  | auth op =>
    cases op with
    | now => cases hop
    | findUser _ => exact knows_afterUser h _
    | findRole id => exact knows_afterRole h id _
    | findPermissionKeys id => exact knows_afterKeys h id _
    | _ => exact h
  | invalidateTokens _ _ | invalidateTokensForRole _ _ => cases hop
  | _ => exact h

/-- A command dates the tokens: those that there are were issued before. -/
theorem dates_now (h : Dates settings s r) (hissued : ∀ claims ∈ s.accessTokens,
    claims.iat ≤ s.latest / 1000) {now : Js.Date} (hnow : r.dated = none → s.latest ≤ now) :
    Dates settings s (r.afterNow now) := by
  cases hdated : r.dated with
  | some d => exact h.learns rfl (by simp [Dating.afterNow, hdated]) rfl
  | none =>
    constructor
    · intro d hd claims hclaims
      obtain rfl : now = d := by simpa [Dating.afterNow, hdated] using hd
      left
      exact (issued_mono (hissued claims hclaims) (hnow hdated)).trans
        (settings.datetime.second_le now)
    · intro hwithdrawn
      obtain ⟨d, hd, -⟩ := h.withdrawn hwithdrawn
      rw [hdated] at hd
      cases hd

theorem Timed.commands [DecidableEq ι] (h : Timed settings k s f) (hi : f i = some r)
    (hcommand : r.job.isCommand = true) (htokens : s'.accessTokens = s.accessTokens)
    (hlatest : s'.latest = s.latest) (hclock : r'.clock = r.clock) (hknown : r'.known = r.known)
    (hdates : Dates settings s' r') : Timed settings k s' (Function.update f i (some r')) := by
  obtain ⟨rfl, -⟩ := h.command i r hi hcommand
  have hknows : ∀ j r, f j = some r → Knows s' r := by
    intro j r hj
    refine ⟨?_, (h.knows j r hj).known⟩
    rw [hlatest]
    exact (h.knows j r hj).clock
  constructor
  · rw [htokens, hlatest]
    exact h.issued
  · refine Async.forall_update.mpr ⟨⟨?_, ?_⟩, fun j r _ hj => hknows j r hj⟩
    · rw [hclock]
      exact (hknows i r hi).clock
    · rw [hknown]
      exact (hknows i r hi).known
  · refine Async.forall_update.mpr ⟨fun _ => ⟨rfl, hdates⟩, ?_⟩
    intro j r hj hf hc
    exact absurd (h.command j r hf hc).1 hj

theorem dates_undated (h : Dates settings s r) (hdated : r.dated = none) : Dates settings s' r := by
  constructor
  · intro d hd
    rw [hdated] at hd
    cases hd
  · intro hwithdrawn
    obtain ⟨d, hd, -⟩ := h.withdrawn hwithdrawn
    rw [hdated] at hd
    cases hd

/-- A command withdraws the tokens of the users it changes. -/
theorem dates_invalidate (h : Dates settings s r) {p : Account → Bool} {d : Js.Date}
    (hdated : r.dated = some d) (hp : ∀ u, r.job.Changes u → p u = true)
    (a : Written DirectoryError Unit) : Dates settings
      (a.applies s (s.invalidateWhere p (settings.datetime.store d))) (r.afterInvalidate a) := by
  have hsteady : Steady (fun _ _ => True) s (s.invalidateWhere p (settings.datetime.store d)) :=
    steady_updateUsers (fun _ => rfl) (fun _ => trivial) fun _ _ => trivial
  have hbacked : ∀ d', r.dated = some d' → ∀ claims ∈ s.accessTokens,
      claims.iat ≤ settings.datetime.store d' / 1000 ∨
        BacksAll (s.invalidateWhere p (settings.datetime.store d)) claims :=
    fun d' hd' claims hclaims => (h.backed d' hd' claims hclaims).imp id hsteady.backsAll
  have hall : ∀ u ∈ (s.invalidateWhere p (settings.datetime.store d)).users.rows, r.job.Changes u →
      u.tokensInvalidatedAt = some (settings.datetime.store d) := by
    intro u hu hchanges
    obtain ⟨u', hu', rfl⟩ := s.mem_updateUsers.mp hu
    have hchanges' : r.job.Changes u' := by
      refine (changes_congr ?_ ?_).mp hchanges
      · split <;> rfl
      · split <;> rfl
    simp [hp u' hchanges']
  cases a with
  | done u => exact ⟨hbacked, fun _ => ⟨d, hdated, hall⟩⟩
  | lost e => exact ⟨hbacked, fun _ => ⟨d, hdated, hall⟩⟩
  | rejected e => exact h

theorem Timed.sign (h : Timed settings k s f) {claims : AccessTokenClaims}
    (hissued : claims.iat ≤ s.latest / 1000)
    (hbacked : ∀ r d, f k = some r → r.job.isCommand = true → r.dated = some d →
      claims.iat ≤ settings.datetime.store d / 1000 ∨ BacksAll s claims) :
    Timed settings k { s with accessTokens := claims :: s.accessTokens } f := by
  constructor
  · intro claims' hclaims'
    rcases List.mem_cons.mp hclaims' with rfl | hclaims'
    · exact hissued
    · exact h.issued claims' hclaims'
  · exact fun i r hi => ⟨(h.knows i r hi).clock, (h.knows i r hi).known⟩
  · intro i r hi hcommand
    obtain ⟨rfl, hdates⟩ := h.command i r hi hcommand
    refine ⟨rfl, ?_, hdates.withdrawn⟩
    intro d hd claims' hclaims'
    rcases List.mem_cons.mp hclaims' with rfl | hclaims'
    · exact hbacked r d hi hcommand hd
    · exact hdates.backed d hd claims' hclaims'

variable [DecidableEq ι]

theorem Timed.timeless (h : Timed settings k s f) (hi : f i = some r)
    (hop : op.isTimeless = true) (hp : s.performs settings op a s') :
    Timed settings k s' (Function.update f i (some (r.next op a))) := by
  obtain ⟨hpasses, htokens⟩ := passes_of_performs (Dating.isHarmless_of_isTimeless op hop) hp
  have hlearns := r.learns_next hop a
  apply (h.pass hpasses htokens).put
  · exact (knows_next (h.knows i r hi) hop hp).pass hpasses.latest
  · intro hcommand
    rw [hlearns.job] at hcommand
    obtain ⟨hk, hdates⟩ := h.command i r hi hcommand
    exact ⟨hk, (hdates.pass hpasses htokens).learns hlearns.job hlearns.dated hlearns.withdrawn⟩

theorem Timed.now (h : Timed settings k s f) (hi : f i = some r) {now : Js.Date}
    (hl : r.job.isCommand = true → r.dated = none → s.latest ≤ now) :
    Timed settings k { s with latest := max s.latest now }
      (Function.update f i (some (r.afterNow now))) := by
  have hpasses : Passes s { s with latest := max s.latest now } :=
    ⟨steady_of_eq rfl rfl rfl rfl fun _ => rfl, le_max_left _ _⟩
  apply (h.pass hpasses rfl).put
  · refine ⟨?_, (h.knows i r hi).known⟩
    rintro now' ⟨⟩
    exact le_max_right _ _
  · intro hcommand
    obtain ⟨hk, hdates⟩ := h.command i r hi hcommand
    exact ⟨hk, (dates_now hdates h.issued (hl hcommand)).pass hpasses rfl⟩

theorem Timed.call (h : Timed settings k s f) (hi : f i = some r) (hr : r.allows op)
    (hl : Prompt settings k s f (.call i ⟨op, a⟩)) (hp : s.performs settings op a s') :
    Timed settings k s' (Function.update f i (some (r.next op a))) := by
  cases hop : op.isTimeless with
  | true => exact h.timeless hi hop hp
  | false =>
    cases op with
    | auth op =>
      cases op with
      | now =>
        obtain rfl : s' = _ := hp
        exact h.now hi fun hcommand hdated => hl r hi hcommand hdated
      | sign claims =>
        have hsame : (r.next (.auth (.sign claims)) a) = r := rfl
        rw [hsame, Function.update_eq_self_iff.mpr hi.symm]
        rcases a with e | jwt
        · obtain rfl : s' = s := hp
          exact h
        · obtain rfl : s' = _ := hp
          obtain ⟨⟨now, hnow, hiat⟩, hcarries⟩ := hr
          apply h.sign
          · rw [hiat]
            exact Int.ediv_le_ediv (by decide) ((h.knows i r hi).clock now hnow)
          · intro r₁ d h₁ hcommand hd
            rcases hl r₁ d r h₁ hcommand hd hi with hholds | hclock
            · exact .inr (hholds.backsAll hcarries)
            · exact .inl (hiat ▸ hclock now hnow)
      | _ => cases hop
    | updateUser id patch =>
      obtain rfl : s' = _ := hp
      have hdates := (h.command i r hi hr.1).2
      apply h.commands hi hr.1 _ _ rfl rfl (dates_undated hdates hr.2)
      · cases a <;> rfl
      · cases a <;> rfl
    | replaceForRole roleId permissionIds =>
      obtain rfl : s' = _ := hp
      have hdates := (h.command i r hi hr.1).2
      apply h.commands hi hr.1 _ _ rfl rfl (dates_undated hdates hr.2)
      · cases a <;> rfl
      · cases a <;> rfl
    | invalidateTokens id d =>
      obtain rfl : s' = _ := hp
      obtain ⟨hdated, input, hjob, hknown⟩ := hr
      have hcommand : r.job.isCommand = true := by rw [hjob]; rfl
      obtain rfl : input.targetUserId = id := (h.knows i r hi).known _ hknown
      apply h.commands hi hcommand
      · cases a <;> rfl
      · cases a <;> rfl
      · cases a <;> rfl
      · cases a <;> rfl
      · apply dates_invalidate (h.command i r hi hcommand).2 hdated
        intro u hu
        rw [hjob] at hu
        exact decide_eq_true hu
    | invalidateTokensForRole roleId d =>
      obtain rfl : s' = _ := hp
      obtain ⟨hdated, input, hjob, hknown⟩ := hr
      have hcommand : r.job.isCommand = true := by rw [hjob]; rfl
      obtain rfl : input.roleId = roleId := (h.knows i r hi).known _ hknown
      apply h.commands hi hcommand
      · cases a <;> rfl
      · cases a <;> rfl
      · cases a <;> rfl
      · cases a <;> rfl
      · apply dates_invalidate (h.command i r hi hcommand).2 hdated
        intro u hu
        rw [hjob] at hu
        exact decide_eq_true hu
    | insertUser _ | deactivate _ => exact hr.elim
    | _ => cases hop

theorem Timed.move {f' : ι → Option Dating} (h : Timed settings k s f)
    {l : Label ι DirectoryOp DirectoryAnswer PermissionJob} (hl : Prompt settings k s f l)
    (hm : (issuing settings).Move dating .initial s f l s' f') : Timed settings k s' f' := by
  cases hm with
  | start job hi =>
    apply h.put
    · refine ⟨?_, ?_⟩
      · rintro now ⟨⟩
      · rintro p ⟨⟩
    · intro hcommand
      refine ⟨hl hcommand, ?_, ?_⟩
      · rintro d ⟨⟩
      · rintro ⟨⟩
  | @call _ _ i r op a hi hr hp => exact h.call hi hr hl hp
  | crash hi hr =>
    refine ⟨h.issued, ?_, ?_⟩
    · exact fun j r hj => h.knows j r (Async.of_update_none hj).2
    · exact fun j r hj => h.command j r (Async.of_update_none hj).2
  | background hb => exact hb.elim

end Timed

abbrev Issuing (ι : Type) :=
  Config ι DirectoryOp DirectoryAnswer DirectoryError Unit PermissionJob Directory

/-- `Prompt`, of a step. -/
def PromptStep [DecidableEq ι] (settings : DirectorySettings) (k : ι) (c : Issuing ι)
    (l : Label ι DirectoryOp DirectoryAnswer PermissionJob) : Prop :=
  Prompt settings k c.shared (c.records dating .initial) l

/-- The command of process `k` has taken effect: the guard, which reads the row of the user a
signed token names, accepts none that does not carry the user's role and its permissions. -/
def TakenEffect (k : ι) (c : Issuing ι) : Prop :=
  ∀ job t, c.process k = some ⟨job, t, .done (.ok ())⟩ → job.isCommand = true →
    ∀ claims ∈ c.shared.accessTokens, ∀ u, c.shared.users.find? claims.sub = some u →
      job.Changes u →
      (∃ authorization token,
        (JwtAuthGuard.canActivate false authorization).Settles [⟨.verifyAccessToken token, some claims⟩,
          ⟨.findUserById claims.sub, .ok (some u)⟩] (.ok (some claims))) →
      Backs c.shared claims u

/-- A change of a role or its permissions takes effect. -/
theorem change_takes_effect [DecidableEq ι] {settings : DirectorySettings} {k : ι} {d : Directory}
    {c : Issuing ι} (hd : ∀ claims ∈ d.accessTokens, claims.iat ≤ d.latest / 1000)
    (h : (issuing settings).Reaches (PromptStep settings k) (.initial d) c) : TakenEffect k c := by
  have htimed : Timed settings k c.shared (c.records dating .initial) := by
    apply h.records_invariant (fun s f l => Prompt settings k s f l) (Timed settings k)
      (Dating.obeys_job settings)
    · refine ⟨hd, ?_, ?_⟩
      · rintro i r ⟨⟩
      · rintro i r ⟨⟩
    · exact fun s f l s' f' hP hl hm => hP.move hl hm
  intro job t hk hcommand claims hclaims u hu hchanges haccepted
  obtain ⟨hjob, hsucceeded⟩ := h.settled (Dating.obeys_job settings) hk
  obtain ⟨-, hdates⟩ := htimed.command k _ (Config.records_eq hk) (by rwa [Process.record, hjob])
  obtain ⟨date, hdated, hrows⟩ := hdates.withdrawn (hsucceeded rfl hcommand)
  obtain ⟨hrow, hid⟩ := Store.Table.find?_eq_some_iff.mp hu
  have hinvalidated := hrows u hrow (by rwa [Process.record, hjob])
  obtain ⟨authorization, token, hserved⟩ := haccepted
  obtain ⟨token', user, htrace, hlive⟩ := JwtAuthGuard.canActivate_settles hserved
  obtain ⟨-, rfl⟩ : token = token' ∧ some u = user := by simpa using htrace
  obtain ⟨u', hsame, -, hlater⟩ := JwtAuthGuard.assertLive_eq_ok_iff.mp hlive
  obtain rfl : u = u' := Option.some.inj hsame
  rcases hdates.backed date hdated claims hclaims with hiat | hbacks
  · exact absurd (hlater _ hinvalidated) (not_lt.mpr hiat)
  · exact hbacks u hrow hid

/-! A user of a role with one permission, which is taken from the role. -/

open Directory (sampleDirectorySettings performs_respond)
open PermissionKey (adminUsersManage)

def sampleGranted : Directory where
  users := ⟨[Account.new "a@hub" "p" "clerk" none false "a"], by decide⟩
  roles := ⟨[⟨⟨"clerk", "CLERK"⟩, "Clerk", none, .hub, false⟩], by decide⟩
  permissions := ⟨[⟨"m", adminUsersManage, .hub⟩], by decide⟩
  rolePermissions := [("clerk", "m")]
  refreshTokens := .empty
  accessTokens := [⟨"a", "CLERK", none, [adminUsersManage], false, 0, 900, "jti"⟩]
  issued := []
  latest := 0

def sampleWithdrawal : PermissionJob := .replaceRolePermissions ⟨"clerk", []⟩

def sampleSignIn : PermissionJob := .login ⟨"a@hub", "p"⟩

def sampleSigningIn : Issuing Bool := Config.put (.initial sampleGranted) true
  (some ⟨sampleSignIn, [], sampleSignIn.execute sampleDirectorySettings⟩)

/-- What `Prompt` asks at most of a call, in whatever order the other requests run. -/
def PromptAlone (job : PermissionJob) (d : Directory) (t : List (Event DirectoryOp DirectoryAnswer))
    (e : Event DirectoryOp DirectoryAnswer) : Prop :=
  match e with
  | ⟨.auth .now, now⟩ => d.latest ≤ now
  | ⟨.auth (.sign _), _⟩ => (dating.after (.initial job) t).basis.Holds d
  | _ => True

instance (job : PermissionJob) (d : Directory) (t : List (Event DirectoryOp DirectoryAnswer))
    (e : Event DirectoryOp DirectoryAnswer) : Decidable (PromptAlone job d t e) := by
  unfold PromptAlone
  split <;> infer_instance

theorem PromptAlone.prompt [DecidableEq ι] {settings : DirectorySettings} {job : PermissionJob}
    {d : Directory} {t : List (Event DirectoryOp DirectoryAnswer)}
    {e : Event DirectoryOp DirectoryAnswer} (h : PromptAlone job d t e) {k i : ι} {c : Issuing ι}
    (p : DirectoryProgram Unit) :
    PromptStep settings k ((c.withShared d).put i (some ⟨job, t, p⟩)) (.call i e) := by
  obtain ⟨op, a⟩ := e
  cases op with
  | auth op =>
    cases op with
    | now => exact fun _ _ _ _ => h
    | sign claims =>
      rcases a with e | jwt
      · trivial
      · intro r d' r' _ _ _ hi
        left
        obtain rfl : dating.after (.initial job) t = r' := by
          simpa [Config.records, Process.record] using hi
        exact h
    | _ => trivial
  | _ => trivial

/-- Calls succeed, and every reading of the clock is a second after the last. -/
def tick (d : Directory) : (op : DirectoryOp) → DirectoryAnswer op × Directory
  | .auth .now => (d.latest + 1000, { d with latest := d.latest + 1000 })
  | op => Directory.respond sampleDirectorySettings d op

theorem performs_tick (d : Directory) (op : DirectoryOp) :
    d.performs sampleDirectorySettings op (tick d op).1 (tick d op).2 := by
  unfold tick
  split
  · simp [Directory.performs, Directory.performsAuth]
  · exact performs_respond sampleDirectorySettings d op

/-- A login has read its user when the permissions of the role are replaced, and reads the role and
its permissions afterwards. Its token is accepted, and the one from before is not. -/
theorem change_takes_effect_sample : ∃ c : Issuing Bool,
    (c.process false).map (fun p => p.program.result) = some (some (.ok ())) ∧
    (c.process true).map (fun p => p.program.result) = some (some (.ok ())) ∧
    c.shared.accessTokens.map (fun claims => claims.permissions) = [[], [adminUsersManage]] ∧
    TakenEffect false c := by
  have hread : (issuing sampleDirectorySettings).Reaches (PromptStep sampleDirectorySettings false)
      (.initial sampleGranted) (sampleSigningIn.advance tick true 1) := by
    have hlogin : (issuing sampleDirectorySettings).Reaches
        (PromptStep sampleDirectorySettings false) (.initial sampleGranted) sampleSigningIn :=
      System.Reaches.refl.tail (l := .start true sampleSignIn) (by rintro ⟨⟩) (.start _ rfl)
    refine hlogin.tail (l := .call true ⟨.findUserByEmail "a@hub", _⟩) trivial
      (System.step_advance performs_tick _ ?_)
    rfl
  have hcommand := hread.solo false sampleWithdrawal rfl performs_tick (fun _ => rfl) ?_
  · have hsigned := hcommand.finish true performs_tick _ rfl ?_
    · exact ⟨_, rfl, rfl, by decide +kernel, change_takes_effect (by decide) hsigned⟩
    · refine Async.Program.SoloAll.mono (P := PromptAlone sampleSignIn) ?_ (by decide +kernel)
      exact fun _ _ _ he p => he.prompt p
  · refine Async.Program.SoloAll.mono (P := PromptAlone sampleWithdrawal) ?_ (by decide +kernel)
    exact fun _ _ _ he p => he.prompt p

/-- A login has read the permissions of the role when they are replaced, and signs its token in a
later second. -/
theorem not_change_takes_effect : ¬ ∀ c : Issuing Bool,
    (issuing sampleDirectorySettings).Reaches System.Any (.initial sampleGranted) c →
    TakenEffect false c := by
  intro h
  have hlogin : (issuing sampleDirectorySettings).Reaches System.Any
      (.initial sampleGranted : Issuing Bool) _ :=
    System.Reaches.refl.tail trivial (.start (i := true) (.login ⟨"a@hub", "p"⟩) rfl)
  have hread := hlogin.advance performs_tick true 7
  have hreplaced := (hread.tail trivial
    (.start (i := false) sampleWithdrawal rfl)).advance performs_tick false 20
  have hsigned := hreplaced.advance performs_tick true 20
  have hbacks := h _ hsigned sampleWithdrawal _ rfl rfl
    ⟨"a", "CLERK", none, [adminUsersManage], false, 5, 905, "bb"⟩ (by decide +kernel)
    { Account.new "a@hub" "p" "clerk" none false "a" with
      tokensInvalidatedAt := some 3000, lastLoginAt := some 2000 } (by decide +kernel) rfl
    ⟨some "Bearer t", _, JwtAuthGuard.canActivate_serves
      (show Js.stripPrefix _ _ = some ['t'] by decide) (by decide)⟩
  revert hbacks
  decide +kernel

end Auth
