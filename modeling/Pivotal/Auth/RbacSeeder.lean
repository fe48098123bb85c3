import Pivotal.Async.Alone
import Pivotal.Auth.Directory

/-! Seeding the roles, the permissions, the menus and their links when a replica starts. -/
namespace Auth

def dfspUserRoleCode : String := "DFSP_USER"

namespace PermissionKey

def hubCurrencyAdd : String := "hub.currency.add"

def hubSigningKeysUpdate : String := "hub.signing-keys.update"

def participantList : String := "participant.list"

def participantOnboard : String := "participant.onboard"

def participantCurrencyAdd : String := "participant.currency.add"

def participantEndpointRegister : String := "participant.endpoint.register"

def participantSigningKeysUpdate : String := "participant.signing-keys.update"

def participantAccessKeyUpdate : String := "participant.access-key.update"

def participantCertEnroll : String := "participant.certificate.enroll"

def participantCertView : String := "participant.certificate.view"

def participantCertRevoke : String := "participant.certificate.revoke"

def auditTransactionsList : String := "audit.transactions.list"

def auditTransactionsView : String := "audit.transactions.view"

def auditDashboardView : String := "audit.dashboard.view"

def adminRolesManage : String := "admin.roles.manage"

def adminPermissionsList : String := "admin.permissions.list"

end PermissionKey

namespace RbacSeeder

structure RbacStepResult where
  inserted : ℕ
  skipped : Bool
  deriving DecidableEq

structure RbacSeedResult where
  roles : RbacStepResult
  permissions : RbacStepResult
  rolePermissions : RbacStepResult
  menus : RbacStepResult
  menuPermissions : RbacStepResult
  deriving DecidableEq

structure RoleSeed where
  code : String
  name : String
  scope : RoleScope
  description : String

structure PermissionSeed where
  keyName : String
  scope : PermissionScope
  description : String

structure MenuSeed where
  menuKey : String
  groupLabel : String
  label : String
  route : String
  sortOrder : ℕ
  permissionKey : String

def roleSeeds : List RoleSeed :=
  [⟨adminRoleCode, "System Administrator", .hub, "Full access to all hub operations."⟩,
   ⟨dfspAdminRoleCode, "DFSP Administrator", .dfsp,
    "Administrator scoped to manage users within a single FSP."⟩,
   ⟨dfspUserRoleCode, "DFSP Operator", .dfsp, "Operator scoped to a single FSP by fsp_id."⟩]

def permissionSeeds : List PermissionSeed :=
  [⟨PermissionKey.hubCurrencyAdd, .hub,
    "Provision hub settlement accounts for a new currency."⟩,
   ⟨PermissionKey.hubSigningKeysUpdate, .hub,
    "Register the Hub's JWS public key, used to verify messages the Hub signs."⟩,
   ⟨PermissionKey.participantList, .hub,
    "View the list of registered participants."⟩,
   ⟨PermissionKey.participantOnboard, .hub,
    "Onboard a new FSP into the hub."⟩,
   ⟨PermissionKey.participantCurrencyAdd, .hub,
    "Enable an additional currency for an existing participant."⟩,
   ⟨PermissionKey.participantEndpointRegister, .hub,
    "Register or replace a participant's callback endpoint."⟩,
   ⟨PermissionKey.participantSigningKeysUpdate, .hub,
    "View and change a participant's JWS policy: whether Pivotal signs as them, and how " ++
      "strictly their signatures are verified."⟩,
   ⟨PermissionKey.participantAccessKeyUpdate, .hub,
    "Update the access public key used to verify a participant's signed requests."⟩,
   ⟨PermissionKey.participantCertEnroll, .hub,
    "Sign a participant's certificate request and issue a client certificate."⟩,
   ⟨PermissionKey.participantCertView, .hub,
    "View and download participant client certificates and their status."⟩,
   ⟨PermissionKey.participantCertRevoke, .hub,
    "Revoke a participant client certificate before it expires."⟩,
   ⟨PermissionKey.auditTransactionsList, .both,
    "Query the audited transactions list."⟩,
   ⟨PermissionKey.auditTransactionsView, .both,
    "View a single audited transaction by transfer ID."⟩,
   ⟨PermissionKey.auditDashboardView, .both,
    "View the transaction statistics dashboard."⟩,
   ⟨PermissionKey.adminUsersManage, .hub,
    "Manage portal user accounts (list, create, update, reset password, deactivate)."⟩,
   ⟨PermissionKey.adminDfspUsersManage, .dfsp,
    "Manage portal user accounts within the same FSP."⟩,
   ⟨PermissionKey.adminRolesManage, .hub,
    "Manage portal roles and their granted permissions."⟩,
   ⟨PermissionKey.adminPermissionsList, .hub,
    "Browse the read-only permission catalogue."⟩]

def roleGrants : List (String × List String) :=
  [(adminRoleCode, permissionSeeds.map (·.keyName)),
   (dfspAdminRoleCode,
    [PermissionKey.auditTransactionsList, PermissionKey.auditTransactionsView,
     PermissionKey.auditDashboardView, PermissionKey.adminDfspUsersManage]),
   (dfspUserRoleCode,
    [PermissionKey.auditTransactionsList, PermissionKey.auditTransactionsView,
     PermissionKey.auditDashboardView])]

def menuSeeds : List MenuSeed :=
  [⟨"hub-add-currency", "Hub", "Add Currency", "/views/hub-add-currency", 10,
    PermissionKey.hubCurrencyAdd⟩,
   ⟨"hub-list-participants", "Hub", "List Participants", "/views/hub-list-participants", 20,
    PermissionKey.participantList⟩,
   ⟨"hub-add-signing-keys", "Hub", "Hub JWS Public Key", "/views/hub-add-signing-keys", 30,
    PermissionKey.hubSigningKeysUpdate⟩,
   ⟨"participant-onboarding", "Participant", "Onboard FSP", "/views/participant-onboarding", 10,
    PermissionKey.participantOnboard⟩,
   ⟨"participant-add-new-currency", "Participant", "Add Currency", "/views/participant-add-new-currency",
    20, PermissionKey.participantCurrencyAdd⟩,
   ⟨"participant-register-endpoint", "Participant", "Register Endpoint", "/views/participant-register-endpoint",
    30, PermissionKey.participantEndpointRegister⟩,
   ⟨"participant-add-signing-keys", "Participant", "JWS Policy", "/views/participant-add-signing-keys", 40,
    PermissionKey.participantSigningKeysUpdate⟩,
   ⟨"participant-certificates", "Participant", "Certificates", "/views/participant-certificates", 50,
    PermissionKey.participantCertView⟩,
   ⟨"transactions", "Audit", "Find Transactions", "/views/transactions", 10,
    PermissionKey.auditTransactionsList⟩,
   ⟨"admin-users", "Admin", "Users", "/views/admin-users", 10,
    PermissionKey.adminUsersManage⟩,
   ⟨"admin-roles", "Admin", "Roles", "/views/admin-roles", 20,
    PermissionKey.adminRolesManage⟩,
   ⟨"admin-permissions", "Admin", "Permissions", "/views/admin-permissions", 30,
    PermissionKey.adminPermissionsList⟩]

/-- A row of `roles`. The identifier is drawn when the row is inserted, once for each code, and
the code stands for it; so do the unique keys of permissions and menus. -/
structure Role where
  code : String
  name : String
  scope : RoleScope
  description : String
  isSystem : Bool
  deriving DecidableEq

structure Permission where
  keyName : String
  scope : PermissionScope
  description : String
  deriving DecidableEq

structure RolePermission where
  role : String
  permission : String
  deriving DecidableEq

structure Menu where
  menuKey : String
  groupLabel : String
  label : String
  route : String
  sortOrder : ℕ
  deriving DecidableEq

structure MenuPermission where
  menu : String
  permission : String
  deriving DecidableEq

inductive RbacTable where
  | roles | permissions | rolePermissions | menus | menuPermissions
  deriving DecidableEq

@[reducible] def Row : RbacTable → Type
  | .roles => Role
  | .permissions => Permission
  | .rolePermissions => RolePermission
  | .menus => Menu
  | .menuPermissions => MenuPermission

instance : (t : RbacTable) → DecidableEq (Row t)
  | .roles => inferInstanceAs (DecidableEq Role)
  | .permissions => inferInstanceAs (DecidableEq Permission)
  | .rolePermissions => inferInstanceAs (DecidableEq RolePermission)
  | .menus => inferInstanceAs (DecidableEq Menu)
  | .menuPermissions => inferInstanceAs (DecidableEq MenuPermission)

/-- Two rows that a unique index keeps from standing in one table. -/
def clash : (t : RbacTable) → Row t → Row t → Bool
  | .roles, a, b => a.code == b.code
  | .permissions, a, b => a.keyName == b.keyName
  | .menus, a, b => a.menuKey == b.menuKey
  | .rolePermissions, _, _ => false
  | .menuPermissions, _, _ => false

/-- The rows of the tables, in the order of their insertion. -/
abbrev Database : Type := (t : RbacTable) → List (Row t)

namespace Database

def empty : Database := fun _ => []

/-- A table with other rows. -/
def put (s : Database) (t : RbacTable) (rows : List (Row t)) : Database := Function.update s t rows

@[simp] theorem put_self (s : Database) (t : RbacTable) (rows : List (Row t)) :
    s.put t rows t = rows := by
  simp [put]

theorem put_ne (s : Database) {t t' : RbacTable} (h : t' ≠ t) (rows : List (Row t)) :
    s.put t rows t' = s t' := by
  simp [put, h]

@[simp] theorem put_put (s : Database) (t : RbacTable) (rows rows' : List (Row t)) :
    (s.put t rows).put t rows' = s.put t rows' := by
  simp [put]

@[simp] theorem put_get (s : Database) (t : RbacTable) : s.put t (s t) = s := by
  simp [put]

end Database

inductive SeedError where
  | error (message : String)
  | duplicateEntry
  | failure
  deriving DecidableEq

/-- What the seeder awaits, each on the primary. -/
inductive Op where
  | count (t : RbacTable)
  | save (t : RbacTable) (row : Row t)
  | findByCode (code : String)
  | findByKeyName (keyName : String)
  | findByMenuKey (menuKey : String)
  deriving DecidableEq

/-- A row that is looked up by its key has it. -/
@[reducible] def Value : Op → Type
  | .count _ => ℕ
  | .save _ _ => Unit
  | .findByCode code => Option {role : Role // role.code = code}
  | .findByKeyName keyName => Option {permission : Permission // permission.keyName = keyName}
  | .findByMenuKey menuKey => Option {menu : Menu // menu.menuKey = menuKey}

@[reducible] def Answer (op : Op) : Type := Except SeedError (Value op)

abbrev Calls : Type → Type := Async.Program Op Answer SeedError

def ask (op : Op) : Calls (Value op) := do
  let answer ← Async.Program.perform op
  .lift answer

/-- A step, where its table has no rows yet. -/
def unlessPopulated (t : RbacTable) (step : Calls RbacStepResult) : Calls RbacStepResult := do
  let count ← ask (.count t)
  if count > 0 then return ⟨0, true⟩
  step

/-- The rows of a table, one by one. -/
def saveRows (t : RbacTable) (rows : List (Row t)) : Calls Unit :=
  rows.foldlM (fun _ row => ask (.save t row)) ()

def RoleSeed.row (seed : RoleSeed) : Role :=
  ⟨seed.code, seed.name, seed.scope, seed.description, true⟩

def PermissionSeed.row (seed : PermissionSeed) : Permission :=
  ⟨seed.keyName, seed.scope, seed.description⟩

def MenuSeed.row (seed : MenuSeed) : Menu :=
  ⟨seed.menuKey, seed.groupLabel, seed.label, seed.route, seed.sortOrder⟩

def seedRoles : Calls RbacStepResult := unlessPopulated .roles do
  saveRows .roles (roleSeeds.map RoleSeed.row)
  return ⟨roleSeeds.length, false⟩

def seedPermissions : Calls RbacStepResult := unlessPopulated .permissions do
  saveRows .permissions (permissionSeeds.map PermissionSeed.row)
  return ⟨permissionSeeds.length, false⟩

/-- The links of one role. -/
def grant (role : Role) (inserted : ℕ) (permissionKeys : List String) : Calls ℕ :=
  permissionKeys.foldlM (fun inserted permissionKey => do
    match ← ask (.findByKeyName permissionKey) with
    | none => throw (.error ("Cannot seed role_permissions: permission '" ++ permissionKey ++
        "' not found."))
    | some permission =>
      ask (.save .rolePermissions ⟨role.code, permission.val.keyName⟩)
      return inserted + 1) inserted

def seedRolePermissions : Calls RbacStepResult := unlessPopulated .rolePermissions do
  let inserted ← roleGrants.foldlM (fun inserted entry => do
    match ← ask (.findByCode entry.1) with
    | none => throw (.error ("Cannot seed role_permissions: role '" ++ entry.1 ++ "' not found."))
    | some role => grant role inserted entry.2) 0
  return ⟨inserted, false⟩

def seedMenus : Calls RbacStepResult := unlessPopulated .menus do
  saveRows .menus (menuSeeds.map MenuSeed.row)
  return ⟨menuSeeds.length, false⟩

def usersMenuKey : String := "admin-users"

/-- The link of one menu. -/
def linkMenu (inserted : ℕ) (seed : MenuSeed) : Calls ℕ := do
  match ← ask (.findByMenuKey seed.menuKey) with
  | none => throw (.error ("Cannot seed menu_permissions: menu '" ++ seed.menuKey ++
      "' not found."))
  | some menu =>
    match ← ask (.findByKeyName seed.permissionKey) with
    | none => throw (.error ("Cannot seed menu_permissions: permission '" ++ seed.permissionKey ++
        "' not found."))
    | some permission =>
      ask (.save .menuPermissions ⟨menu.val.menuKey, permission.val.keyName⟩)
      return inserted + 1

def seedMenuPermissions : Calls RbacStepResult := unlessPopulated .menuPermissions do
  let inserted ← menuSeeds.foldlM linkMenu 0
  let usersMenu ← ask (.findByMenuKey usersMenuKey)
  let dfspUsersPermission ← ask (.findByKeyName PermissionKey.adminDfspUsersManage)
  match usersMenu, dfspUsersPermission with
  | some menu, some permission =>
    ask (.save .menuPermissions ⟨menu.val.menuKey, permission.val.keyName⟩)
    return ⟨inserted + 1, false⟩
  | _, _ => return ⟨inserted, false⟩

def seed : Calls RbacSeedResult := do
  let roles ← seedRoles
  let permissions ← seedPermissions
  let rolePermissions ← seedRolePermissions
  let menus ← seedMenus
  let menuPermissions ← seedMenuPermissions
  return ⟨roles, permissions, rolePermissions, menus, menuPermissions⟩

section Lookup

variable {α : Type} {key : α → String}

/-- The first row with a key, by a unique index the only one. -/
def findBy (key : α → String) (k : String) : List α → Option {row : α // key row = k}
  | [] => none
  | row :: rows => if h : key row = k then some ⟨row, h⟩ else findBy key k rows

theorem findBy_isSome {k : String} {rows : List α} (h : ∃ row ∈ rows, key row = k) :
    ∃ row, findBy key k rows = some row := by
  induction rows with
  | nil => simp at h
  | cons row rows ih =>
    simp only [findBy]
    split
    · exact ⟨_, rfl⟩
    · rename_i hrow
      obtain ⟨row', hmem, hkey⟩ := h
      rcases List.mem_cons.mp hmem with rfl | hmem
      · exact absurd hkey hrow
      · exact ih ⟨row', hmem, hkey⟩

end Lookup

namespace Database

/-- What a call answers that does not fail. -/
def answer (s : Database) : (op : Op) → Answer op
  | .count t => .ok (s t).length
  | .save t row => if (s t).any (clash t row) then .error .duplicateEntry else .ok ()
  | .findByCode code => .ok (findBy Role.code code (s .roles))
  | .findByKeyName keyName => .ok (findBy Permission.keyName keyName (s .permissions))
  | .findByMenuKey menuKey => .ok (findBy Menu.menuKey menuKey (s .menus))

/-- Saving a link that stands in its table leaves it there. -/
def after (s : Database) : Op → Database
  | .save t row =>
    if (s t).any (clash t row) ∨ row ∈ s t then s else s.put t (s t ++ [row])
  | _ => s

def respond (s : Database) (op : Op) : Answer op × Database := (s.answer op, s.after op)

/-- The database answers, or the call fails, with its effect or without. -/
def Performs (s : Database) (op : Op) (a : Answer op) (s' : Database) : Prop :=
  (a, s') = s.respond op ∨ a = .error .failure ∧ (s' = s ∨ s' = s.after op)

/-- No call fails. -/
def Responds (s : Database) (op : Op) (a : Answer op) (s' : Database) : Prop :=
  (a, s') = s.respond op

end Database

/-- Replicas that start at any moment, each running the seeder. -/
def system : Async.System Op Answer SeedError RbacSeedResult Unit Database where
  entry _ := seed
  perform := Database.Performs
  background _ _ := False

end RbacSeeder
end Auth
