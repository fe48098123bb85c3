import Pivotal.Auth.RbacSeeder

/-! What a seeder that runs alone makes of the tables that crashed and overlapping ones left. -/
namespace Auth.RbacSeeder
open Async (Program)

/-- Every row the seeder is to leave. -/
def seedRows : (t : RbacTable) → List (Row t)
  | .roles => roleSeeds.map RoleSeed.row
  | .permissions => permissionSeeds.map PermissionSeed.row
  | .rolePermissions => roleGrants.flatMap fun entry => entry.2.map fun key => ⟨entry.1, key⟩
  | .menus => menuSeeds.map MenuSeed.row
  | .menuPermissions => menuSeeds.map (fun seed => ⟨seed.menuKey, seed.permissionKey⟩) ++
      [⟨usersMenuKey, PermissionKey.adminDfspUsersManage⟩]

/-- Exactly the seeded rows, each once. -/
def Database.Complete (s : Database) : Prop := ∀ t, (s t).Perm (seedRows t)

/-- Seeded rows only, none twice. -/
def Database.Sound (s : Database) : Prop := ∀ t, (s t).Nodup ∧ ∀ row ∈ s t, row ∈ seedRows t

/-- A row that may be saved beside another. -/
def Apart (t : RbacTable) (a b : Row t) : Prop := clash t b a = false ∧ a ≠ b

instance (t : RbacTable) (a b : Row t) : Decidable (Apart t a b) :=
  inferInstanceAs (Decidable (_ ∧ _))

theorem seedRows_apart (t : RbacTable) : (seedRows t).Pairwise (Apart t) := by
  cases t <;> decide

/-- A role, a permission or a menu that a link needs is seeded. -/
theorem grants_seeded : ∀ entry ∈ roleGrants, (∃ row ∈ seedRows .roles, Role.code row = entry.1) ∧
    ∀ key ∈ entry.2, ∃ row ∈ seedRows .permissions, Permission.keyName row = key := by
  decide

theorem menus_seeded : ∀ seed ∈ menuSeeds, (∃ row ∈ seedRows .menus, Menu.menuKey row = seed.menuKey) ∧
    ∃ row ∈ seedRows .permissions, Permission.keyName row = seed.permissionKey := by
  decide

theorem usersLink_seeded : (∃ row ∈ seedRows .menus, Menu.menuKey row = usersMenuKey) ∧
    ∃ row ∈ seedRows .permissions,
      Permission.keyName row = PermissionKey.adminDfspUsersManage := by
  decide

/-- What a step for a table may save. -/
def SavesIn (t : RbacTable) : Op → Prop
  | .save t' row => t' = t ∧ row ∈ seedRows t'
  | _ => True

section Within

variable {P : Op → Prop} {t : RbacTable}

theorem ask_within {op : Op} (h : P op) : (ask op).Within P :=
  (Program.within_perform.mpr h).bind fun _ => Program.within_lift _

theorem unlessPopulated_within {step : Calls RbacStepResult} (h : step.Within (SavesIn t)) :
    (unlessPopulated t step).Within (SavesIn t) := by
  refine (ask_within trivial).bind fun count => ?_
  split
  · trivial
  · exact h

theorem saveRows_within {rows : List (Row t)} (h : ∀ row ∈ rows, row ∈ seedRows t) :
    (saveRows t rows).Within (SavesIn t) := by
  refine Program.Within.foldlM (fun _ row hrow => ?_) ()
  refine ask_within ?_
  exact ⟨rfl, h row hrow⟩

/-- A table whose rows need no others. -/
def seedTable (t : RbacTable) (inserted : ℕ) : Calls RbacStepResult := unlessPopulated t do
  saveRows t (seedRows t)
  return ⟨inserted, false⟩

theorem seedTable_within (inserted : ℕ) : (seedTable t inserted).Within (SavesIn t) :=
  unlessPopulated_within ((saveRows_within fun _ h => h).bind fun _ => trivial)

theorem mem_grants {entry : String × List String} (hentry : entry ∈ roleGrants) {key : String}
    (hkey : key ∈ entry.2) : (⟨entry.1, key⟩ : RolePermission) ∈ seedRows .rolePermissions :=
  List.mem_flatMap.mpr ⟨entry, hentry, List.mem_map.mpr ⟨key, hkey, rfl⟩⟩

theorem grant_within {entry : String × List String} (hentry : entry ∈ roleGrants)
    (role : {role : Role // role.code = entry.1}) (inserted : ℕ) :
    (grant role inserted entry.2).Within (SavesIn .rolePermissions) := by
  refine .foldlM (fun inserted key hkey => ?_) inserted
  refine (ask_within trivial).bind fun permission => ?_
  cases permission with
  | none => trivial
  | some permission =>
    refine (ask_within ⟨rfl, ?_⟩).bind fun _ => trivial
    rw [role.property, permission.property]
    exact mem_grants hentry hkey

theorem seedRolePermissions_within : seedRolePermissions.Within (SavesIn .rolePermissions) := by
  refine unlessPopulated_within (Program.Within.bind (.foldlM (fun inserted entry hentry => ?_) 0)
    fun _ => trivial)
  refine (ask_within trivial).bind fun role => ?_
  cases role with
  | none => trivial
  | some role => exact grant_within hentry role inserted

theorem mem_links {seed : MenuSeed} (hseed : seed ∈ menuSeeds) :
    (⟨seed.menuKey, seed.permissionKey⟩ : MenuPermission) ∈ seedRows .menuPermissions :=
  List.mem_append_left _ (List.mem_map.mpr ⟨seed, hseed, rfl⟩)

theorem linkMenu_within {seed : MenuSeed} (hseed : seed ∈ menuSeeds) (inserted : ℕ) :
    (linkMenu inserted seed).Within (SavesIn .menuPermissions) := by
  refine (ask_within trivial).bind fun menu => ?_
  cases menu with
  | none => trivial
  | some menu =>
    refine (ask_within trivial).bind fun permission => ?_
    cases permission with
    | none => trivial
    | some permission =>
      refine (ask_within ⟨rfl, ?_⟩).bind fun _ => trivial
      rw [menu.property, permission.property]
      exact mem_links hseed

theorem seedMenuPermissions_within : seedMenuPermissions.Within (SavesIn .menuPermissions) := by
  refine unlessPopulated_within (Program.Within.bind
    (.foldlM (fun inserted seed hseed => linkMenu_within hseed inserted) 0) fun inserted => ?_)
  refine (ask_within trivial).bind fun menu => (ask_within trivial).bind fun permission => ?_
  rcases menu with _ | menu <;> rcases permission with _ | permission
  · trivial
  · trivial
  · trivial
  · refine (ask_within ⟨rfl, ?_⟩).bind fun _ => trivial
    rw [menu.property, permission.property]
    exact List.mem_append_right _ List.mem_cons_self

end Within

section Sound

variable {s s' : Database} {t : RbacTable}

theorem Database.Sound.put (h : s.Sound) {rows : List (Row t)}
    (hrows : rows.Nodup ∧ ∀ row ∈ rows, row ∈ seedRows t) : (s.put t rows).Sound := by
  intro t'
  by_cases ht : t' = t
  · subst ht
    simpa using hrows
  · rw [Database.put_ne s ht]
    exact h t'

theorem Database.Sound.after (h : s.Sound) {op : Op} (hop : SavesIn t op) : (s.after op).Sound := by
  cases op with
  | save t' row =>
    simp only [Database.after]
    split
    · exact h
    · rename_i hnew
      refine h.put ⟨?_, ?_⟩
      · refine List.nodup_append.mpr ⟨(h t').1, List.nodup_singleton row, ?_⟩
        rintro a ha b hb rfl
        rw [List.mem_singleton.mp hb] at ha
        exact hnew (.inr ha)
      · intro a ha
        rcases List.mem_append.mp ha with ha | ha
        · exact (h t').2 a ha
        · rw [List.mem_singleton.mp ha]
          exact hop.2
  | _ => exact h

theorem Database.Sound.performs (h : s.Sound) {op : Op} (hop : ∃ t, SavesIn t op) {a : Answer op}
    (hs : s.Performs op a s') : s'.Sound := by
  obtain ⟨t, hop⟩ := hop
  rcases hs with hs | ⟨-, rfl | rfl⟩
  · rw [show s' = s.after op from congrArg Prod.snd hs]
    exact h.after hop
  · exact h
  · exact h.after hop

/-- The seeder only saves seeded rows. -/
theorem seed_within : seed.Within fun op => ∃ t, SavesIn t op := by
  have hsome : ∀ {t : RbacTable} {p : Calls RbacStepResult}, p.Within (SavesIn t) →
      p.Within fun op => ∃ t, SavesIn t op := fun h => h.mono fun op hop => ⟨_, hop⟩
  refine (hsome (seedTable_within _)).bind fun _ => ?_
  refine (hsome (seedTable_within _)).bind fun _ => ?_
  refine (hsome seedRolePermissions_within).bind fun _ => ?_
  refine (hsome (seedTable_within _)).bind fun _ => ?_
  exact (hsome seedMenuPermissions_within).bind fun _ => trivial

variable {ι : Type} [DecidableEq ι]

/-- Whatever the seeders did and whenever they stopped, the tables are sound. -/
theorem reaches_sound {c : Async.Config ι Op Answer SeedError RbacSeedResult Unit Database}
    (h : system.Reaches Async.System.Any (.initial Database.empty) c) : c.shared.Sound := by
  refine h.invariant (P := fun c => c.shared.Sound) (fun t => ⟨List.nodup_nil, nofun⟩) ?_
  intro c c' l hr hsound _ hs
  cases hs with
  | start => exact hsound
  | @call i job t op resume a s hi hp =>
    have hrun := (hr.process_runs hi).snoc a
    exact hsound.performs (Program.Within.of_runs seed_within hrun _ (List.mem_concat_self)) hp
  | crash => exact hsound
  | background hb => exact hb.elim

end Sound

section Frame

variable {s s' : Database} {t : RbacTable}

/-- A step for another table leaves a table alone. -/
theorem Database.after_of_ne {op : Op} {t' : RbacTable} (hop : SavesIn t' op) (h : t ≠ t') :
    s.after op t = s t := by
  cases op with
  | save t'' row =>
    obtain rfl : t'' = t' := hop.1
    simp only [Database.after]
    split
    · rfl
    · exact s.put_ne h _
  | _ => rfl

theorem unlessPopulated_populated {step : Calls RbacStepResult}
    {Q : Database → Except SeedError RbacStepResult → Prop} (h : s t ≠ []) :
    (unlessPopulated t step).Ensures Database.Responds s Q ↔ Q s (.ok ⟨0, true⟩) := by
  have hcount : (s t).length > 0 := List.length_pos_of_ne_nil h
  constructor
  · intro hq
    have hnext := hq _ _ rfl
    change Program.Ensures _ (if (s t).length > 0 then _ else _) _ _ at hnext
    rwa [if_pos hcount] at hnext
  · rintro hq a s' ⟨⟩
    change Program.Ensures _ (if (s t).length > 0 then _ else _) _ _
    rwa [if_pos hcount]

theorem unlessPopulated_keeps {t' : RbacTable} {step : Calls RbacStepResult}
    (hstep : (unlessPopulated t' step).Within (SavesIn t')) (h : s t ≠ []) (hs : s' t = s t) :
    (unlessPopulated t' step).Ensures Database.Responds s' fun s'' _ => s'' t = s t := by
  by_cases ht : t = t'
  · subst ht
    exact (unlessPopulated_populated (hs ▸ h)).mpr hs
  · refine hstep.ensures (fun s₁ op a s₂ hop hs₁ hr => ?_) hs
    rw [show s₂ = s₁.after op from congrArg Prod.snd hr, Database.after_of_ne hop ht]
    exact hs₁

theorem seed_keeps (h : s t ≠ []) :
    seed.Ensures Database.Responds s fun s' _ => s' t = s t := by
  refine (unlessPopulated_keeps (seedTable_within _) h rfl).bind fun _ s₁ h₁ => ?_
  refine (unlessPopulated_keeps (seedTable_within _) h h₁).bind fun _ s₂ h₂ => ?_
  refine (unlessPopulated_keeps seedRolePermissions_within h h₂).bind fun _ s₃ h₃ => ?_
  refine (unlessPopulated_keeps (seedTable_within _) h h₃).bind fun _ s₄ h₄ => ?_
  exact (unlessPopulated_keeps seedMenuPermissions_within h h₄).bind fun _ s₅ h₅ => h₅

/-- The seeder saves seeded rows only, and none twice. -/
theorem seed_sound (h : s.Sound) : seed.Ensures Database.Responds s fun s' _ => s'.Sound :=
  seed_within.ensures (fun _ _ _ _ hop hs hr => hs.performs hop (.inl hr)) h

end Frame

section Fill

variable {s s' : Database} {t : RbacTable}

/-- A table has its seeded rows, and the others are as they were. -/
def Filled (t : RbacTable) (s s' : Database) : Prop :=
  (s' t).Perm (seedRows t) ∧ ∀ t', t' ≠ t → s' t' = s t'

theorem unlessPopulated_empty {step : Calls RbacStepResult}
    {Q : Database → Except SeedError RbacStepResult → Prop} (h : s t = []) :
    (unlessPopulated t step).Ensures Database.Responds s Q ↔
      step.Ensures Database.Responds s Q := by
  have hcount : ¬ (s t).length > 0 := by simp [h]
  constructor
  · intro hq
    have hnext := hq _ _ rfl
    change Program.Ensures _ (if (s t).length > 0 then _ else _) _ _ at hnext
    rwa [if_neg hcount] at hnext
  · rintro hq a s' ⟨⟩
    change Program.Ensures _ (if (s t).length > 0 then _ else _) _ _
    rwa [if_neg hcount]

/-- A step fills its table, or finds it full. -/
theorem unlessPopulated_fills {step : Calls RbacStepResult}
    (h : s t = [] ∨ (s t).Perm (seedRows t))
    (hstep : s t = [] → step.Succeeds Database.Responds s fun s' _ => s' = s.put t (seedRows t)) :
    (unlessPopulated t step).Succeeds Database.Responds s fun s' _ => Filled t s s' := by
  by_cases hempty : s t = []
  · refine (unlessPopulated_empty hempty).mpr (Program.Succeeds.mono (hstep hempty) ?_)
    rintro s' - rfl
    exact ⟨by simp, fun t' ht => s.put_ne ht _⟩
  · exact (unlessPopulated_populated hempty).mpr
      ⟨_, rfl, h.resolve_left hempty, fun _ _ => rfl⟩

theorem save_succeeds {rows : List (Row t)} {row : Row t} (h : ∀ r ∈ rows, Apart t r row) :
    (ask (.save t row)).Succeeds Database.Responds (s.put t rows)
      fun s' _ => s' = s.put t (rows ++ [row]) := by
  have hclash : rows.any (clash t row) = false := by
    rw [List.any_eq_false]
    intro r hr
    simp [(h r hr).1]
  have hnew : row ∉ rows := fun hr => (h row hr).2 rfl
  rintro a s' ⟨⟩
  refine ⟨(), ?_, ?_⟩
  · simp [Database.answer, hclash]
  · simp [Database.after, hclash, hnew]

/-- The rows before one of a list of rows apart are apart from it. -/
theorem apart_of_append {rows before after : List (Row t)} {row : Row t}
    (h : rows.Pairwise (Apart t)) (hrows : rows = before ++ row :: after) :
    ∀ r ∈ before, Apart t r row := by
  subst hrows
  exact fun r hr => (List.pairwise_append.mp h).2.2 r hr row List.mem_cons_self

/-- The next of the seeded rows is saved, however it has been put together. -/
theorem save_link_succeeds {before after : List (Row t)} {row row' : Row t} (hrow : row = row')
    (hsplit : seedRows t = before ++ row :: after) :
    (ask (.save t row')).Succeeds Database.Responds (s.put t before)
      fun s' _ => s' = s.put t (before ++ [row]) :=
  hrow ▸ save_succeeds (apart_of_append (seedRows_apart t) hsplit)

theorem saveRows_succeeds {rows : List (Row t)} (h : rows.Pairwise (Apart t)) (hs : s t = []) :
    (saveRows t rows).Succeeds Database.Responds s fun s' _ => s' = s.put t rows := by
  refine Program.Succeeds.foldlM (fun before s' _ => s' = s.put t before) ?_ ?_
  · rintro before row after hrows s' - rfl
    exact save_succeeds (apart_of_append h hrows)
  · simp [← hs]

theorem ask_succeeds {op : Op} {value : Value op} (h : s.answer op = .ok value) :
    (ask op).Succeeds Database.Responds s fun s' a => s' = s.after op ∧ a = value := by
  rintro a s' ⟨⟩
  exact ⟨value, h, rfl, rfl⟩

theorem findByCode_succeeds {code : String} (h : ∃ row ∈ s .roles, row.code = code) :
    (ask (.findByCode code)).Succeeds Database.Responds s fun s' role =>
      s' = s ∧ ∃ row, role = some row := by
  obtain ⟨row, hrow⟩ := findBy_isSome h
  have hanswer : s.answer (.findByCode code) = .ok (some row) := congrArg Except.ok hrow
  exact (ask_succeeds hanswer).mono fun s' _ h => ⟨h.1, row, h.2⟩

theorem findByKeyName_succeeds {keyName : String}
    (h : ∃ row ∈ s .permissions, row.keyName = keyName) :
    (ask (.findByKeyName keyName)).Succeeds Database.Responds s fun s' permission =>
      s' = s ∧ ∃ row, permission = some row := by
  obtain ⟨row, hrow⟩ := findBy_isSome h
  have hanswer : s.answer (.findByKeyName keyName) = .ok (some row) := congrArg Except.ok hrow
  exact (ask_succeeds hanswer).mono fun s' _ h => ⟨h.1, row, h.2⟩

theorem findByMenuKey_succeeds {menuKey : String} (h : ∃ row ∈ s .menus, row.menuKey = menuKey) :
    (ask (.findByMenuKey menuKey)).Succeeds Database.Responds s fun s' menu =>
      s' = s ∧ ∃ row, menu = some row := by
  obtain ⟨row, hrow⟩ := findBy_isSome h
  have hanswer : s.answer (.findByMenuKey menuKey) = .ok (some row) := congrArg Except.ok hrow
  exact (ask_succeeds hanswer).mono fun s' _ h => ⟨h.1, row, h.2⟩

theorem exists_of_perm {p : Row t → Prop} (ht : (s t).Perm (seedRows t))
    (h : ∃ row ∈ seedRows t, p row) : ∃ row ∈ s t, p row := by
  obtain ⟨row, hrow, hp⟩ := h
  exact ⟨row, ht.mem_iff.mpr hrow, hp⟩

def links (grants : List (String × List String)) : List RolePermission :=
  grants.flatMap fun entry => entry.2.map fun key => ⟨entry.1, key⟩

theorem grant_succeeds {before after : List (String × List String)}
    {entry : String × List String} (hgrants : roleGrants = before ++ entry :: after)
    (hpermissions : (s .permissions).Perm (seedRows .permissions))
    (role : {role : Role // role.code = entry.1}) (inserted : ℕ) :
    (grant role inserted entry.2).Succeeds Database.Responds
      (s.put .rolePermissions (links before)) fun s' _ =>
        s' = s.put .rolePermissions (links (before ++ [entry])) := by
  have hentry : entry ∈ roleGrants := hgrants ▸ List.mem_append_right _ List.mem_cons_self
  refine Program.Succeeds.mono (Program.Succeeds.foldlM (fun done s' _ => s' = s.put .rolePermissions
    (links before ++ done.map fun key => ⟨entry.1, key⟩)) ?_ (by simp)) ?_
  · rintro done key rest hkeys s' inserted rfl
    have hkey : key ∈ entry.2 := hkeys ▸ List.mem_append_right _ List.mem_cons_self
    have hfound := exists_of_perm hpermissions ((grants_seeded entry hentry).2 key hkey)
    rw [← s.put_ne (t := .rolePermissions) (by decide) (links before ++ done.map _)] at hfound
    refine (findByKeyName_succeeds hfound).bind ?_
    rintro _ s' ⟨rfl, permission, rfl⟩
    have hlink : (⟨role.val.code, permission.val.keyName⟩ : RolePermission) = ⟨entry.1, key⟩ := by
      rw [role.property, permission.property]
    have hsplit : seedRows .rolePermissions =
        (links before ++ done.map fun key => ⟨entry.1, key⟩) ++ ⟨entry.1, key⟩ ::
          ((rest.map fun key => ⟨entry.1, key⟩) ++ links after) := by
      change links roleGrants = _
      simp [hgrants, links, hkeys]
    refine Program.Succeeds.bind (save_link_succeeds hlink.symm hsplit) ?_
    rintro - s' rfl
    exact Program.succeeds_pure (by simp)
  · rintro s' - rfl
    simp [links]

theorem seedTable_fills (h : s t = [] ∨ (s t).Perm (seedRows t)) (inserted : ℕ) :
    (seedTable t inserted).Succeeds Database.Responds s fun s' _ => Filled t s s' :=
  unlessPopulated_fills h fun hempty => Program.Succeeds.bind
    (saveRows_succeeds (seedRows_apart t) hempty) fun _ _ hs => Program.succeeds_pure hs

theorem seedRolePermissions_fills
    (h : s .rolePermissions = [] ∨ (s .rolePermissions).Perm (seedRows .rolePermissions))
    (hroles : (s .roles).Perm (seedRows .roles))
    (hpermissions : (s .permissions).Perm (seedRows .permissions)) :
    seedRolePermissions.Succeeds Database.Responds s fun s' _ => Filled .rolePermissions s s' := by
  refine unlessPopulated_fills h fun hempty => Program.Succeeds.bind (Program.Succeeds.foldlM
    (fun before s' _ => s' = s.put .rolePermissions (links before)) ?_ ?_)
    fun _ _ hs => Program.succeeds_pure hs
  · rintro before entry after hgrants s' inserted rfl
    have hentry : entry ∈ roleGrants := hgrants ▸ List.mem_append_right _ List.mem_cons_self
    have hfound := exists_of_perm hroles (grants_seeded entry hentry).1
    rw [← s.put_ne (t := .rolePermissions) (by decide) (links before)] at hfound
    refine (findByCode_succeeds hfound).bind ?_
    rintro _ s' ⟨rfl, role, rfl⟩
    exact grant_succeeds hgrants hpermissions role inserted
  · exact (hempty ▸ s.put_get .rolePermissions).symm

def menuLinks (seeds : List MenuSeed) : List MenuPermission :=
  seeds.map fun seed => ⟨seed.menuKey, seed.permissionKey⟩

theorem linkMenu_succeeds {before after : List MenuSeed} {seed : MenuSeed}
    (hseeds : menuSeeds = before ++ seed :: after) (hmenus : (s .menus).Perm (seedRows .menus))
    (hpermissions : (s .permissions).Perm (seedRows .permissions)) (inserted : ℕ) :
    (linkMenu inserted seed).Succeeds Database.Responds (s.put .menuPermissions (menuLinks before))
      fun s' _ => s' = s.put .menuPermissions (menuLinks (before ++ [seed])) := by
  have hseed : seed ∈ menuSeeds := hseeds ▸ List.mem_append_right _ List.mem_cons_self
  have hmenu := exists_of_perm hmenus (menus_seeded seed hseed).1
  have hpermission := exists_of_perm hpermissions (menus_seeded seed hseed).2
  rw [← s.put_ne (t := .menuPermissions) (by decide) (menuLinks before)] at hmenu hpermission
  refine (findByMenuKey_succeeds hmenu).bind ?_
  rintro _ s' ⟨rfl, menu, rfl⟩
  refine (findByKeyName_succeeds hpermission).bind ?_
  rintro _ s' ⟨rfl, permission, rfl⟩
  have hlink : (⟨menu.val.menuKey, permission.val.keyName⟩ : MenuPermission) =
      ⟨seed.menuKey, seed.permissionKey⟩ := by
    rw [menu.property, permission.property]
  have hsplit : seedRows .menuPermissions =
      menuLinks before ++ ⟨seed.menuKey, seed.permissionKey⟩ :: (menuLinks after ++
        [⟨usersMenuKey, PermissionKey.adminDfspUsersManage⟩]) := by
    change menuLinks menuSeeds ++ _ = _
    simp [hseeds, menuLinks]
  refine Program.Succeeds.bind (save_link_succeeds hlink.symm hsplit) ?_
  rintro - s' rfl
  exact Program.succeeds_pure (by simp [menuLinks])

theorem seedMenuPermissions_fills
    (h : s .menuPermissions = [] ∨ (s .menuPermissions).Perm (seedRows .menuPermissions))
    (hmenus : (s .menus).Perm (seedRows .menus))
    (hpermissions : (s .permissions).Perm (seedRows .permissions)) :
    seedMenuPermissions.Succeeds Database.Responds s fun s' _ => Filled .menuPermissions s s' := by
  refine unlessPopulated_fills h fun hempty => Program.Succeeds.bind (Program.Succeeds.foldlM
    (fun before s' _ => s' = s.put .menuPermissions (menuLinks before)) ?_ ?_) ?_
  · rintro before seed after hseeds s' inserted rfl
    exact linkMenu_succeeds hseeds hmenus hpermissions inserted
  · exact (hempty ▸ s.put_get .menuPermissions).symm
  · rintro inserted s' rfl
    have hmenu := exists_of_perm hmenus usersLink_seeded.1
    have hpermission := exists_of_perm hpermissions usersLink_seeded.2
    rw [← s.put_ne (t := .menuPermissions) (by decide) (menuLinks menuSeeds)] at hmenu hpermission
    refine (findByMenuKey_succeeds hmenu).bind ?_
    rintro _ s' ⟨rfl, menu, rfl⟩
    refine (findByKeyName_succeeds hpermission).bind ?_
    rintro _ s' ⟨rfl, permission, rfl⟩
    have hlink : (⟨menu.val.menuKey, permission.val.keyName⟩ : MenuPermission) =
        ⟨usersMenuKey, PermissionKey.adminDfspUsersManage⟩ := by
      rw [menu.property, permission.property]
    have hsplit : seedRows .menuPermissions = menuLinks menuSeeds ++
        ⟨usersMenuKey, PermissionKey.adminDfspUsersManage⟩ :: [] := rfl
    refine Program.Succeeds.bind (save_link_succeeds hlink.symm hsplit) ?_
    rintro - s' rfl
    exact Program.succeeds_pure (by rw [hsplit])

/-- Each table is empty or full, those that are done full. -/
def Ready (done : List RbacTable) (s : Database) : Prop :=
  (∀ t, s t = [] ∨ (s t).Perm (seedRows t)) ∧ ∀ t ∈ done, (s t).Perm (seedRows t)

theorem Ready.fill {done : List RbacTable} (h : Ready done s) (hs : Filled t s s') :
    Ready (t :: done) s' := by
  have hperm : ∀ t', t' = t ∨ (s t').Perm (seedRows t') → (s' t').Perm (seedRows t') := by
    intro t' ht'
    by_cases heq : t' = t
    · subst heq
      exact hs.1
    · rw [hs.2 t' heq]
      exact ht'.resolve_left heq
  refine ⟨fun t' => ?_, fun t' ht' => hperm t' ((List.mem_cons.mp ht').imp_right (h.2 t'))⟩
  by_cases heq : t' = t
  · exact .inr (hperm t' (.inl heq))
  · rw [hs.2 t' heq]
    exact h.1 t'

/-- From tables that are each empty or full, the seeder fills them all. -/
theorem seed_completes (h : ∀ t, s t = [] ∨ (s t).Perm (seedRows t)) :
    seed.Succeeds Database.Responds s fun s' _ => s'.Complete := by
  have h₀ : Ready [] s := ⟨h, nofun⟩
  refine (seedTable_fills (h₀.1 _) _).bind fun _ s₁ hs₁ => ?_
  have h₁ := h₀.fill hs₁
  refine (seedTable_fills (h₁.1 _) _).bind fun _ s₂ hs₂ => ?_
  have h₂ := h₁.fill hs₂
  refine (seedRolePermissions_fills (h₂.1 _) (h₂.2 _ (by simp)) (h₂.2 _ (by simp))).bind
    fun _ s₃ hs₃ => ?_
  have h₃ := h₂.fill hs₃
  refine (seedTable_fills (h₃.1 _) _).bind fun _ s₄ hs₄ => ?_
  have h₄ := h₃.fill hs₄
  refine (seedMenuPermissions_fills (h₄.1 _) (h₄.2 _ (by simp)) (h₄.2 _ (by simp))).bind
    fun _ s₅ hs₅ => ?_
  refine Program.succeeds_pure fun t => (h₄.fill hs₅).2 t ?_
  cases t <;> simp

end Fill

section Restart

variable {ι : Type} [DecidableEq ι]

/-- The tables after a run of the seeder with nothing in between. -/
def Database.seeded (s : Database) : Database := (seed.solo Database.respond s []).1

theorem executes_seeded (s : Database) :
    ∃ r, seed.Executes Database.Responds s r s.seeded :=
  ⟨_, Program.executes_solo (fun _ _ => rfl) seed s []⟩

/-- What a seeder that runs alone leaves, whatever the seeders before it did and wherever they
stopped: seeded rows only, none twice, and a table that had rows as it was. All of the rows are
there exactly when no table was left with a part of its own. -/
theorem seed_completes_iff
    {c : Async.Config ι Op Answer SeedError RbacSeedResult Unit Database}
    (h : system.Reaches Async.System.Any (.initial Database.empty) c) :
    c.shared.seeded.Sound ∧ (∀ t, c.shared t ≠ [] → c.shared.seeded t = c.shared t) ∧
      (c.shared.seeded.Complete ↔ ∀ t, c.shared t = [] ∨ (c.shared t).Perm (seedRows t)) ∧
      (c.shared.seeded.Complete → ∀ permission ∈ c.shared.seeded .permissions,
        ⟨adminRoleCode, permission.keyName⟩ ∈ c.shared.seeded .rolePermissions) := by
  obtain ⟨r, hrun⟩ := executes_seeded c.shared
  have hkeeps : ∀ t, c.shared t ≠ [] → c.shared.seeded t = c.shared t :=
    fun t ht => (seed_keeps ht).of_executes hrun
  refine ⟨(seed_sound (reaches_sound h)).of_executes hrun, hkeeps, ⟨fun hcomplete t => ?_, ?_⟩, ?_⟩
  · by_cases ht : c.shared t = []
    · exact .inl ht
    · exact .inr (hkeeps t ht ▸ hcomplete t)
  · intro hready
    obtain ⟨_, -, hcomplete⟩ := (seed_completes hready).of_executes hrun
    exact hcomplete
  · intro hcomplete permission hpermission
    obtain ⟨seed, hseed, rfl⟩ := List.mem_map.mp ((hcomplete .permissions).mem_iff.mp hpermission)
    refine (hcomplete .rolePermissions).mem_iff.mpr (mem_grants List.mem_cons_self ?_)
    exact List.mem_map.mpr ⟨seed, hseed, rfl⟩

end Restart

/-- One replica is lost after its first calls. -/
def interrupted (calls : ℕ) : Async.Config ℕ Op Answer SeedError RbacSeedResult Unit Database :=
  (((Async.Config.initial Database.empty).put 0 (some ⟨(), [], seed⟩)).advance
    Database.respond 0 calls).put 0 none

theorem interrupted_reached (calls : ℕ)
    (h : ∃ op resume t, (((Async.Config.initial Database.empty).put 0 (some ⟨(), [], seed⟩)).advance
      Database.respond 0 calls).process 0 = some ⟨(), t, .call op resume⟩) :
    system.Reaches Async.System.Any (.initial Database.empty) (interrupted calls) := by
  obtain ⟨op, resume, t, hcall⟩ := h
  have hstart : system.Reaches (ι := ℕ) Async.System.Any (.initial Database.empty)
      ((Async.Config.initial Database.empty).put 0 (some ⟨(), [], seed⟩)) :=
    .tail .refl trivial (.start () rfl)
  exact (hstart.advance (fun s op => .inl rfl) 0 calls).tail trivial (.crash hcall)

/-- Lost after the last role, it leaves nothing that the next seeder does not complete. -/
theorem seed_completes_iff_sample : (interrupted 4).shared.seeded.Complete := by
  refine (seed_completes_iff (interrupted_reached 4 ⟨_, _, _, rfl⟩)).2.2.1.mpr fun t => ?_
  cases t
  · exact .inr (.of_eq rfl)
  all_goals exact .inl rfl

/-- Lost after the first, it leaves one role for good. -/
theorem not_seed_completes :
    ¬ ∀ c : Async.Config ℕ Op Answer SeedError RbacSeedResult Unit Database,
      system.Reaches Async.System.Any (.initial Database.empty) c → c.shared.seeded.Complete := by
  intro hall
  have hcomplete := hall _ (interrupted_reached 2 ⟨_, _, _, rfl⟩)
  obtain ⟨r, hrun⟩ := executes_seeded (interrupted 2).shared
  have hroles : (interrupted 2).shared.seeded .roles = (interrupted 2).shared .roles :=
    (seed_keeps (by decide +kernel)).of_executes hrun
  have hlength := (hcomplete .roles).length_eq
  rw [hroles] at hlength
  exact absurd hlength (by decide +kernel)

end Auth.RbacSeeder
