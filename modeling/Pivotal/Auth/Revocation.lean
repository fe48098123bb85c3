import Pivotal.Auth.Sessions

/-! Over whole runs: once a command that ends sessions has completed, no token of those sessions
is exchanged again, unless an exchange was under way or the command was given an old token. -/
namespace Auth
open Async (Config Event Label Process System Written)
open Async.Program (Obeys)
open Session (next nextAuth exchanging_eq_some)

variable {ι : Type}

/-- A change of rows that keeps whose they are, and takes no revocation back. -/
structure Withdraws (g : RefreshToken → RefreshToken) : Prop where
  id : ∀ token, (g token).id = token.id
  userId : ∀ token, (g token).userId = token.userId
  familyId : ∀ token, (g token).familyId = token.familyId
  revokedAt : ∀ token, (g token).revokedAt = none → token.revokedAt = none

/-- The rows of refresh tokens are those of `s`, some of them revoked. -/
def Withdrawn (s s' : Directory) : Prop :=
  s'.issued = s.issued ∧
    ∃ g, Withdraws g ∧ s'.refreshTokens.rows = s.refreshTokens.rows.map g

theorem Withdrawn.of_eq {s s' : Directory} (hissued : s'.issued = s.issued)
    (htokens : s'.refreshTokens = s.refreshTokens) : Withdrawn s s' := by
  refine ⟨hissued, id, ⟨fun _ => rfl, fun _ => rfl, fun _ => rfl, fun _ h => h⟩, ?_⟩
  rw [htokens, List.map_id]

theorem withdraws_where (p : RefreshToken → Bool) (revokedAt : Js.Date) :
    Withdraws fun token => if p token then { token with revokedAt := some revokedAt } else token := by
  constructor
  all_goals
    intro token
    split <;> simp

theorem withdraws_mark (id : String) (replacedBy : Option String) (revokedAt : Js.Date) :
    Withdraws fun token => if token.id = id then
      { token with revokedAt := some revokedAt, replacedBy := replacedBy } else token := by
  constructor
  all_goals
    intro token
    split <;> simp

section Withdrawn

variable {s s' : Directory}

theorem withdrawn_revokeWhere (p : RefreshToken → Bool) (revokedAt : Js.Date) :
    Withdrawn s { s with refreshTokens := s.refreshTokens.revokeWhere p revokedAt } :=
  ⟨rfl, _, withdraws_where p revokedAt, rfl⟩

theorem withdrawn_markRevoked (id : String) (replacedBy : Option String) (revokedAt : Js.Date) :
    Withdrawn s { s with refreshTokens := s.refreshTokens.markRevoked id replacedBy revokedAt } :=
  ⟨rfl, _, withdraws_mark id replacedBy revokedAt, rfl⟩

theorem withdrawn_applies {ε : Type} {d : Directory} (a : Written ε Unit) (h : Withdrawn s d) :
    Withdrawn s (a.applies s d) := by
  rcases a.applies_cases s d with ha | ⟨-, ha⟩
  · rwa [ha]
  · rw [ha]
    exact .of_eq rfl rfl

theorem Withdrawn.row (h : Withdrawn s s') {row : RefreshToken} (hrow : row ∈ s.refreshTokens.rows) :
    ∃ row' ∈ s'.refreshTokens.rows, row'.id = row.id ∧ row'.familyId = row.familyId ∧
      row'.userId = row.userId := by
  obtain ⟨-, g, hg, hrows⟩ := h
  refine ⟨g row, ?_, hg.id row, hg.familyId row, hg.userId row⟩
  rw [hrows]
  exact List.mem_map_of_mem hrow

theorem Withdrawn.of_mem (h : Withdrawn s s') {row : RefreshToken}
    (hrow : row ∈ s'.refreshTokens.rows) : ∃ old ∈ s.refreshTokens.rows, row.id = old.id ∧
      row.familyId = old.familyId ∧ row.userId = old.userId ∧
      (row.revokedAt = none → old.revokedAt = none) := by
  obtain ⟨-, g, hg, hrows⟩ := h
  rw [hrows] at hrow
  obtain ⟨old, hold, rfl⟩ := List.mem_map.mp hrow
  exact ⟨old, hold, hg.id old, hg.familyId old, hg.userId old, hg.revokedAt old⟩

/-- Neither a token is inserted nor an identifier minted. -/
def DirectoryOp.withdraws : DirectoryOp → Bool
  | .auth .nextId => false
  | .auth (.insert _) => false
  | _ => true

variable {settings : DirectorySettings}

theorem withdrawn_of_performs {op : DirectoryOp} {a : DirectoryAnswer op}
    (hop : op.withdraws = true) (h : s.performs settings op a s') : Withdrawn s s' := by
  cases op with
  | auth op =>
    cases op with
    | nextId | insert _ => cases hop
    | now => exact .of_eq (by rw [h]) (by rw [h])
    | randomBytes => exact .of_eq (by rw [h]) (by rw [h])
    | findUser _ | findRole _ | findPermissionKeys _ => exact .of_eq (by rw [h.1]) (by rw [h.1])
    | sign claims =>
      rcases a with e | jwt
      · exact .of_eq (by rw [h]) (by rw [h])
      · exact .of_eq (by rw [h]) (by rw [h])
    | findByTokenHash tokenHash =>
      obtain ⟨t, ⟨ht, -⟩, rfl⟩ := h
      exact .of_eq rfl ht
    | revokeFamily familyId revokedAt =>
      obtain ⟨_, rfl, rfl⟩ := h
      rcases a.applies_cases s.refreshTokens _ with ha | ⟨-, ha⟩
      · rw [ha]
        exact withdrawn_revokeWhere _ _
      · exact .of_eq rfl ha
    | markRevoked id replacedBy revokedAt =>
      obtain ⟨_, rfl, rfl⟩ := h
      rcases a.applies_cases s.refreshTokens _ with ha | ⟨-, ha⟩
      · rw [ha]
        exact withdrawn_markRevoked _ _ _
      · exact .of_eq rfl ha
  | findUserById _ | findUserByEmail _ | findRoleById _ | findRoleByCode _
    | findPermissionKeysByRoleId _ | findPermissionsByKeyNames _
    | countActiveUsersGrantingPermission _ _ | countActiveUsersByRoleIdForFsp _ _ _
    | verifyPassword _ _ => exact .of_eq (by rw [h.1]) (by rw [h.1])
  | generateTempPassword => exact .of_eq (by rw [h]) (by rw [h])
  | hashPassword _ => exact .of_eq (by rw [h]) (by rw [h])
  | insertUser user =>
    rcases h with ⟨hadmits, rfl⟩ | ⟨-, -, rfl⟩
    · exact withdrawn_applies a (.of_eq rfl rfl)
    · exact .of_eq rfl rfl
  | revokeAllForUser userId revokedAt =>
    obtain rfl := h
    exact withdrawn_applies a (withdrawn_revokeWhere _ _)
  | _ =>
    obtain rfl := h
    exact withdrawn_applies a (.of_eq rfl rfl)

end Withdrawn

/-- What the rows of refresh tokens and the requests under way have to do with each other. -/
structure Sound (s : Directory) (f : ι → Option Session) : Prop where
  oneUser : ∀ t ∈ s.refreshTokens.rows, ∀ t' ∈ s.refreshTokens.rows,
    t.familyId = t'.familyId → t.userId = t'.userId
  issued : ∀ t ∈ s.refreshTokens.rows, t.familyId ∈ s.issued
  minted : ∀ i r a, f i = some r → a ∈ r.minted →
    a ∈ s.issued ∧ ∀ t ∈ s.refreshTokens.rows, t.familyId ≠ a
  apart : ∀ i j r r' a, f i = some r → f j = some r' → a ∈ r.minted → a ∈ r'.minted → i = j
  known : ∀ i r p, f i = some r → p ∈ r.known → p.1 = p.2
  kept : ∀ i r t, f i = some r → r.found = some t ∨ r.saved = some t →
    ∃ row ∈ s.refreshTokens.rows, row.id = t.id ∧ row.familyId = t.familyId ∧ row.userId = t.userId

/-- A record that may stand at `i`. -/
structure Fits (s : Directory) (f : ι → Option Session) (i : ι) (r : Session) : Prop where
  minted : ∀ a ∈ r.minted, a ∈ s.issued ∧ ∀ t ∈ s.refreshTokens.rows, t.familyId ≠ a
  apart : ∀ a ∈ r.minted, ∀ j r', j ≠ i → f j = some r' → a ∉ r'.minted
  known : ∀ p ∈ r.known, p.1 = p.2
  kept : ∀ t, r.found = some t ∨ r.saved = some t →
    ∃ row ∈ s.refreshTokens.rows, row.id = t.id ∧ row.familyId = t.familyId ∧ row.userId = t.userId

/-- What a call that mints and inserts nothing teaches a request. -/
structure Learns (s : Directory) (r r' : Session) : Prop where
  minted : r'.minted = r.minted
  saved : r'.saved = r.saved
  known : ∀ p ∈ r'.known, p ∈ r.known ∨ p.1 = p.2
  found : ∀ t, r'.found = some t → r.found = some t ∨ t ∈ s.refreshTokens.rows

section Sound

variable {s s' : Directory} {f : ι → Option Session} {i : ι} {r r' : Session}

theorem Sound.fits (h : Sound s f) (hi : f i = some r) : Fits s f i r where
  minted a ha := h.minted i r a hi ha
  apart a ha j r' hj hr' ha' := hj (h.apart j i r' r a hr' hi ha' ha)
  known p hp := h.known i r p hi hp
  kept t ht := h.kept i r t hi ht

theorem Sound.withdrawn (h : Sound s f) (hw : Withdrawn s s') : Sound s' f := by
  constructor
  · intro t ht t' ht' hfamily
    obtain ⟨old, hold, -, hfamily₁, huser₁, -⟩ := hw.of_mem ht
    obtain ⟨old', hold', -, hfamily₂, huser₂, -⟩ := hw.of_mem ht'
    rw [huser₁, huser₂]
    apply h.oneUser old hold old' hold'
    rw [← hfamily₁, ← hfamily₂, hfamily]
  · intro t ht
    obtain ⟨old, hold, -, hfamily, -, -⟩ := hw.of_mem ht
    rw [hw.1, hfamily]
    exact h.issued old hold
  · intro j r a hj ha
    refine ⟨hw.1 ▸ (h.minted j r a hj ha).1, ?_⟩
    intro t ht
    obtain ⟨old, hold, -, hfamily, -, -⟩ := hw.of_mem ht
    rw [hfamily]
    exact (h.minted j r a hj ha).2 old hold
  · exact h.apart
  · exact h.known
  · intro j r t hj ht
    obtain ⟨row, hrow, hid, hfamily, huser⟩ := h.kept j r t hj ht
    obtain ⟨row', hrow', hid', hfamily', huser'⟩ := hw.row hrow
    exact ⟨row', hrow', hid'.trans hid, hfamily'.trans hfamily, huser'.trans huser⟩

theorem Sound.learns (h : Sound s f) (hi : f i = some r) (hr : Learns s r r') : Fits s f i r' := by
  constructor
  · rw [hr.minted]
    exact (h.fits hi).minted
  · rw [hr.minted]
    exact (h.fits hi).apart
  · intro p hp
    rcases hr.known p hp with hp | hp
    · exact h.known i r p hi hp
    · exact hp
  · rintro t (ht | ht)
    · rcases hr.found t ht with ht | ht
      · exact h.kept i r t hi (.inl ht)
      · exact ⟨t, ht, rfl, rfl, rfl⟩
    · exact h.kept i r t hi (.inr (hr.saved ▸ ht))

section Calls

variable {settings : DirectorySettings} {op : DirectoryOp} {a : DirectoryAnswer op}

theorem learns_refl (s : Directory) (r : Session) : Learns s r r :=
  ⟨rfl, rfl, fun _ h => .inl h, fun _ h => .inl h⟩

theorem learns_afterFindUser {id : String} {found : Option String}
    (hfound : ∀ userId, found = some userId → userId = id) :
    Learns s r (r.afterFindUser id found) := by
  cases found with
  | none => exact learns_refl s r
  | some userId =>
    refine ⟨rfl, rfl, ?_, fun _ h => .inl h⟩
    intro p hp
    rcases List.mem_cons.mp hp with rfl | hp
    · exact .inr (hfound userId rfl).symm
    · exact .inl hp

theorem learns_of_performs (hop : op.withdraws = true) (h : s.performs settings op a s') :
    Learns s r (r.next op a) := by
  cases op with
  | auth op =>
    cases op with
    | nextId | insert _ => cases hop
    | findByTokenHash tokenHash =>
      obtain ⟨_, ⟨rfl, hfound⟩, rfl⟩ := h
      rcases a with e | _ | token
      · exact learns_refl s r
      · exact ⟨rfl, rfl, fun _ h => .inl h, fun _ h => .inl h⟩
      · refine ⟨rfl, rfl, fun _ h => .inl h, ?_⟩
        rintro t ⟨⟩
        exact .inr (List.mem_of_find?_eq_some (hfound _ rfl).symm)
    | findUser id =>
      apply learns_afterFindUser
      intro userId huser
      rcases a with e | user
      · cases huser
      · simp only [Except.toOption, Option.bind_some, h.2 user rfl, Option.map_map,
          Option.map_eq_some_iff] at huser
        obtain ⟨u, hu, rfl⟩ := huser
        exact (Store.Table.find?_eq_some_iff.mp hu).2
    | markRevoked _ _ _ => cases a <;> exact ⟨rfl, rfl, fun _ h => .inl h, fun _ h => .inl h⟩
    | _ => exact learns_refl s r
  | findUserById id =>
    apply learns_afterFindUser
    intro userId huser
    rcases a with e | user
    · cases huser
    · simp only [Except.toOption, Option.bind_some, h.2 user rfl, Option.map_eq_some_iff] at huser
      obtain ⟨u, hu, rfl⟩ := huser
      exact (Store.Table.find?_eq_some_iff.mp hu).2
  | revokeAllForUser _ _ => cases a <;> exact ⟨rfl, rfl, fun _ h => .inl h, fun _ h => .inl h⟩
  | _ => exact learns_refl s r

end Calls

/-- A row that comes into a family, of the same user or the first of all. -/
theorem Sound.insert (h : Sound s f) {token : RefreshToken}
    (hissued : token.familyId ∈ s.issued)
    (huser : ∀ t ∈ s.refreshTokens.rows, t.familyId = token.familyId → t.userId = token.userId)
    (hminted : ∀ j r, f j = some r → token.familyId ∉ r.minted) :
    Sound { s with refreshTokens := s.refreshTokens.insert token } f := by
  have hmem : ∀ t, t ∈ (s.refreshTokens.insert token).rows ↔
      t ∈ s.refreshTokens.rows ∨ t = token := by
    intro t
    simp [RefreshTokens.insert]
  constructor
  · intro t ht t' ht' hfamily
    rcases (hmem t).mp ht with hold | hnew <;> rcases (hmem t').mp ht' with hold' | hnew'
    · exact h.oneUser t hold t' hold' hfamily
    · rw [hnew']
      exact huser t hold (hnew' ▸ hfamily)
    · rw [hnew]
      exact (huser t' hold' (hnew ▸ hfamily.symm)).symm
    · rw [hnew, hnew']
  · intro t ht
    rcases (hmem t).mp ht with ht | rfl
    · exact h.issued t ht
    · exact hissued
  · intro j r a hj ha
    refine ⟨(h.minted j r a hj ha).1, ?_⟩
    intro t ht hfamily
    rcases (hmem t).mp ht with ht | rfl
    · exact (h.minted j r a hj ha).2 t ht hfamily
    · exact hminted j r hj (hfamily ▸ ha)
  · exact h.apart
  · exact h.known
  · intro j r t hj ht
    obtain ⟨row, hrow, hkept⟩ := h.kept j r t hj ht
    exact ⟨row, (hmem row).mpr (.inl hrow), hkept⟩

variable [DecidableEq ι]

theorem Sound.put (h : Sound s f) {x : Option Session} (hx : ∀ r', x = some r' → Fits s f i r') :
    Sound s (Function.update f i x) := by
  constructor
  · exact h.oneUser
  · exact h.issued
  · intro j r a hj ha
    rcases Async.update_eq_some.mp hj with ⟨rfl, hr⟩ | ⟨-, hr⟩
    · exact (hx r hr).minted a ha
    · exact h.minted j r a hr ha
  · intro j k r r' a hj hk ha ha'
    rcases Async.update_eq_some.mp hj with ⟨rfl, hr⟩ | ⟨hji, hr⟩ <;>
      rcases Async.update_eq_some.mp hk with ⟨rfl, hr'⟩ | ⟨hki, hr'⟩
    · rfl
    · exact absurd ha' ((hx r hr).apart a ha k r' hki hr')
    · exact absurd ha ((hx r' hr').apart a ha' j r hji hr)
    · exact h.apart j k r r' a hr hr' ha ha'
  · intro j r p hj hp
    rcases Async.update_eq_some.mp hj with ⟨rfl, hr⟩ | ⟨-, hr⟩
    · exact (hx r hr).known p hp
    · exact h.known j r p hr hp
  · intro j r t hj ht
    rcases Async.update_eq_some.mp hj with ⟨rfl, hr⟩ | ⟨-, hr⟩
    · exact (hx r hr).kept t ht
    · exact h.kept j r t hr ht

omit [DecidableEq ι] in
theorem Sound.issue (h : Sound s f) (a : String) : Sound { s with issued := a :: s.issued } f := by
  refine ⟨h.oneUser, ?_, ?_, h.apart, h.known, h.kept⟩
  · exact fun t ht => List.mem_cons_of_mem _ (h.issued t ht)
  · intro j r b hj hb
    exact ⟨List.mem_cons_of_mem _ (h.minted j r b hj hb).1, (h.minted j r b hj hb).2⟩

omit [DecidableEq ι] in
theorem Sound.mints (h : Sound s f) (hi : f i = some r) {a : String} (ha : a ∉ s.issued) :
    Fits { s with issued := a :: s.issued } f i { r with minted := a :: r.minted } := by
  have hfits := (h.issue a).fits hi
  refine ⟨?_, ?_, hfits.known, hfits.kept⟩
  · intro b hb
    rcases List.mem_cons.mp hb with rfl | hb
    · exact ⟨List.mem_cons_self .., fun t ht hfamily => ha (hfamily ▸ h.issued t ht)⟩
    · exact hfits.minted b hb
  · intro b hb j r' hj hr' hb'
    rcases List.mem_cons.mp hb with rfl | hb
    · exact ha (h.minted j r' b hr' hb').1
    · exact hfits.apart b hb j r' hj hr' hb'

variable {settings : DirectorySettings} {op : DirectoryOp} {a : DirectoryAnswer op}

omit [DecidableEq ι] in
/-- Who may insert a row: a refresh into the family of its token, or a login into its own. -/
theorem Sound.inserts (h : Sound s f) (hi : f i = some r) {token : RefreshToken}
    (hr : r.allowsAuth settings (.insert token)) :
    token.familyId ∈ s.issued ∧
      (∀ t ∈ s.refreshTokens.rows, t.familyId = token.familyId → t.userId = token.userId) ∧
      ∀ j r', j ≠ i → f j = some r' → token.familyId ∉ r'.minted := by
  rcases hr with ⟨t, hexchanging, hfamily, hknown⟩ | ⟨-, hminted⟩
  · obtain ⟨row, hrow, -, hrowFamily, hrowUser⟩ :=
      h.kept i r t hi (.inl (exchanging_eq_some hexchanging).2.1)
    have huser : t.userId = token.userId := h.known i r _ hi hknown
    have hsame : row.familyId = token.familyId := hrowFamily.trans hfamily.symm
    refine ⟨hsame ▸ h.issued row hrow, ?_, ?_⟩
    · intro t' ht' hfamily'
      rw [h.oneUser t' ht' row hrow (hfamily'.trans hsame.symm), hrowUser, huser]
    · intro j r' _ hj hmem
      exact (h.minted j r' _ hj hmem).2 row hrow hsame
  · obtain ⟨hissued, hnew⟩ := h.minted i r _ hi hminted
    refine ⟨hissued, fun t ht hfamily => absurd hfamily (hnew t ht), ?_⟩
    intro j r' hj hr' hmem
    exact hj (h.apart j i r' r _ hr' hi hmem hminted)

omit [DecidableEq ι] in
theorem Sound.saves (h : Sound s f) (hi : f i = some r) (a : Written AuthError Unit) :
    Fits s f i (r.afterInsert a) ∧ (r.afterInsert a).minted = [] := by
  cases a with
  | done u =>
    refine ⟨⟨?_, ?_, (h.fits hi).known, ?_⟩, rfl⟩
    · rintro b ⟨⟩
    · rintro b ⟨⟩
    · rintro t (ht | ht)
      · exact h.kept i r t hi (.inl ht)
      · exact h.kept i r t hi (.inl (exchanging_eq_some ht).2.1)
  | _ =>
    refine ⟨⟨?_, ?_, (h.fits hi).known, (h.fits hi).kept⟩, rfl⟩
    · rintro b ⟨⟩
    · rintro b ⟨⟩

theorem insert_cases {token : RefreshToken} {a : Written AuthError Unit}
    (h : s.performs settings (.auth (.insert token)) a s') :
    a.isRejected = false ∧ s' = { s with refreshTokens := s.refreshTokens.insert token } ∨
      a.isRejected = true ∧ s' = s := by
  obtain ⟨_, ⟨-, rfl⟩, rfl⟩ := h
  cases a with
  | done u => exact .inl ⟨rfl, rfl⟩
  | lost e => exact .inl ⟨rfl, rfl⟩
  | rejected e => exact .inr ⟨rfl, rfl⟩

theorem Sound.call (h : Sound s f) (hi : f i = some r) (hr : r.allows settings op)
    (hp : s.performs settings op a s') {x : Option Session}
    (hx : x = none ∨ x = some (r.next op a)) : Sound s' (Function.update f i x) := by
  have hput : ∀ {s : Directory}, Sound s f → Fits s f i (r.next op a) →
      Sound s (Function.update f i x) := by
    intro s hs hfits
    apply hs.put
    rintro r' rfl
    obtain rfl : r' = r.next op a := by simpa using hx
    exact hfits
  cases hop : op.withdraws with
  | true =>
    exact (hput h (h.learns hi (learns_of_performs hop hp))).withdrawn (withdrawn_of_performs hop hp)
  | false =>
    cases op with
    | auth op =>
      cases op with
      | nextId =>
        obtain ⟨hnew, rfl⟩ := hp
        exact hput (h.issue a) (h.mints hi hnew)
      | insert token =>
        obtain ⟨hfits, hnone⟩ := h.saves hi a
        have hsound := hput h hfits
        rcases insert_cases hp with ⟨-, rfl⟩ | ⟨-, rfl⟩
        · have hallows : r.allowsAuth settings (.insert token) := hr
          obtain ⟨hissued, huser, hothers⟩ := h.inserts hi hallows
          apply hsound.insert hissued huser
          intro j r' hj hmem
          rcases Async.update_eq_some.mp hj with ⟨rfl, rfl⟩ | ⟨hji, hj⟩
          · obtain rfl : r' = r.next (.auth (.insert token)) a := by simpa using hx
            simp [next, nextAuth, hnone] at hmem
          · exact hothers j r' hji hj hmem
        · exact hsound
      | _ => cases hop
    | _ => cases hop

theorem Sound.move (h : Sound s f) {l : Label ι DirectoryOp DirectoryAnswer DirectoryJob}
    {f' : ι → Option Session}
    (hm : (portal settings).LiveMove (session settings) Session.initial s f l s' f') :
    Sound s' f' := by
  cases hm with
  | @start _ i x job hi hx =>
    apply h.put
    rintro r' rfl
    obtain rfl : r' = Session.initial job := by simpa using hx
    constructor
    · rintro a ⟨⟩
    · rintro a ⟨⟩
    · rintro p ⟨⟩
    · rintro t (ht | ht) <;> cases ht
  | call hi hr hp hx => exact h.call hi hr hp hx
  | crash hi =>
    apply h.put
    rintro r' ⟨⟩
  | background hb => exact hb.elim

end Sound

/-- No request that has saved a successor in the family has yet to settle. -/
def Quiet (f : ι → Option Session) (familyId : String) : Prop :=
  ∀ i r t, f i = some r → r.saved = some t → t.familyId ≠ familyId

/-- The session is over, and no exchange of its tokens is about to succeed. -/
structure Shut (s : Directory) (f : ι → Option Session) (familyId : String) : Prop where
  row : ∃ row ∈ s.refreshTokens.rows, row.familyId = familyId
  revoked : ∀ row ∈ s.refreshTokens.rows, row.familyId = familyId → row.revokedAt ≠ none
  quiet : Quiet f familyId

/-- The requests that end sessions as a whole. -/
def DirectoryJob.endsSessions : DirectoryJob → Bool
  | .logout _ => true
  | .changePassword _ => true
  | .resetUserPassword _ => true
  | _ => false

/-- A sign-out of one session only. -/
def DirectoryJob.endsOne : DirectoryJob → Bool
  | .logout input => !input.allDevices
  | _ => false

/-- The conditions of the result, on the calls in turn. A successor is saved only while the
token it replaces is not revoked; sessions of a user are revoked only while no exchange of
theirs has saved its successor without having settled; and a sign-out of one session revokes the
last token that is left of it, or finds the session over. -/
def Undisturbed (s : Directory) (f : ι → Option Session) :
    Label ι DirectoryOp DirectoryAnswer DirectoryJob → Prop
  | .call _ ⟨.auth (.insert _), .rejected _⟩ => True
  | .call i ⟨.auth (.insert _), _⟩ => ∀ r t, f i = some r → r.exchanging = some t →
    ∀ row ∈ s.refreshTokens.rows, row.id = t.id → row.revokedAt = none
  | .call i ⟨.revokeAllForUser userId _, .done _⟩ => ∀ r, f i = some r →
    r.job.endsSessions = true → ∀ j r' t, f j = some r' → r'.saved = some t → t.userId ≠ userId
  | .call i ⟨.auth (.markRevoked id _ _), .done _⟩ => ∀ r t, f i = some r →
    r.job.endsOne = true → r.found = some t → Quiet f t.familyId ∧
      ∀ row ∈ s.refreshTokens.rows, row.familyId = t.familyId → row.id = id ∨ row.revokedAt ≠ none
  | .call i ⟨.auth (.findByTokenHash _), .ok (some t)⟩ => ∀ r, f i = some r →
    r.job.endsOne = true → t.revokedAt ≠ none → Shut s f t.familyId
  | _ => True

namespace Shut

variable [DecidableEq ι] {s s' : Directory} {f : ι → Option Session} {i : ι} {r : Session}
  {familyId : String} {settings : DirectorySettings} {op : DirectoryOp} {a : DirectoryAnswer op}

omit [DecidableEq ι] in
theorem withdrawn (h : Shut s f familyId) (hw : Withdrawn s s') : Shut s' f familyId := by
  refine ⟨?_, ?_, h.quiet⟩
  · obtain ⟨row, hrow, hfamily⟩ := h.row
    obtain ⟨row', hrow', -, hfamily', -⟩ := hw.row hrow
    exact ⟨row', hrow', hfamily'.trans hfamily⟩
  · intro row hrow hfamily hnone
    obtain ⟨old, hold, -, hfamily', -, hrevoked⟩ := hw.of_mem hrow
    exact h.revoked old hold (hfamily'.symm.trans hfamily) (hrevoked hnone)

theorem put (h : Shut s f familyId) {x : Option Session}
    (hx : ∀ r t, x = some r → r.saved = some t → t.familyId ≠ familyId) :
    Shut s (Function.update f i x) familyId := by
  refine ⟨h.row, h.revoked, ?_⟩
  intro j r t hj ht
  rcases Async.update_eq_some.mp hj with ⟨-, hr⟩ | ⟨-, hr⟩
  · exact hx r t hr ht
  · exact h.quiet j r t hr ht

/-- A request that settles, or that saves no successor. -/
theorem keep (h : Shut s f familyId) (hi : f i = some r) {x : Option Session} {r' : Session}
    (hx : x = none ∨ x = some r') (hsaved : r'.saved = r.saved) :
    Shut s (Function.update f i x) familyId := by
  apply h.put
  rintro r₁ t rfl ht
  obtain rfl : r₁ = r' := by simpa using hx
  exact h.quiet i r t hi (hsaved ▸ ht)

omit [DecidableEq ι] in
/-- Nothing is inserted into a family that is shut. -/
theorem apart (h : Shut s f familyId) (hs : Sound s f) (hi : f i = some r) {token : RefreshToken}
    {a : Written AuthError Unit} (hr : r.allowsAuth settings (.insert token))
    (hl : Undisturbed (ι := ι) s f (.call i ⟨.auth (.insert token), a⟩))
    (ha : a.isRejected = false) :
    token.familyId ≠ familyId ∧ ∀ t, r.exchanging = some t → t.familyId ≠ familyId := by
  have hexchanging : ∀ t, r.exchanging = some t → t.familyId ≠ familyId := by
    intro t ht hfamily
    obtain ⟨row, hrow, hid, hrowFamily, -⟩ := hs.kept i r t hi (.inl (exchanging_eq_some ht).2.1)
    apply h.revoked row hrow (hrowFamily.trans hfamily)
    cases a with
    | rejected e => cases ha
    | done u => exact hl r t hi ht row hrow hid
    | lost e => exact hl r t hi ht row hrow hid
  refine ⟨?_, hexchanging⟩
  rcases hr with ⟨t, ht, hfamily, -⟩ | ⟨-, hminted⟩
  · exact fun heq => hexchanging t ht (hfamily.symm.trans heq)
  · obtain ⟨row, hrow, hfamily⟩ := h.row
    exact fun heq => (hs.minted i r _ hi hminted).2 row hrow (hfamily.trans heq.symm)

omit [DecidableEq ι] in
theorem insert (h : Shut s f familyId) {token : RefreshToken} (htoken : token.familyId ≠ familyId) :
    Shut { s with refreshTokens := s.refreshTokens.insert token } f familyId := by
  refine ⟨?_, ?_, h.quiet⟩
  · obtain ⟨row, hrow, hfamily⟩ := h.row
    exact ⟨row, List.mem_append_left _ hrow, hfamily⟩
  · intro row hrow hfamily
    rcases List.mem_append.mp hrow with hrow | hrow
    · exact h.revoked row hrow hfamily
    · rw [List.mem_singleton.mp hrow] at hfamily
      exact absurd hfamily htoken

omit [DecidableEq ι] in
/-- No call saves a successor in a family that is shut. -/
theorem outside (h : Shut s f familyId) (hs : Sound s f) (hi : f i = some r)
    (hr : r.allows settings op) (hl : Undisturbed s f (.call i ⟨op, a⟩))
    (hp : s.performs settings op a s') {t : RefreshToken} (ht : (r.next op a).saved = some t) :
    t.familyId ≠ familyId := by
  cases hop : op.withdraws with
  | true =>
    rw [(learns_of_performs hop hp).saved] at ht
    exact h.quiet i r t hi ht
  | false =>
    cases op with
    | auth op =>
      cases op with
      | nextId => exact h.quiet i r t hi ht
      | insert token =>
        have hallows : r.allowsAuth settings (.insert token) := hr
        cases a with
        | done u => exact (h.apart hs hi hallows hl rfl).2 t ht
        | _ => exact h.quiet i r t hi ht
      | _ => cases hop
    | _ => cases hop

theorem call (h : Shut s f familyId) (hs : Sound s f) (hi : f i = some r)
    (hr : r.allows settings op) (hl : Undisturbed s f (.call i ⟨op, a⟩))
    (hp : s.performs settings op a s') {x : Option Session}
    (hx : x = none ∨ x = some (r.next op a)) :
    Shut s' (Function.update f i x) familyId := by
  have htable : Shut s' f familyId := by
    cases hop : op.withdraws with
    | true => exact h.withdrawn (withdrawn_of_performs hop hp)
    | false =>
      cases op with
      | auth op =>
        cases op with
        | nextId =>
          obtain ⟨-, rfl⟩ := hp
          exact ⟨h.row, h.revoked, h.quiet⟩
        | insert token =>
          have hallows : r.allowsAuth settings (.insert token) := hr
          rcases insert_cases hp with ⟨hrejected, rfl⟩ | ⟨-, rfl⟩
          · exact h.insert (h.apart hs hi hallows hl hrejected).1
          · exact h
        | _ => cases hop
      | _ => cases hop
  apply htable.put
  rintro r' t rfl ht
  obtain rfl : r' = r.next op a := by simpa using hx
  exact h.outside hs hi hr hl hp ht

theorem move (h : Shut s f familyId) (hs : Sound s f)
    {l : Label ι DirectoryOp DirectoryAnswer DirectoryJob} (hl : Undisturbed s f l)
    {f' : ι → Option Session}
    (hm : (portal settings).LiveMove (session settings) Session.initial s f l s' f') :
    Shut s' f' familyId := by
  cases hm with
  | @start _ i x job hi hx =>
    apply h.put
    rintro r' t rfl ht
    obtain rfl : r' = Session.initial job := by simpa using hx
    cases ht
  | call hi hr hp hx => exact h.call hs hi hr hl hp hx
  | crash hi =>
    apply h.put
    rintro r' t ⟨⟩
  | background hb => exact hb.elim

end Shut

/-- The request has revoked the session that `row` is of. -/
def Session.Ends (r : Session) (row : RefreshToken) : Prop :=
  match r.job with
  | .changePassword _ => row.userId ∈ r.revoked
  | .resetUserPassword _ => row.userId ∈ r.revoked
  | .logout input => ∃ t, r.found = some t ∧
    if input.allDevices then row.userId = t.userId ∧ row.userId ∈ r.revoked
    else row.familyId = t.familyId ∧ (t.revokedAt.isSome ∨ r.marked = true)
  | _ => False

/-- The session that `row` is of is one of those that the request is to end. -/
def Session.Covers (r : Session) (row : RefreshToken) : Prop :=
  match r.job with
  | .changePassword input => row.userId = input.userId
  | .resetUserPassword input => row.userId = input.targetUserId
  | .logout input => ∃ t, r.found = some t ∧
    if input.allDevices then row.userId = t.userId else row.familyId = t.familyId
  | _ => False

section Ends

variable [DecidableEq ι] {s s' : Directory} {f : ι → Option Session} {i : ι} {r r' : Session}
  {row : RefreshToken} {settings : DirectorySettings}

omit [DecidableEq ι] in
theorem ends_congr (hjob : r'.job = r.job) (hfound : r'.found = r.found)
    (hrevoked : r'.revoked = r.revoked) (hmarked : r'.marked = r.marked) :
    r'.Ends row ↔ r.Ends row := by
  simp only [Session.Ends, hjob, hfound, hrevoked, hmarked]

omit [DecidableEq ι] in
theorem endsSessions_of_ends (h : r.Ends row) : r.job.endsSessions = true := by
  unfold Session.Ends at h
  split at h
  · simp_all [DirectoryJob.endsSessions]
  · simp_all [DirectoryJob.endsSessions]
  · simp_all [DirectoryJob.endsSessions]
  · exact h.elim

/-- What a command that has done its work, and that covers the session, has revoked. -/
theorem ends_of_effective (heffective : r.Effective) (hcovers : r.Covers row)
    (hknown : ∀ p ∈ r.known, p.1 = p.2) : r.Ends row := by
  unfold Session.Effective at heffective
  unfold Session.Covers at hcovers
  unfold Session.Ends
  split at hcovers
  · rename_i input hjob
    simp only [hjob] at heffective ⊢
    obtain ⟨id, hid, hrevoked⟩ := heffective
    rw [hcovers, show input.userId = id from hknown _ hid]
    exact hrevoked
  · rename_i input hjob
    simp only [hjob] at heffective ⊢
    obtain ⟨id, hid, hrevoked⟩ := heffective
    rw [hcovers, show input.targetUserId = id from hknown _ hid]
    exact hrevoked
  · rename_i input hjob
    simp only [hjob] at heffective ⊢
    obtain ⟨t, hfound, hrow⟩ := hcovers
    have ht := heffective t hfound
    refine ⟨t, hfound, ?_⟩
    by_cases hall : input.allDevices
    · simp only [hall, if_true] at hrow ht ⊢
      exact ⟨hrow, hrow ▸ ht⟩
    · simp only [hall, Bool.false_eq_true, if_false] at hrow ht ⊢
      exact ⟨hrow, ht⟩
  · exact hcovers.elim

omit [DecidableEq ι] in
theorem shut_revokeAllForUser (hs : Sound s f)
    (hrow : ∃ old ∈ s.refreshTokens.rows, old.familyId = row.familyId ∧ old.userId = row.userId)
    (hquiet : ∀ j r t, f j = some r → r.saved = some t → t.userId ≠ row.userId)
    (revokedAt : Js.Date) : Shut (s.revokeAllForUser row.userId revokedAt) f row.familyId := by
  obtain ⟨old, hold, hfamily, huser⟩ := hrow
  obtain ⟨row', hrow', -, hfamily', -⟩ :=
    (withdrawn_revokeWhere (s := s) _ revokedAt).row hold
  refine ⟨⟨row', hrow', hfamily'.trans hfamily⟩, ?_, ?_⟩
  · simp only [Directory.revokeAllForUser, RefreshTokens.revokeWhere, List.forall_mem_map]
    intro t ht hsame hnone
    split at hsame
    · rename_i hp
      simp [hp] at hnone
    · rename_i hp
      simp only [hp, Bool.false_eq_true, if_false] at hnone
      have huser' : t.userId = row.userId :=
        (hs.oneUser t ht old hold (hsame.trans hfamily.symm)).trans huser
      simp [huser', hnone] at hp
  · intro j r t hj ht hsame
    obtain ⟨row₁, hrow₁, -, hfamily₁, huser₁⟩ := hs.kept j r t hj (.inr ht)
    apply hquiet j r t hj ht
    rw [← huser₁, ← huser]
    exact hs.oneUser row₁ hrow₁ old hold (hfamily₁.trans (hsame.trans hfamily.symm))

omit [DecidableEq ι] in
theorem shut_markRevoked {id : String} (hquiet : Quiet f row.familyId)
    (hrow : ∃ old ∈ s.refreshTokens.rows, old.familyId = row.familyId)
    (hothers : ∀ t ∈ s.refreshTokens.rows, t.familyId = row.familyId →
      t.id = id ∨ t.revokedAt ≠ none) (replacedBy : Option String) (revokedAt : Js.Date) :
    Shut { s with refreshTokens := s.refreshTokens.markRevoked id replacedBy revokedAt } f
      row.familyId := by
  obtain ⟨old, hold, hfamily⟩ := hrow
  obtain ⟨row', hrow', -, hfamily', -⟩ :=
    (withdrawn_markRevoked (s := s) id replacedBy revokedAt).row hold
  refine ⟨⟨row', hrow', hfamily'.trans hfamily⟩, ?_, hquiet⟩
  simp only [RefreshTokens.markRevoked, List.forall_mem_map]
  intro t ht hsame hnone
  split at hsame
  · rename_i hid
    simp [hid] at hnone
  · rename_i hid
    simp only [hid, if_false] at hnone
    exact ((hothers t ht hsame).resolve_left hid) hnone

omit [DecidableEq ι] in
theorem ends_afterFindUser (id : String) (found : Option String) :
    (r.afterFindUser id found).Ends row ↔ r.Ends row := by
  cases found <;> exact ends_congr rfl rfl rfl rfl

/-- The call that completes what a command is to revoke shuts the session. -/
theorem shut_of_ends (hs : Sound s f) (hi : f i = some r)
    (hrow : ∃ old ∈ s.refreshTokens.rows, old.familyId = row.familyId ∧ old.userId = row.userId)
    {op : DirectoryOp} {a : DirectoryAnswer op} (hr : r.allows settings op)
    (hl : Undisturbed s f (.call i ⟨op, a⟩)) (hp : s.performs settings op a s')
    {x : Option Session} (hx : x = none ∨ x = some (r.next op a))
    (hends : (r.next op a).Ends row) :
    r.Ends row ∨ Shut s' (Function.update f i x) row.familyId := by
  cases op with
  | revokeAllForUser userId revokedAt =>
    cases a with
    | done u =>
      by_cases huser : row.userId = userId
      · subst huser
        obtain rfl := hp
        have hjob := endsSessions_of_ends hends
        have hquiet := hl r hi hjob
        exact .inr ((shut_revokeAllForUser hs hrow hquiet revokedAt).keep hi hx rfl)
      · left
        simpa [Session.Ends, next, Session.afterRevoke, huser] using hends
    | lost e => exact .inl hends
    | rejected e => exact .inl hends
  | findUserById id =>
    left
    simp only [next] at hends
    exact (ends_afterFindUser id _).mp hends
  | auth op =>
    cases op with
    | findUser id => exact .inl ((ends_afterFindUser id _).mp hends)
    | insert token => cases a <;> exact .inl hends
    | findByTokenHash tokenHash =>
      obtain ⟨-, hrevoked, hmarked, -⟩ := hr
      obtain ⟨_, ⟨rfl, -⟩, rfl⟩ := hp
      rcases a with e | _ | t
      · exact .inl hends
      · exact .inl hends
      · -- Nothing is revoked yet, so that the token itself must have been.
        simp only [next, nextAuth, Session.afterFind, Session.Ends, hrevoked, hmarked] at hends
        split at hends
        · cases hends
        · cases hends
        · rename_i input hjob
          obtain ⟨t', ⟨rfl⟩, hends⟩ := hends
          by_cases hall : input.allDevices
          · simp [hall] at hends
          · simp only [hall, Bool.false_eq_true, if_false, or_false] at hends
            have hshut := hl r hi (by simp [DirectoryJob.endsOne, hjob, hall])
              (Option.isSome_iff_ne_none.mp hends.2)
            rw [← hends.1] at hshut
            exact .inr (hshut.keep hi hx rfl)
        · exact hends.elim
    | markRevoked id replacedBy revokedAt =>
      cases a with
      | done u =>
        by_cases hone : r.job.endsOne = true ∧ ∃ t, r.found = some t ∧ row.familyId = t.familyId
        · obtain ⟨hone, t, ht, hfamily⟩ := hone
          obtain ⟨hquiet, hothers⟩ := hl r t hi hone ht
          obtain ⟨old, hold, hfamily', -⟩ := hrow
          obtain ⟨_, rfl, rfl⟩ := hp
          rw [← hfamily] at hquiet hothers
          exact .inr ((shut_markRevoked hquiet ⟨old, hold, hfamily'⟩ hothers _ _).keep hi hx rfl)
        · left
          simp only [next, nextAuth, Session.afterMark, Session.Ends] at hends
          unfold Session.Ends
          split at hends
          · exact hends
          · exact hends
          · rename_i input hjob
            obtain ⟨t, ht, hends⟩ := hends
            refine ⟨t, ht, ?_⟩
            by_cases hall : input.allDevices
            · simpa [hall] using hends
            · simp only [hall, Bool.false_eq_true, if_false] at hends
              exact absurd ⟨by simp [DirectoryJob.endsOne, hjob, hall], t, ht, hends.1⟩ hone
          · exact hends.elim
      | lost e => exact .inl hends
      | rejected e => exact .inl hends
    | _ => exact .inl hends
  | _ => exact .inl hends

end Ends

abbrev Portal (ι : Type) :=
  Config ι DirectoryOp DirectoryAnswer DirectoryError Unit DirectoryJob Directory

/-- What a request has found, saved, minted and revoked so far. -/
def sessionOf (settings : DirectorySettings)
    (p : Process DirectoryOp DirectoryAnswer DirectoryError Unit DirectoryJob) : Session :=
  p.record (session settings) Session.initial

/-- New tokens were returned for a token of the session. -/
def Renewed (settings : DirectorySettings) (familyId : String)
    (p : Process DirectoryOp DirectoryAnswer DirectoryError Unit DirectoryJob) : Prop :=
  p.program.result = some (.ok ()) ∧ (∃ input, p.job = .refreshTokens input) ∧
    ∃ t, (sessionOf settings p).found = some t ∧ t.familyId = familyId

variable [DecidableEq ι]

/-- Request `i` starts after `c₀` and has succeeded by `c₁`: of the sessions that were open in
`c₀` and that it covers, no token has been exchanged in `c` that was not by `c₁`. A successor is of
the session of the token it replaces. -/
def StaySignedOut (settings : DirectorySettings) (c₀ c₁ c : Portal ι) (i : ι) : Prop :=
  c₀.process i = none → ∀ p, c₁.process i = some p → p.program.result = some (.ok ()) →
    ∀ row ∈ c₀.shared.refreshTokens.rows, (sessionOf settings p).Covers row →
      ∀ j q, c.process j = some q → Renewed settings row.familyId q → c₁.process j = some q

/-- `Undisturbed`, of a step of the portal. -/
def UndisturbedStep (settings : DirectorySettings) (c : Portal ι)
    (l : Label ι DirectoryOp DirectoryAnswer DirectoryJob) : Prop :=
  Undisturbed c.shared (c.live (session settings) Session.initial) l

section Runs

variable {settings : DirectorySettings} {s₀ : Directory} {c c' c₁ : Portal ι} {i : ι}
  {row : RefreshToken}

theorem sound_of_reaches {ok : Portal ι → Label ι DirectoryOp DirectoryAnswer DirectoryJob → Prop}
    (h₀ : Sound (ι := ι) s₀ fun _ => none) (h : (portal settings).Reaches ok (.initial s₀) c) :
    Sound c.shared (c.live (session settings) Session.initial) := by
  apply h.invariant (P := fun c : Portal ι =>
    Sound c.shared (c.live (session settings) Session.initial))
  · exact h₀
  · intro c c' l hr hs _ hstep
    exact hs.move (hr.live_move (Session.obeys_job settings) hstep)

/-- The session of `row` has a row, and is shut as soon as request `i` has revoked it. -/
structure Ending (settings : DirectorySettings) (i : ι) (row : RefreshToken) (c : Portal ι) :
    Prop where
  persists : ∃ old ∈ c.shared.refreshTokens.rows,
    old.familyId = row.familyId ∧ old.userId = row.userId
  shut : ∀ p, c.process i = some p → (sessionOf settings p).Ends row →
    Shut c.shared (c.live (session settings) Session.initial) row.familyId

omit [DecidableEq ι] in
/-- Rows of refresh tokens are never deleted. -/
theorem persists_of_performs {s s' : Directory} {op : DirectoryOp} {a : DirectoryAnswer op}
    (hp : s.performs settings op a s') {old : RefreshToken} (hold : old ∈ s.refreshTokens.rows) :
    ∃ old' ∈ s'.refreshTokens.rows, old'.familyId = old.familyId ∧ old'.userId = old.userId := by
  cases hop : op.withdraws with
  | true =>
    obtain ⟨old', hold', -, hkept⟩ := (withdrawn_of_performs hop hp).row hold
    exact ⟨old', hold', hkept⟩
  | false =>
    cases op with
    | auth op =>
      cases op with
      | nextId =>
        obtain ⟨-, rfl⟩ := hp
        exact ⟨old, hold, rfl, rfl⟩
      | insert token =>
        rcases insert_cases hp with ⟨-, rfl⟩ | ⟨-, rfl⟩
        · exact ⟨old, List.mem_append_left _ hold, rfl, rfl⟩
        · exact ⟨old, hold, rfl, rfl⟩
      | _ => cases hop
    | _ => cases hop

theorem not_ends_initial (job : DirectoryJob) : ¬ (Session.initial job).Ends row := by
  cases job <;> simp [Session.Ends, Session.initial]

variable {l : Label ι DirectoryOp DirectoryAnswer DirectoryJob}

theorem Ending.step (h : Ending settings i row c) (h₀ : Sound (ι := ι) s₀ fun _ => none)
    (hr : (portal settings).Reaches (UndisturbedStep settings) (.initial s₀) c)
    (hl : UndisturbedStep settings c l) (hstep : (portal settings).Step c l c') :
    Ending settings i row c' := by
  have hs := sound_of_reaches h₀ hr
  have hm := hr.live_move (Session.obeys_job settings) hstep
  constructor
  · obtain ⟨old, hold, hfamily, huser⟩ := h.persists
    cases hstep with
    | call hi hp =>
      obtain ⟨old', hold', hfamily', huser'⟩ := persists_of_performs hp hold
      exact ⟨old', hold', hfamily'.trans hfamily, huser'.trans huser⟩
    | background hb => exact hb.elim
    | _ => exact ⟨old, hold, hfamily, huser⟩
  · intro p hp hends
    rcases hstep.record_cases (session settings) Session.initial hp with
      hp | ⟨job, -, hrecord⟩ | ⟨⟨op, a⟩, r, rfl, hlive, hrecord⟩
    · exact (h.shut p hp hends).move hs hl hm
    · rw [sessionOf, hrecord] at hends
      exact absurd hends (not_ends_initial job)
    · rw [sessionOf, hrecord] at hends
      obtain ⟨r', x, hi, hallows, hperform, hx, hf⟩ := hm.of_call
      obtain rfl : r = r' := Option.some.inj (hlive.symm.trans hi)
      rcases shut_of_ends hs hi h.persists hallows hl hperform hx hends with hends | hshut
      · obtain ⟨job, t, op', resume, hprocess, hr'⟩ := Config.live_eq_some hlive
        exact (h.shut _ hprocess (by rwa [sessionOf, Process.record, hr'])).move hs hl hm
      · rwa [hf]

/-- The session is shut, and its tokens were exchanged before. -/
structure Over (settings : DirectorySettings) (c₁ : Portal ι) (familyId : String) (c : Portal ι) :
    Prop where
  shut : Shut c.shared (c.live (session settings) Session.initial) familyId
  settled : ∀ j q t, c.process j = some q → (sessionOf settings q).saved = some t →
    t.familyId = familyId → c₁.process j = some q

theorem Over.step {familyId : String} (h : Over settings c₁ familyId c)
    (h₀ : Sound (ι := ι) s₀ fun _ => none)
    (hr : (portal settings).Reaches (UndisturbedStep settings) (.initial s₀) c)
    (hl : UndisturbedStep settings c l) (hstep : (portal settings).Step c l c') :
    Over settings c₁ familyId c' := by
  have hs := sound_of_reaches h₀ hr
  have hm := hr.live_move (Session.obeys_job settings) hstep
  constructor
  · exact h.shut.move hs hl hm
  · intro j q t hq hsaved hfamily
    rcases hstep.record_cases (session settings) Session.initial hq with
      hq | ⟨job, -, hrecord⟩ | ⟨⟨op, a⟩, r, rfl, hlive, hrecord⟩
    · exact h.settled j q t hq hsaved hfamily
    · rw [sessionOf, hrecord] at hsaved
      cases hsaved
    · rw [sessionOf, hrecord] at hsaved
      obtain ⟨r', x, hi, hallows, hperform, hx, hf⟩ := hm.of_call
      obtain rfl : r = r' := Option.some.inj (hlive.symm.trans hi)
      exact absurd hfamily (h.shut.outside hs hi hallows hl hperform hsaved)

/-- A settled request that succeeded has done what it is for. -/
theorem effective_of_succeeded
    {ok : Portal ι → Label ι DirectoryOp DirectoryAnswer DirectoryJob → Prop}
    (h : (portal settings).Reaches ok (.initial s₀) c)
    {p : Process DirectoryOp DirectoryAnswer DirectoryError Unit DirectoryJob}
    (hp : c.process i = some p) (hok : p.program.result = some (.ok ())) :
    (sessionOf settings p).job = p.job ∧ (sessionOf settings p).Effective := by
  have hq := h.obeys (Session.obeys_job settings) hp
  obtain ⟨job, t, r | ⟨op, resume⟩⟩ := p
  · exact hq (Option.some.inj hok)
  · cases hok

omit [DecidableEq ι] in
theorem known_next {s s' : Directory} {r : Session} {op : DirectoryOp} {a : DirectoryAnswer op}
    (hp : s.performs settings op a s') {q : String × String} (hq : q ∈ (r.next op a).known) :
    q ∈ r.known ∨ q.1 = q.2 := by
  cases hop : op.withdraws with
  | true => exact (learns_of_performs hop hp).known q hq
  | false =>
    cases op with
    | auth op =>
      cases op with
      | nextId => exact .inl hq
      | insert token => cases a <;> exact .inl hq
      | _ => cases hop
    | _ => cases hop

theorem known_of_reaches {ok : Portal ι → Label ι DirectoryOp DirectoryAnswer DirectoryJob → Prop}
    (h₀ : Sound (ι := ι) s₀ fun _ => none) (h : (portal settings).Reaches ok (.initial s₀) c) :
    ∀ p, c.process i = some p → ∀ q ∈ (sessionOf settings p).known, q.1 = q.2 := by
  apply h.invariant (P := fun c : Portal ι =>
    ∀ p, c.process i = some p → ∀ q ∈ (sessionOf settings p).known, q.1 = q.2)
  · intro p hp
    cases hp
  · intro c c' l hr ih _ hstep p hp q hq
    have hs := sound_of_reaches h₀ hr
    have hm := hr.live_move (Session.obeys_job settings) hstep
    rcases hstep.record_cases (session settings) Session.initial hp with
      hp | ⟨job, -, hrecord⟩ | ⟨⟨op, a⟩, r, rfl, hlive, hrecord⟩
    · exact ih p hp q hq
    · rw [sessionOf, hrecord] at hq
      cases hq
    · rw [sessionOf, hrecord] at hq
      obtain ⟨r', x, hi, -, hperform, -, -⟩ := hm.of_call
      obtain rfl : r = r' := Option.some.inj (hlive.symm.trans hi)
      rcases known_next hperform hq with hq | hq
      · exact hs.known i r q hi hq
      · exact hq

/-- Once a command that ends sessions has succeeded, none of those sessions is exchanged again. -/
theorem stay_signed_out {c₀ : Portal ι} (h₀ : Sound (ι := ι) s₀ fun _ => none)
    (hr₀ : (portal settings).Reaches (UndisturbedStep settings) (.initial s₀) c₀)
    (hr₁ : (portal settings).Reaches (UndisturbedStep settings) c₀ c₁)
    (hr : (portal settings).Reaches (UndisturbedStep settings) c₁ c) (i : ι) :
    StaySignedOut settings c₀ c₁ c i := by
  intro hi p hp hok row hrow hcovers
  have hending : Ending settings i row c₁ := by
    apply hr₁.invariant (P := Ending settings i row)
    · refine ⟨⟨row, hrow, rfl, rfl⟩, ?_⟩
      intro q hq
      rw [hi] at hq
      cases hq
    · exact fun c c' l hr h hl hs => h.step h₀ (hr₀.trans hr) hl hs
  have hends := ends_of_effective (effective_of_succeeded (hr₀.trans hr₁) hp hok).2 hcovers
    (known_of_reaches h₀ (hr₀.trans hr₁) p hp)
  have hover : Over settings c₁ row.familyId c := by
    apply hr.invariant (P := Over settings c₁ row.familyId)
    · exact ⟨hending.shut p hp hends, fun j q t hq _ _ => hq⟩
    · exact fun c c' l hr h hl hs => h.step h₀ ((hr₀.trans hr₁).trans hr) hl hs
  rintro j q hq ⟨hdone, ⟨input, hjob⟩, t, hfound, hfamily⟩
  obtain ⟨hsame, heffective⟩ := effective_of_succeeded ((hr₀.trans hr₁).trans hr) hq hdone
  simp only [Session.Effective, hsame, hjob] at heffective
  obtain ⟨t', hfound', hsaved⟩ := heffective
  obtain rfl : t = t' := Option.some.inj (hfound.symm.trans hfound')
  exact hover.settled j q t hq hsaved hfamily

end Runs

/-! A user with one session, in a world in which no call fails. -/

open Directory (sampleDirectorySettings performs_respond)

def sampleSession : Directory where
  users := ⟨[Account.new "u@f" "p" "clerk" (some "F") false "u"], by decide⟩
  roles := ⟨[⟨⟨"clerk", "CLERK"⟩, "Clerk", none, .dfsp, false⟩], by decide⟩
  permissions := .empty
  rolePermissions := []
  refreshTokens := .insert .empty ⟨"a", "u", "f", "a", 1, some 1, none, none⟩
  accessTokens := []
  issued := ["f"]
  latest := 0

theorem sampleSession_sound : Sound (ι := Fin 3) sampleSession fun _ => none := by
  constructor
  · decide
  · decide
  · rintro i r a ⟨⟩
  · rintro i j r r' a ⟨⟩
  · rintro i r p ⟨⟩
  · rintro i r t ⟨⟩

/-- A call that `Undisturbed` asks nothing of while no other request is there. -/
def CalmAlone (job : DirectoryJob) (t : List (Event DirectoryOp DirectoryAnswer))
    (e : Event DirectoryOp DirectoryAnswer) : Prop :=
  (match e.op with
    | .auth (.insert _) => False
    | .auth (.markRevoked _ _ _) => False
    | _ => True) ∧
  ((session sampleDirectorySettings).after (.initial job) t).saved = none ∧
    ((session sampleDirectorySettings).after (.initial job) t).job.endsOne = false

instance (job : DirectoryJob) (t : List (Event DirectoryOp DirectoryAnswer))
    (e : Event DirectoryOp DirectoryAnswer) : Decidable (CalmAlone job t e) := by
  obtain ⟨op, a⟩ := e
  refine @instDecidableAnd _ _ ?_ inferInstance
  dsimp only
  split <;> infer_instance

omit [DecidableEq ι] in
theorem CalmAlone.undisturbed {job : DirectoryJob} {t : List (Event DirectoryOp DirectoryAnswer)}
    {e : Event DirectoryOp DirectoryAnswer} (h : CalmAlone job t e) {s : Directory}
    {f : ι → Option Session} {i : ι} (hf : ∀ j r, f j = some r →
      r = (session sampleDirectorySettings).after (.initial job) t) :
    Undisturbed s f (.call i e) := by
  obtain ⟨hop, hsaved, hone⟩ := h
  obtain ⟨op, a⟩ := e
  unfold Undisturbed
  split
  · trivial
  · rename_i heq
    cases heq
    exact hop.elim
  · intro r _ _ j r' t hj ht
    rw [hf j r' hj, hsaved] at ht
    cases ht
  · rename_i heq
    cases heq
    exact hop.elim
  · intro r hi hends
    rw [hf _ r hi, hone] at hends
    cases hends
  · trivial

/-- The pool once a request has run by itself. -/
def runAlone (c : Portal ι) (i : ι) (job : DirectoryJob) : Portal ι :=
  let run := (job.execute sampleDirectorySettings).solo (Directory.respond sampleDirectorySettings)
    c.shared []
  (c.withShared run.1).put i (some ⟨job, run.2.1, .done run.2.2⟩)

theorem reaches_runAlone {c : Portal ι}
    (hc : ∀ j, c.live (session sampleDirectorySettings) Session.initial j = none) (i : ι)
    (job : DirectoryJob) (hi : c.process i = none)
    (h : (job.execute sampleDirectorySettings).SoloAll (Directory.respond sampleDirectorySettings)
      (fun _ t e => CalmAlone job t e) c.shared []) :
    (portal sampleDirectorySettings).Reaches (UndisturbedStep sampleDirectorySettings) c
      (runAlone c i job) :=
  System.Reaches.refl.solo i job hi (performs_respond sampleDirectorySettings) trivial
    (h.mono fun _ _ _ hcalm _ => hcalm.undisturbed fun _ _ hj => Config.live_alone hc hj)

theorem live_runAlone {c : Portal ι}
    (hc : ∀ j, c.live (session sampleDirectorySettings) Session.initial j = none) (i : ι)
    (job : DirectoryJob) (j : ι) :
    (runAlone c i job).live (session sampleDirectorySettings) Session.initial j = none := by
  by_cases hj : j = i
  · subst hj
    simp [runAlone, Config.live]
  · have hprocess : (runAlone c i job).process j = c.process j := Config.put_ne _ hj _
    simpa only [Config.live, hprocess] using hc j

def sampleChange : DirectoryJob := .changePassword ⟨"u", "p", "q"⟩

def sampleChanged : Portal (Fin 3) := runAlone (.initial sampleSession) 0 sampleChange

/-- The user changes the password, and then the old token is refused. -/
theorem stay_signed_out_sample : ∃ c : Portal (Fin 3),
    (sampleChanged.process 0).map (fun p => p.program.result) = some (some (.ok ())) ∧
    (c.process 1).map (fun p => p.program.result.isSome) = some true ∧
    (∃ row ∈ sampleSession.refreshTokens.rows, row.userId = "u") ∧
    StaySignedOut sampleDirectorySettings (.initial sampleSession) sampleChanged c 0 := by
  have hchange : (portal sampleDirectorySettings).Reaches _ (.initial sampleSession) sampleChanged :=
    reaches_runAlone (fun _ => rfl) 0 sampleChange rfl (by decide +kernel)
  have hlive := live_runAlone (c := (.initial sampleSession : Portal (Fin 3))) (fun _ => rfl) 0
    sampleChange
  have hrefused := reaches_runAlone hlive 1 (.refreshTokens ⟨"a"⟩) rfl (by decide +kernel)
  exact ⟨_, by decide +kernel, by decide +kernel, by decide +kernel,
    stay_signed_out sampleSession_sound .refl hchange hrefused 0⟩

/-- The pool once a request has made its first calls. -/
def launch (c : Portal ι) (i : ι) (job : DirectoryJob) (n : ℕ) : Portal ι :=
  (c.put i (some ⟨job, [], job.execute sampleDirectorySettings⟩)).advance
    (Directory.respond sampleDirectorySettings) i n

theorem reaches_launch {c : Portal ι} (i : ι) (job : DirectoryJob) (n : ℕ)
    (hi : c.process i = none) :
    (portal sampleDirectorySettings).Reaches System.Any c (launch c i job n) :=
  (System.Reaches.refl.tail trivial (.start job hi)).advance
    (performs_respond sampleDirectorySettings) i n

/-- A refresh has read its token. -/
def sampleRead : Portal (Fin 3) := launch (.initial sampleSession) 1 (.refreshTokens ⟨"a"⟩) 4

/-- Then the password is changed, and the refresh goes on. -/
def sampleRaced : Portal (Fin 3) :=
  (launch sampleRead 0 sampleChange 20).advance (Directory.respond sampleDirectorySettings) 1 20

/-- A refresh that read its token before the password was changed saves a successor after it, and
the successor is good for another exchange. -/
theorem not_stay_signed_out : ¬ ∀ (c₀ c₁ c : Portal (Fin 3)) (i : Fin 3),
    (portal sampleDirectorySettings).Reaches System.Any (.initial sampleSession) c₀ →
    (portal sampleDirectorySettings).Reaches System.Any c₀ c₁ →
    (portal sampleDirectorySettings).Reaches System.Any c₁ c →
    StaySignedOut sampleDirectorySettings c₀ c₁ c i := by
  intro h
  have hread := reaches_launch (c := (.initial sampleSession : Portal (Fin 3))) 1
    (.refreshTokens ⟨"a"⟩) 4 rfl
  have hchange := reaches_launch (c := sampleRead) 0 sampleChange 20 rfl
  have hraced : (portal sampleDirectorySettings).Reaches System.Any
      (launch sampleRead 0 sampleChange 20) sampleRaced :=
    System.Reaches.refl.advance (performs_respond sampleDirectorySettings) 1 20
  have hagain := hraced.trans (reaches_launch (c := sampleRaced) 2 (.refreshTokens ⟨"bb"⟩) 20 rfl)
  have hchanged : ((launch sampleRead 0 sampleChange 20).process 0).map
      (fun p => (p.job, p.program.result)) = some (sampleChange, some (.ok ())) := by
    decide +kernel
  obtain ⟨p, hp, hpair⟩ := Option.map_eq_some_iff.mp hchanged
  obtain ⟨hjob, hok⟩ := Prod.mk.inj hpair
  have hrenewed : ((launch sampleRaced 2 (.refreshTokens ⟨"bb"⟩) 20).process 2).map
      (fun q => (q.program.result, q.job,
        (sessionOf sampleDirectorySettings q).found.map RefreshToken.familyId)) =
      some (some (.ok ()), .refreshTokens ⟨"bb"⟩, some "f") := by decide +kernel
  obtain ⟨q, hq, htriple⟩ := Option.map_eq_some_iff.mp hrenewed
  obtain ⟨hdone, hrest⟩ := Prod.mk.inj htriple
  obtain ⟨hjob', hfound⟩ := Prod.mk.inj hrest
  obtain ⟨t, ht, hfamily⟩ := Option.map_eq_some_iff.mp hfound
  have hcovers : (sessionOf sampleDirectorySettings p).Covers
      ⟨"a", "u", "f", "a", 1, some 1, none, none⟩ := by
    have hsame := (effective_of_succeeded (hread.trans hchange) hp hok).1
    simp [Session.Covers, hsame, hjob, sampleChange]
  have hstay := h _ _ _ 0 hread hchange hagain rfl p hp hok _ (by decide +kernel) hcovers 2 q hq
    ⟨hdone, ⟨_, hjob'⟩, t, ht, hfamily⟩
  have hnone : (launch sampleRead 0 sampleChange 20).process 2 = none := rfl
  rw [hnone] at hstay
  cases hstay

end Auth
