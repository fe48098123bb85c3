import Pivotal.Auth.SessionDeadlines

/-! Over whole runs: all tokens of a session carry the deadline of its login, and what is issued in
it ends by then. -/
namespace Auth
open Async (Config Event Label System update_eq_some)
open Tenure (Dated)

variable {ι : Type}

namespace Tenure

/-- A login that names its family. -/
def Begins (r : Tenure) (familyId : String) : Prop := r.found = none ∧ r.family = some familyId

/-- The token carries the deadline of the login. -/
def Dates (r : Tenure) (token : RefreshToken) : Prop :=
  ∃ deadline, r.deadline = some deadline ∧ token.sessionExpiresAt = some deadline

/-- A refresh issues into the family it has found, under the deadline it has found. -/
def Own (r : Tenure) : Prop :=
  ∀ token, r.found = some token → r.family = some token.familyId ∧
    ∀ deadline, r.deadline = some deadline → token.sessionExpiresAt = some deadline

theorem Dates.congr {r : Tenure} {token token' : RefreshToken} (h : r.Dates token)
    (hsame : token'.sessionExpiresAt = token.sessionExpiresAt) : r.Dates token' := by
  obtain ⟨deadline, hdeadline, hsession⟩ := h
  exact ⟨deadline, hdeadline, hsame.trans hsession⟩

end Tenure

/-- What the rows and the executions have to do with each other. -/
structure Tenured (s : Directory) (f : ι → Option Tenure) : Prop where
  minted : ∀ token ∈ s.refreshTokens.rows, token.familyId ∈ s.issued
  known : ∀ i r familyId, f i = some r → r.family = some familyId → familyId ∈ s.issued
  own : ∀ i r, f i = some r → r.Own
  dated : ∀ i r, f i = some r → ∀ token ∈ s.refreshTokens.rows, r.Begins token.familyId →
    r.Dates token
  apart : ∀ i j r r' familyId, f i = some r → f j = some r' → r.Begins familyId →
    r'.Begins familyId → i = j
  carried : ∀ i j r r' token, f i = some r → f j = some r' → r'.found = some token →
    r.Begins token.familyId → r.Dates token

/-- A record that may stand for the execution `i` among the others. -/
structure Joins (s : Directory) (f : ι → Option Tenure) (i : ι) (r : Tenure) : Prop where
  known : ∀ familyId, r.family = some familyId → familyId ∈ s.issued
  own : r.Own
  dated : ∀ token ∈ s.refreshTokens.rows, r.Begins token.familyId → r.Dates token
  apart : ∀ j r' familyId, j ≠ i → f j = some r' → r'.Begins familyId → ¬ r.Begins familyId
  carries : ∀ j r' token, j ≠ i → f j = some r' → r'.found = some token →
    r.Begins token.familyId → r.Dates token
  carried : ∀ j r' token, j ≠ i → f j = some r' → r.found = some token →
    r'.Begins token.familyId → r'.Dates token

section Invariant

variable {s s' : Directory} {f : ι → Option Tenure} {i : ι} {r r' : Tenure}

theorem Tenured.put [DecidableEq ι] (h : Tenured s f) (hr : Joins s f i r) :
    Tenured s (Function.update f i (some r)) := by
  refine ⟨h.minted, ?_, ?_, ?_, ?_, ?_⟩
  · intro j r₁ familyId hj hfamily
    rcases update_eq_some.mp hj with ⟨rfl, heq⟩ | ⟨-, hj⟩
    · cases heq
      exact hr.known familyId hfamily
    · exact h.known j r₁ familyId hj hfamily
  · intro j r₁ hj
    rcases update_eq_some.mp hj with ⟨rfl, heq⟩ | ⟨-, hj⟩
    · cases heq
      exact hr.own
    · exact h.own j r₁ hj
  · intro j r₁ hj
    rcases update_eq_some.mp hj with ⟨rfl, heq⟩ | ⟨-, hj⟩
    · cases heq
      exact hr.dated
    · exact h.dated j r₁ hj
  · intro j k r₁ r₂ familyId hj hk hbegins hbegins'
    rcases update_eq_some.mp hj with ⟨rfl, heq⟩ | ⟨hji, hother⟩
    · cases heq
      rcases update_eq_some.mp hk with ⟨rfl, -⟩ | ⟨hki, hk⟩
      · rfl
      · exact (hr.apart k r₂ familyId hki hk hbegins' hbegins).elim
    · rcases update_eq_some.mp hk with ⟨rfl, heq⟩ | ⟨-, hk⟩
      · cases heq
        exact (hr.apart j r₁ familyId hji hother hbegins hbegins').elim
      · exact h.apart j k r₁ r₂ familyId hother hk hbegins hbegins'
  · intro j k r₁ r₂ token hj hk hfound hbegins
    rcases update_eq_some.mp hj with ⟨rfl, heq⟩ | ⟨hji, hother⟩
    · cases heq
      rcases update_eq_some.mp hk with ⟨rfl, heq⟩ | ⟨hki, hk⟩
      · cases heq
        cases hbegins.1.symm.trans hfound
      · exact hr.carries k r₂ token hki hk hfound hbegins
    · rcases update_eq_some.mp hk with ⟨rfl, heq⟩ | ⟨-, hk⟩
      · cases heq
        exact hr.carried j r₁ token hji hother hfound hbegins
      · exact h.carried j k r₁ r₂ token hother hk hfound hbegins

theorem Tenured.remove [DecidableEq ι] (h : Tenured s f) :
    Tenured s (Function.update f i none) := by
  have hold : ∀ {j r₁}, Function.update f i none j = some r₁ → f j = some r₁ :=
    fun hj => (Async.of_update_none hj).2
  exact ⟨h.minted, fun j r₁ familyId hj => h.known j r₁ familyId (hold hj),
    fun j r₁ hj => h.own j r₁ (hold hj), fun j r₁ hj => h.dated j r₁ (hold hj),
    fun j k r₁ r₂ familyId hj hk => h.apart j k r₁ r₂ familyId (hold hj) (hold hk),
    fun j k r₁ r₂ token hj hk => h.carried j k r₁ r₂ token (hold hj) (hold hk)⟩

/-- The record of an execution that keeps its family and what it has found. -/
theorem Tenured.learns (h : Tenured s f) (hi : f i = some r) (hfamily : r'.family = r.family)
    (hfound : r'.found = r.found) (hdates : ∀ token, r.Dates token → r'.Dates token)
    (hown : r'.Own) : Joins s f i r' := by
  have hbegins : ∀ {familyId}, r'.Begins familyId → r.Begins familyId :=
    fun hb => ⟨hfound.symm.trans hb.1, hfamily.symm.trans hb.2⟩
  refine ⟨?_, hown, ?_, ?_, ?_, ?_⟩
  · intro familyId hf
    exact h.known i r familyId hi (hfamily.symm.trans hf)
  · exact fun token htoken hb => hdates token (h.dated i r hi token htoken (hbegins hb))
  · exact fun j r₁ familyId hji hj hb hb' => hji (h.apart j i r₁ r familyId hj hi hb (hbegins hb'))
  · exact fun j r₁ token _ hj hf hb => hdates token (h.carried i j r r₁ token hi hj hf (hbegins hb))
  · exact fun j r₁ token _ hj hf hb => h.carried j i r₁ r token hj hi (hfound.symm.trans hf) hb

/-- The rows come from those before, and no identifier is forgotten. -/
structure Settles (s s' : Directory) : Prop where
  issued : ∀ id ∈ s.issued, id ∈ s'.issued
  rows : ∀ row ∈ s'.refreshTokens.rows, ∃ old ∈ s.refreshTokens.rows,
    row.familyId = old.familyId ∧ row.sessionExpiresAt = old.sessionExpiresAt

theorem Settles.of_eq (hissued : s'.issued = s.issued)
    (htokens : s'.refreshTokens = s.refreshTokens) :
    Settles s s' := by
  refine ⟨?_, ?_⟩
  · rw [hissued]
    exact fun _ h => h
  · rw [htokens]
    exact fun row hrow => ⟨row, hrow, rfl, rfl⟩

theorem Settles.of_elapses (h : s.Elapses s') : Settles s s' := by
  refine ⟨h.1, ?_⟩
  intro row hrow
  obtain ⟨old, hold, heq⟩ := h.2 row hrow
  rw [heq]
  exact ⟨old, hold, rfl, rfl⟩

theorem settles_applies {ε : Type} {d : Directory} (a : Async.Written ε Unit) (h : Settles s d) :
    Settles s (a.applies s d) := by
  rcases a.applies_cases s d with ha | ⟨-, ha⟩
  · rwa [ha]
  · rw [ha]
    exact .of_eq rfl rfl

/-- Rows change, but neither their family nor their deadline. -/
theorem settles_map {g : RefreshToken → RefreshToken}
    (hg : ∀ token, (g token).familyId = token.familyId ∧
      (g token).sessionExpiresAt = token.sessionExpiresAt) :
    Settles s { s with refreshTokens := ⟨s.refreshTokens.rows.map g⟩ } := by
  refine ⟨fun _ h => h, ?_⟩
  intro row hrow
  obtain ⟨old, hold, rfl⟩ := List.mem_map.mp hrow
  exact ⟨old, hold, hg old⟩

theorem settles_revokeWhere (p : RefreshToken → Bool) (revokedAt : Js.Date) :
    Settles s { s with refreshTokens := s.refreshTokens.revokeWhere p revokedAt } := by
  apply settles_map
  intro token
  split <;> exact ⟨rfl, rfl⟩

theorem settles_markRevoked (id : String) (replacedBy : Option String) (revokedAt : Js.Date) :
    Settles s { s with refreshTokens := s.refreshTokens.markRevoked id replacedBy revokedAt } := by
  apply settles_map
  intro token
  split <;> exact ⟨rfl, rfl⟩

theorem Tenured.settles (h : Tenured s f) (hs : Settles s s') : Tenured s' f := by
  refine ⟨?_, ?_, h.own, ?_, h.apart, h.carried⟩
  · intro row hrow
    obtain ⟨old, hold, hfamily, -⟩ := hs.rows row hrow
    rw [hfamily]
    exact hs.issued _ (h.minted old hold)
  · exact fun i r familyId hi hfamily => hs.issued _ (h.known i r familyId hi hfamily)
  · intro i r hi row hrow hbegins
    obtain ⟨old, hold, hfamily, hsession⟩ := hs.rows row hrow
    rw [hfamily] at hbegins
    exact (h.dated i r hi old hold hbegins).congr hsession

/-- A token is stored under the deadline of its family. -/
theorem Tenured.insert (h : Tenured s f) (hi : f i = some r) {token : RefreshToken}
    {deadline : Js.Date} (hfamily : r.family = some token.familyId)
    (hdeadline : r.deadline = some deadline) (hsession : token.sessionExpiresAt = some deadline) :
    Tenured { s with refreshTokens := s.refreshTokens.insert token } f := by
  refine ⟨?_, h.known, h.own, ?_, h.apart, h.carried⟩
  · intro row hrow
    rcases List.mem_append.mp hrow with hold | hnew
    · exact h.minted row hold
    · obtain rfl := List.mem_singleton.mp hnew
      exact h.known i r _ hi hfamily
  · intro j r₁ hj row hrow hbegins
    rcases List.mem_append.mp hrow with hold | hnew
    · exact h.dated j r₁ hj row hold hbegins
    · obtain rfl := List.mem_singleton.mp hnew
      cases hfound : r.found with
      | none =>
        -- The login that names the family is this one.
        obtain rfl : i = j := h.apart i j r r₁ _ hi hj ⟨hfound, hfamily⟩ hbegins
        obtain rfl : r = r₁ := Option.some.inj (hi.symm.trans hj)
        exact ⟨deadline, hdeadline, hsession⟩
      | some existing =>
        obtain ⟨hown, hcarries⟩ := h.own i r hi existing hfound
        have hsame : row.familyId = existing.familyId :=
          Option.some.inj (hfamily.symm.trans hown)
        have hcarried := h.carried j i r₁ r existing hj hi hfound (hsame ▸ hbegins)
        exact hcarried.congr (hsession.trans (hcarries deadline hdeadline).symm)

variable {settings : DirectorySettings}

theorem settles_auth {op : AuthOp} {a : AuthAnswer op} (hop : op ≠ .nextId)
    (hinsert : ∀ token, op ≠ .insert token) (h : s.performsAuth op a s') : Settles s s' := by
  cases op with
  | nextId => exact absurd rfl hop
  | insert token => exact absurd rfl (hinsert token)
  | now | randomBytes => exact .of_eq (by rw [h]) (by rw [h])
  | findUser _ | findRole _ | findPermissionKeys _ => exact .of_eq (by rw [h.1]) (by rw [h.1])
  | sign claims =>
    rcases a with e | jwt
    · exact .of_eq (by rw [h]) (by rw [h])
    · exact .of_eq (by rw [h]) (by rw [h])
  | findByTokenHash tokenHash =>
    obtain ⟨t, ⟨ht, -⟩, rfl⟩ := h
    exact .of_eq rfl ht
  | revokeFamily familyId revokedAt =>
    obtain ⟨_, rfl, rfl⟩ := h
    rcases a.applies_cases s.refreshTokens _ with ha | ⟨-, ha⟩
    · rw [ha]
      exact settles_revokeWhere _ _
    · exact .of_eq rfl ha
  | markRevoked id replacedBy revokedAt =>
    obtain ⟨_, rfl, rfl⟩ := h
    rcases a.applies_cases s.refreshTokens _ with ha | ⟨-, ha⟩
    · rw [ha]
      exact settles_markRevoked _ _ _
    · exact .of_eq rfl ha

/-- The calls to the tables of users and roles, and to revoke what a user holds. -/
theorem settles_of_performs {op : DirectoryOp} {a : DirectoryAnswer op}
    (hop : ∀ op', op ≠ .auth op')
    (h : s.performs settings op a s') : Settles s s' := by
  cases op with
  | auth op => exact absurd rfl (hop op)
  | findUserById _ | findUserByEmail _ | findRoleById _ | findRoleByCode _
    | findPermissionKeysByRoleId _ | findPermissionsByKeyNames _
    | countActiveUsersGrantingPermission _ _ | countActiveUsersByRoleIdForFsp _ _ _
    | verifyPassword _ _ => exact .of_eq (by rw [h.1]) (by rw [h.1])
  | generateTempPassword | hashPassword _ => exact .of_eq (by rw [h]) (by rw [h])
  | insertUser user =>
    rcases h with ⟨hadmits, rfl⟩ | ⟨-, -, rfl⟩
    · exact settles_applies a (.of_eq rfl rfl)
    · exact .of_eq rfl rfl
  | revokeAllForUser userId revokedAt =>
    obtain rfl := h
    exact settles_applies a (settles_revokeWhere _ _)
  | _ =>
    obtain rfl := h
    exact settles_applies a (.of_eq rfl rfl)

theorem performsDated_eq {op : DirectoryOp} (a : DirectoryAnswer op)
    (hop : ∀ token, op ≠ .auth (.insert token)) :
    s.performsDated settings op a s' = s.performs settings op a s' := by
  cases op with
  | auth op =>
    cases op with
    | insert token => exact absurd rfl (hop token)
    | _ => rfl
  | _ => rfl

theorem settles_dated {op : DirectoryOp} {a : DirectoryAnswer op} (hop : op ≠ .auth .nextId)
    (hinsert : ∀ token, op ≠ .auth (.insert token)) (h : s.performsDated settings op a s') :
    Settles s s' := by
  rw [performsDated_eq a hinsert] at h
  cases op with
  | auth op =>
    have hnextId : op ≠ .nextId := by simpa using hop
    have hother : ∀ token, op ≠ .insert token := by simpa using hinsert
    exact settles_auth hnextId hother h
  | _ => exact settles_of_performs (by simp) h

theorem Tenured.stays (h : Tenured s f) (hi : f i = some r) : Joins s f i r :=
  h.learns hi rfl rfl (fun _ hd => hd) (h.own i r hi)

/-- A login mints the identifier of its family. -/
theorem Tenured.mints (h : Tenured s f) (hi : f i = some r) {a : String} (ha : a ∉ s.issued) :
    Joins { s with issued := a :: s.issued } f i (r.afterNextId a) := by
  have hissued : Tenured { s with issued := a :: s.issued } f :=
    h.settles ⟨fun _ hid => List.mem_cons_of_mem _ hid, fun row hrow => ⟨row, hrow, rfl, rfl⟩⟩
  by_cases hnames : (r.found.isNone && !r.drawn) = true
  · have hnext : r.afterNextId a = { r with family := some a } := by
      simp only [Tenure.afterNextId, hnames, if_true]
    have hnone : r.found = none := by
      simp only [Bool.and_eq_true, Option.isNone_iff_eq_none] at hnames
      exact hnames.1
    rw [hnext]
    refine ⟨?_, ?_, ?_, ?_, ?_, ?_⟩
    · rintro familyId ⟨⟩
      exact List.mem_cons_self ..
    · intro token hfound
      cases hnone.symm.trans hfound
    · rintro token htoken ⟨-, hbegins⟩
      exact absurd (Option.some.inj hbegins ▸ h.minted token htoken) ha
    · rintro j r₁ familyId - hj ⟨-, hfamily⟩ ⟨-, hbegins⟩
      exact absurd (Option.some.inj hbegins ▸ h.known j r₁ familyId hj hfamily) ha
    · rintro j r₁ token - hj hfound ⟨-, hbegins⟩
      exact absurd (Option.some.inj hbegins ▸ h.known j r₁ _ hj (h.own j r₁ hj token hfound).1) ha
    · intro j r₁ token _ _ hfound
      cases hnone.symm.trans hfound
  · have hnext : r.afterNextId a = r := if_neg hnames
    rw [hnext]
    exact hissued.stays hi

/-- A refresh finds a token, with the deadline of its family. -/
theorem Tenured.finds (h : Tenured s f) (hi : f i = some r) (hnone : r.deadline = none)
    {a : Except AuthError (Option RefreshToken)}
    (ha : ∀ token, a = .ok (some token) → token ∈ s.refreshTokens.rows) :
    Joins s f i (r.afterFind a) := by
  rcases a with e | _ | token
  · exact h.stays hi
  · exact h.stays hi
  have htoken := ha token rfl
  by_cases hnames : (r.refreshes && r.family.isNone) = true
  swap
  · have hnext : r.afterFind (.ok (some token)) = r := if_neg hnames
    rw [hnext]
    exact h.stays hi
  · have hnext : r.afterFind (.ok (some token)) =
        { r with family := some token.familyId, found := some token } := if_pos hnames
    rw [hnext]
    refine ⟨?_, ?_, ?_, ?_, ?_, ?_⟩
    · rintro familyId ⟨⟩
      exact h.minted token htoken
    · rintro existing ⟨⟩
      refine ⟨rfl, fun deadline hdeadline => ?_⟩
      cases hnone.symm.trans hdeadline
    · rintro existing - ⟨⟨⟩, -⟩
    · rintro j r₁ familyId - - - ⟨⟨⟩, -⟩
    · rintro j r₁ existing - - - ⟨⟨⟩, -⟩
    · rintro j r₁ existing - hj ⟨⟩ hbegins
      exact h.dated j r₁ hj token htoken hbegins

/-- The clock is read: a token may be dated, but not dated again. -/
theorem Tenured.reads (h : Tenured s f) (hi : f i = some r) (now : Js.Date) :
    Joins s f i (r.afterNow settings now) := by
  by_cases hdrawn : r.drawn = true
  · have hnext : r.afterNow settings now =
        { r with deadline := r.deadline <|> r.deadlineAt settings now } := by
      simp [Tenure.afterNow, hdrawn]
    rw [hnext]
    refine h.learns hi rfl rfl ?_ ?_
    · rintro token ⟨deadline, hdeadline, hsession⟩
      exact ⟨deadline, by simp [hdeadline], hsession⟩
    · intro token (hfound : r.found = some token)
      obtain ⟨hfamily, hcarries⟩ := h.own i r hi token hfound
      refine ⟨hfamily, fun deadline hdeadline => ?_⟩
      cases hset : r.deadline with
      | some deadline' =>
        simp only [hset] at hdeadline
        cases hdeadline
        exact hcarries deadline hset
      | none =>
        have hown : r.deadlineAt settings now = token.sessionExpiresAt := by
          simp [Tenure.deadlineAt, hfound]
        rw [← hown]
        simpa [hset] using hdeadline
  · have hnext : r.afterNow settings now = { r with checked := r.checked <|> some now } := by
      simp [Tenure.afterNow, hdrawn]
    rw [hnext]
    exact h.learns hi rfl rfl (fun _ hd => hd) (h.own i r hi)

theorem Tenured.inserts (h : Tenured s f) (hi : f i = some r) {token : RefreshToken}
    {a : Async.Written AuthError Unit} (hr : r.allows (.auth (.insert token)))
    (hp : s.performsDated settings (.auth (.insert token)) a s') : Tenured s' f := by
  obtain ⟨hfamily, deadline, hdeadline, hsession, -⟩ := hr
  obtain ⟨t, ⟨-, ht⟩, rfl⟩ := hp
  rw [ht]
  rcases a.applies_cases s.refreshTokens _ with ha | ⟨-, ha⟩
  · have hstored : r.family = some (token.stored settings.datetime).familyId := hfamily
    rw [ha]
    exact h.insert hi hstored hdeadline hsession
  · rwa [ha]

theorem Tenured.call [DecidableEq ι] (h : Tenured s f) (hi : f i = some r) {op : DirectoryOp}
    {a : DirectoryAnswer op} (hr : r.allows op) (hp : s.performsDated settings op a s') :
    Tenured s' (Function.update f i (some (r.next settings op a))) := by
  have hsettles : op ≠ .auth .nextId → (∀ token, op ≠ .auth (.insert token)) → Tenured s' f :=
    fun hop hinsert => h.settles (settles_dated hop hinsert hp)
  cases op with
  | auth op =>
    cases op with
    | nextId =>
      obtain ⟨ha, rfl⟩ := hp
      refine Tenured.put (h.settles ?_) (h.mints hi ha)
      exact ⟨fun _ hid => List.mem_cons_of_mem _ hid, fun row hrow => ⟨row, hrow, rfl, rfl⟩⟩
    | insert token =>
      have hs := h.inserts hi hr hp
      exact hs.put (hs.stays hi)
    | findByTokenHash tokenHash =>
      have hs := hsettles (by simp) (by simp)
      obtain ⟨t, ⟨ht, hfound⟩, rfl⟩ := hp
      refine hs.put (hs.finds hi hr ?_)
      rintro token rfl
      rw [ht]
      exact List.mem_of_find?_eq_some (hfound _ rfl).symm
    | now =>
      have hs := hsettles (by simp) (by simp)
      exact hs.put (hs.reads hi a)
    | randomBytes =>
      have hs := hsettles (by simp) (by simp)
      exact hs.put (hs.learns hi rfl rfl (fun _ hd => hd) (hs.own i r hi))
    | _ =>
      have hs := hsettles (by simp) (by simp)
      exact hs.put (hs.stays hi)
  | _ =>
    have hs := hsettles (by simp) (by simp)
    exact hs.put (hs.stays hi)

/-- The family of every token was minted. -/
def Directory.Minted (d : Directory) : Prop :=
  ∀ token ∈ d.refreshTokens.rows, token.familyId ∈ d.issued

instance (d : Directory) : Decidable d.Minted :=
  inferInstanceAs (Decidable (∀ token ∈ d.refreshTokens.rows, _))

theorem Tenured.initial (h : s.Minted) : Tenured s (fun _ : ι => none) := by
  refine ⟨h, ?_, ?_, ?_, ?_, ?_⟩
  · rintro i r familyId ⟨⟩
  · rintro i r ⟨⟩
  · rintro i r ⟨⟩
  · rintro i j r r' familyId ⟨⟩
  · rintro i j r r' token ⟨⟩

theorem Tenured.move [DecidableEq ι] (h : Tenured s f) {f' : ι → Option Tenure}
    {l : Label ι DirectoryOp DirectoryAnswer SessionJob}
    (hm : (sessions settings).Move (tenure settings) Tenure.initial s f l s' f') :
    Tenured s' f' := by
  cases hm with
  | start job hi =>
    refine h.put ⟨?_, ?_, ?_, ?_, ?_, ?_⟩
    · rintro familyId ⟨⟩
    · rintro token ⟨⟩
    · rintro token - ⟨-, ⟨⟩⟩
    · rintro j r' familyId - - - ⟨-, ⟨⟩⟩
    · rintro j r' token - - - ⟨-, ⟨⟩⟩
    · rintro j r' token - - ⟨⟩
  | call hi hr hp => exact h.call hi hr hp
  | crash hi => exact h.remove
  | background hb => exact h.settles (.of_elapses hb)

end Invariant

abbrev Sessions (ι : Type) :=
  Config ι DirectoryOp DirectoryAnswer DirectoryError Unit SessionJob Directory

theorem tenured_reached [DecidableEq ι] {settings : DirectorySettings} {d : Directory}
    {c : Sessions ι} (hd : d.Minted) (h : (sessions settings).Reaches System.Any (.initial d) c) :
    Tenured c.shared (c.records (tenure settings) Tenure.initial) :=
  h.records_invariant (fun _ _ _ => True) Tenured (Tenure.obeys_job settings) (.initial hd)
    fun _ _ _ _ _ hP _ hm => hP.move hm

section Traces

variable {settings : DirectorySettings} {t : List (Event DirectoryOp DirectoryAnswer)}
  {p : DirectoryProgram Unit} {job : SessionJob} {r : Tenure}

theorem after_keeps {R : Tenure → Prop} (hR : ∀ r op a, R r → R (Tenure.next settings r op a))
    (h : R r) : R ((tenure settings).after r t) := by
  induction t generalizing r with
  | nil => exact h
  | cons e t ih => exact ih (hR r e.op e.answer h)

/-- A token is issued in a family: its identifier is minted, the secret drawn, the clock read. -/
def IssuesAt (t : List (Event DirectoryOp DirectoryAnswer)) (familyId : String)
    (issuedAt : Js.Date) : Prop :=
  ∃ before secret after, t = before ++ ⟨.auth .nextId, familyId⟩ :: ⟨.auth .randomBytes, secret⟩ ::
    ⟨.auth .now, issuedAt⟩ :: after

/-- A token is looked up, and the clock is read. -/
def Checks (t : List (Event DirectoryOp DirectoryAnswer)) (existing : RefreshToken)
    (checkedAt : Js.Date) : Prop :=
  ∃ tokenHash after, t = ⟨.auth (.findByTokenHash tokenHash), .ok (some existing)⟩ ::
    ⟨.auth .now, checkedAt⟩ :: after

/-- Every token that is issued ends by the deadline, and a refresh token carries it. -/
structure EndsBy (deadline : Js.Date) (t : List (Event DirectoryOp DirectoryAnswer)) : Prop where
  refreshTokens : ∀ token a, ⟨.auth (.insert token), a⟩ ∈ t →
    token.sessionExpiresAt = some deadline ∧ token.expiresAt ≤ deadline
  accessTokens : ∀ claims a, ⟨.auth (.sign claims), a⟩ ∈ t → claims.exp * 1000 ≤ deadline

/-- What a login dates its token by. -/
theorem begins_of_issuesAt {input : LoginCommand.Input} {familyId : String} {issuedAt : Js.Date}
    (hruns : (SessionJob.execute settings (.login input)).Runs t p)
    (h : IssuesAt t familyId issuedAt) :
    ((tenure settings).after (.initial (.login input)) t).Begins familyId ∧
      ((tenure settings).after (.initial (.login input)) t).deadline =
        some (issuedAt + settings.sessionAbsoluteTimeoutHours * 3600000) := by
  obtain ⟨before, secret, after, rfl⟩ := h
  have hobeys := Tenure.obeys_job settings (.login input)
  have hstarts : ∀ t, ((tenure settings).after (.initial (.login input)) t).Starts :=
    fun t => after_keeps (fun r op a hr => Tenure.starts_next settings hr op a)
      ⟨rfl, rfl, fun _ => rfl⟩
  -- The secret is drawn once, so that nothing was drawn or dated before.
  have hdrawn := hobeys.allowed (t := before ++ [⟨.auth .nextId, familyId⟩])
    (e := ⟨.auth .randomBytes, secret⟩) (by simpa using hruns)
  generalize hr : (tenure settings).after (.initial (.login input)) before = r at *
  obtain ⟨-, hfound, hundated⟩ := hr ▸ hstarts before
  have hnamed : r.afterNextId familyId = { r with family := some familyId } ∧ r.drawn = false := by
    simp only [Async.Monitor.after_append, hr, Async.Monitor.after_cons, Async.Monitor.after_nil]
      at hdrawn
    cases hr' : r.drawn with
    | true => simp [tenure, Tenure.allows, Tenure.allowsAuth, Tenure.next, Tenure.nextAuth,
        Tenure.afterNextId, hr'] at hdrawn
    | false => simp [Tenure.afterNextId, hfound, hr']
  have hdated : ((tenure settings).after r [⟨.auth .nextId, familyId⟩,
      ⟨.auth .randomBytes, secret⟩, ⟨.auth .now, issuedAt⟩]).Dated familyId
        (issuedAt + settings.sessionAbsoluteTimeoutHours * 3600000) := by
    simp [tenure, Async.Monitor.after, Tenure.next, Tenure.nextAuth, Tenure.afterNow, hnamed.1,
      Tenure.deadlineAt, hfound, hundated hnamed.2, Tenure.Dated]
  have hafter := after_keeps (R := Dated familyId _) (t := after)
    (fun r op a hr => Tenure.dated_next settings hr op a) hdated
  have hwhole : (tenure settings).after (.initial (.login input)) (before ++
      ⟨.auth .nextId, familyId⟩ :: ⟨.auth .randomBytes, secret⟩ ::
        ⟨.auth .now, issuedAt⟩ :: after) =
      (tenure settings).after ((tenure settings).after r [⟨.auth .nextId, familyId⟩,
        ⟨.auth .randomBytes, secret⟩, ⟨.auth .now, issuedAt⟩]) after := by
    simp [Async.Monitor.after_append, hr]
  have hnone := (hstarts (before ++ ⟨.auth .nextId, familyId⟩ :: ⟨.auth .randomBytes, secret⟩ ::
    ⟨.auth .now, issuedAt⟩ :: after)).2.1
  rw [hwhole] at hnone ⊢
  exact ⟨⟨hnone, hafter.1⟩, hafter.2.2⟩

/-- What an execution issues ends by the deadline it has recorded. -/
theorem endsBy_of_deadline (hruns : (job.execute settings).Runs t p) {deadline : Js.Date}
    (h : ∀ deadline', ((tenure settings).after (.initial job) t).deadline = some deadline' →
      deadline' = deadline) : EndsBy deadline t := by
  have hobeys := Tenure.obeys_job settings job
  have hset : ∀ before after deadline', t = before ++ after →
      ((tenure settings).after (.initial job) before).deadline = some deadline' →
      deadline' = deadline := by
    rintro before after deadline' rfl hdeadline
    apply h
    rw [Async.Monitor.after_append]
    exact after_keeps (R := fun r => r.deadline = some deadline')
      (fun r op a hr => Tenure.deadline_next settings hr op a) hdeadline
  refine ⟨?_, ?_⟩
  · intro token a hmem
    obtain ⟨before, after, rfl⟩ := List.append_of_mem hmem
    obtain ⟨-, deadline', hdeadline, hsession, hexpires⟩ := hobeys.allowed hruns
    obtain rfl := hset before _ deadline' rfl hdeadline
    exact ⟨hsession, hexpires⟩
  · intro claims a hmem
    obtain ⟨before, after, rfl⟩ := List.append_of_mem hmem
    obtain ⟨deadline', hdeadline, hexp⟩ := hobeys.allowed hruns
    obtain rfl := hset before _ deadline' rfl hdeadline
    exact hexp

theorem checked_of_checks {input : RefreshTokensCommand.Input} {existing : RefreshToken}
    {checkedAt : Js.Date} (h : Checks t existing checkedAt) :
    ((tenure settings).after (.initial (.refreshTokens input)) t).Checked existing checkedAt := by
  obtain ⟨tokenHash, after, rfl⟩ := h
  rw [Async.Monitor.after_cons, Async.Monitor.after_cons]
  exact after_keeps (fun r op a hr => Tenure.checked_next settings hr op a) ⟨rfl, rfl, rfl⟩

end Traces

/-- Every token of the family carries the deadline, and refreshes issue none that ends later. A
refresh that reads the clock at the deadline, or after it, does not succeed. -/
structure Sessions.Over (c : Sessions ι) (familyId : String) (deadline : Js.Date) : Prop where
  rows : ∀ token ∈ c.shared.refreshTokens.rows, token.familyId = familyId →
    token.sessionExpiresAt = some deadline
  refreshes : ∀ j input t p existing checkedAt, c.process j = some ⟨.refreshTokens input, t, p⟩ →
    Checks t existing checkedAt → existing.familyId = familyId →
    EndsBy deadline t ∧ (deadline ≤ checkedAt → p ≠ .done (.ok ()))

/-- A session ends by the absolute timeout after its login's token was issued. -/
theorem session_ends_by_deadline [DecidableEq ι] {settings : DirectorySettings} {d : Directory}
    {c : Sessions ι} (hd : d.Minted) (h : (sessions settings).Reaches System.Any (.initial d) c)
    {i : ι} {input : LoginCommand.Input} {t : List (Event DirectoryOp DirectoryAnswer)}
    {p : DirectoryProgram Unit} {familyId : String} {issuedAt : Js.Date}
    (hi : c.process i = some ⟨.login input, t, p⟩) (hissued : IssuesAt t familyId issuedAt) :
    EndsBy (issuedAt + settings.sessionAbsoluteTimeoutHours * 3600000) t ∧
      c.Over familyId (issuedAt + settings.sessionAbsoluteTimeoutHours * 3600000) := by
  have hinv := tenured_reached hd h
  have hruns : (SessionJob.execute settings (.login input)).Runs t p := h.process_runs hi
  obtain ⟨hbegins, hdeadline⟩ := begins_of_issuesAt hruns hissued
  have hrecord : c.records (tenure settings) Tenure.initial i =
      some ((tenure settings).after (.initial (.login input)) t) := Config.records_eq hi
  have hsame : ∀ token : RefreshToken, ((tenure settings).after (.initial (.login input)) t).Dates
      token → token.sessionExpiresAt =
        some (issuedAt + settings.sessionAbsoluteTimeoutHours * 3600000) := by
    rintro token ⟨deadline, hset, hsession⟩
    exact hsession.trans (hset.symm.trans hdeadline)
  refine ⟨endsBy_of_deadline hruns ?_, ?_, ?_⟩
  · exact fun deadline' hset => Option.some.inj (hset.symm.trans hdeadline)
  · rintro token htoken rfl
    exact hsame token (hinv.dated i _ hrecord token htoken hbegins)
  · rintro j input' t' p' existing checkedAt hj hchecks rfl
    have hrecord' : c.records (tenure settings) Tenure.initial j =
        some ((tenure settings).after (.initial (.refreshTokens input')) t') := Config.records_eq hj
    have hchecked : ((tenure settings).after (.initial (.refreshTokens input')) t').Checked existing
        checkedAt := checked_of_checks hchecks
    have hsession := hsame existing (hinv.carried i j _ _ existing hrecord hrecord' hchecked.1
      hbegins)
    refine ⟨endsBy_of_deadline (h.process_runs hj) ?_, ?_⟩
    · intro deadline' hset
      have hown := (hinv.own j _ hrecord' existing hchecked.1).2 deadline' hset
      exact Option.some.inj (hown.symm.trans hsession)
    · rintro hlate rfl
      obtain ⟨existing', checkedAt', deadline', hchecked', hends, hbefore⟩ :=
        h.settled (Tenure.obeys_job settings) hj () rfl
      obtain rfl : existing = existing' := Option.some.inj (hchecked.1.symm.trans hchecked'.1)
      obtain rfl : checkedAt = checkedAt' := Option.some.inj (hchecked.2.2.symm.trans hchecked'.2.2)
      obtain rfl : deadline' = _ := Option.some.inj (hends.symm.trans hsession)
      exact absurd hbefore (not_lt.mpr hlate)

/-! A login and a refresh, one after the other, whose calls all succeed. -/

open Directory (sampleDirectorySettings)

theorem performsDated_respond (d : Directory) (op : DirectoryOp) :
    d.performsDated sampleDirectorySettings op (Directory.respond sampleDirectorySettings d op).1
      (Directory.respond sampleDirectorySettings d op).2 := by
  have hperforms := Directory.performs_respond sampleDirectorySettings d op
  cases op with
  | auth op => cases op <;> exact hperforms
  | _ => exact hperforms

def sampleCashier : Directory where
  users := ⟨[Account.new "c@f" "p" "cashier" (some "F") false "c"], by decide⟩
  roles := ⟨[⟨⟨"cashier", "CASHIER"⟩, "Cashier", none, .dfsp, false⟩], by decide⟩
  permissions := ⟨[], by decide⟩
  rolePermissions := []
  refreshTokens := .empty
  accessTokens := []
  issued := []
  latest := 0

def sampleLogin : SessionJob := .login ⟨"c@f", "p"⟩

def sampleRefresh : SessionJob := .refreshTokens ⟨"bb"⟩

/-- The login has settled, and then the refresh. -/
def sampleSignedIn :
    Directory × List (Event DirectoryOp DirectoryAnswer) × Except DirectoryError Unit :=
  (sampleLogin.execute sampleDirectorySettings).solo (Directory.respond sampleDirectorySettings)
    sampleCashier []

def sampleRefreshed :
    Directory × List (Event DirectoryOp DirectoryAnswer) × Except DirectoryError Unit :=
  (sampleRefresh.execute sampleDirectorySettings).solo (Directory.respond sampleDirectorySettings)
    sampleSignedIn.1 []

def sampleSessions : Sessions Bool :=
  ((((Config.initial sampleCashier).withShared sampleSignedIn.1).put false
    (some ⟨sampleLogin, sampleSignedIn.2.1, .done sampleSignedIn.2.2⟩)).withShared
      sampleRefreshed.1).put true
    (some ⟨sampleRefresh, sampleRefreshed.2.1, .done sampleRefreshed.2.2⟩)

theorem sampleSessions_reached : (sessions sampleDirectorySettings).Reaches System.Any
    (.initial sampleCashier) sampleSessions := by
  have hstart : (sessions sampleDirectorySettings).Reaches System.Any (.initial sampleCashier)
      (.initial sampleCashier : Sessions Bool) := .refl
  have hlogin := hstart.solo false sampleLogin rfl performsDated_respond trivial
    (Async.Program.soloAll_of_forall (fun _ _ _ _ => trivial) _ _ _)
  exact hlogin.solo true sampleRefresh rfl performsDated_respond trivial
    (Async.Program.soloAll_of_forall (fun _ _ _ _ => trivial) _ _ _)

theorem sampleSignedIn_issues : IssuesAt sampleSignedIn.2.1 "b" 0 :=
  ⟨sampleSignedIn.2.1.take 7, "bb", sampleSignedIn.2.1.drop 10, by rfl⟩

theorem session_ends_by_deadline_sample : sampleRefreshed.2.2 = .ok () ∧
    sampleRefreshed.1.refreshTokens.rows.map (fun token => token.sessionExpiresAt) =
      [some 43200000, some 43200000] ∧
    EndsBy 43200000 sampleSignedIn.2.1 ∧ sampleSessions.Over "b" 43200000 := by
  have hsession := session_ends_by_deadline (by decide) sampleSessions_reached (i := false) rfl
    sampleSignedIn_issues
  exact ⟨by decide +kernel, by decide +kernel, hsession⟩

end Auth
