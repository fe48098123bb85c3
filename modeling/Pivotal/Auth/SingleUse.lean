import Pivotal.Auth.RefreshTokens

/-! Rotation is read, save, mark, and none of it is conditional. What an execution can do to
the table is a step of a small protocol; as long as no save is overtaken by another rotation
of the same token, and every saved successor is followed by the mark of its predecessor, each
family is a chain with one live token, and each token is exchanged once. -/
namespace Auth
open Async
open Async.Program (Keeps Obeys)

/-- How far an execution has come with the token it read. -/
inductive Stage where
  | start
  | read (token : RefreshToken)
  | saved (token : RefreshToken)
  | rotated (token : RefreshToken)
  | orphaned (token : RefreshToken)
  deriving DecidableEq

/-- The hash of the token an execution was given, and what it has made of that token. -/
structure Rotation where
  tokenHash : String
  stage : Stage
  deriving DecidableEq

namespace Rotation

def afterFind (r : Rotation) (a : Except AuthError (Option RefreshToken)) : Rotation :=
  match a with
  | .ok (some token) => { r with stage := .read token }
  | _ => r

/-- A saved row that the execution does not know of stays in the family. -/
def afterInsert (r : Rotation) (a : Written AuthError Unit) : Rotation :=
  match r.stage, a with
  | .read token, .done _ => { r with stage := .saved token }
  | .read token, .lost _ => { r with stage := .orphaned token }
  | _, _ => r

def afterMark (r : Rotation) (a : Written AuthError Unit) : Rotation :=
  match r.stage, a with
  | .saved token, .rejected _ => { r with stage := .orphaned token }
  | .saved token, _ => { r with stage := .rotated token }
  | _, _ => r

def next (r : Rotation) : (op : AuthOp) → AuthAnswer op → Rotation
  | .findByTokenHash _, a => r.afterFind a
  | .insert _, a => r.afterInsert a
  | .markRevoked _ _ _, a => r.afterMark a
  | _, _ => r

def allows (r : Rotation) : AuthOp → Prop
  | .findByTokenHash tokenHash => r.stage = .start ∧ tokenHash = r.tokenHash
  | .insert successor => ∃ token, r.stage = .read token ∧
    successor.familyId = token.familyId ∧ successor.revokedAt = none
  | .markRevoked id _ _ => ∃ token, r.stage = .saved token ∧ id = token.id
  | _ => True

/-- An execution that has settled is not between its save and its mark, and if it returned
new tokens it has done both. -/
def Settled (tokenHash : String) (r : Rotation) (result : Except AuthError RefreshTokensCommand.Output) :
    Prop :=
  r.tokenHash = tokenHash ∧ (∀ token, r.stage ≠ .saved token) ∧
    ∀ output, result = .ok output → ∃ token, r.stage = .rotated token

end Rotation

def rotation : Monitor AuthOp AuthAnswer Rotation := ⟨Rotation.next, Rotation.allows⟩

@[simp] theorem rotation_next (r : Rotation) (op : AuthOp) (a : AuthAnswer op) :
    rotation.next r op a = r.next op a := rfl

@[simp] theorem rotation_allows (r : Rotation) (op : AuthOp) :
    rotation.allows r op = r.allows op := rfl

section Programs

variable {R : Rotation → Prop} (settings : AuthSettings)

theorem revokeFamily_keeps (familyId : String) :
    (RefreshTokenRepository.revokeFamily familyId).Keeps rotation R := by
  apply Keeps.bind (Program.keeps_perform fun r hr => ⟨trivial, fun _ => hr⟩)
  intro revokedAt
  apply Keeps.bind (Program.keeps_perform fun r hr => ⟨trivial, fun _ => hr⟩)
  intro a
  exact Program.keeps_lift _

theorem issueRefreshToken_keeps (sessionExpiresAt : Option Js.Date) :
    (TokenService.issueRefreshToken settings sessionExpiresAt).Keeps rotation R := by
  apply Keeps.bind (Program.keeps_perform fun r hr => ⟨trivial, fun _ => hr⟩)
  intro plaintext
  apply Keeps.bind (Program.keeps_perform fun r hr => ⟨trivial, fun _ => hr⟩)
  intro now
  exact Program.keeps_pure _

theorem signAccessToken_keeps (user : User) (roleCode : String) (permissions : List String)
    (sessionExpiresAt : Js.Date) :
    (TokenService.signAccessToken settings user roleCode permissions sessionExpiresAt).Keeps
      rotation R := by
  apply Keeps.bind (Program.keeps_perform fun r hr => ⟨trivial, fun _ => hr⟩)
  intro now
  apply Keeps.bind (Program.keeps_perform fun r hr => ⟨trivial, fun _ => hr⟩)
  intro jti
  apply Keeps.bind (Program.keeps_perform fun r hr => ⟨trivial, fun _ => hr⟩)
  intro signed
  exact Program.keeps_lift _

variable {h : String} {existing : RefreshToken}

theorem settled_error {stage : Stage} (hs : ∀ token, stage ≠ .saved token) (e : AuthError) :
    Rotation.Settled h ⟨h, stage⟩ (.error e) := by
  refine ⟨rfl, hs, ?_⟩
  intro output ho
  cases ho

theorem settled_start (e : AuthError) : Rotation.Settled h ⟨h, .start⟩ (.error e) :=
  settled_error (by simp) e

theorem settled_read (existing : RefreshToken) (e : AuthError) : Rotation.Settled h ⟨h, .read existing⟩ (.error e) :=
  settled_error (by simp) e

theorem settled_orphaned (existing : RefreshToken) (e : AuthError) :
    Rotation.Settled h ⟨h, .orphaned existing⟩ (.error e) :=
  settled_error (by simp) e

theorem settled_rotated (existing : RefreshToken)
    (result : Except AuthError RefreshTokensCommand.Output) :
    Rotation.Settled h ⟨h, .rotated existing⟩ result := by
  refine ⟨rfl, ?_, ?_⟩
  · intro token ht
    cases ht
  · intro output _
    exact ⟨existing, rfl⟩

theorem obeys_rotate (user : User) (role : Role) :
    (RefreshTokensHandler.rotate settings existing user role).Obeys rotation
      ⟨h, .read existing⟩ (Rotation.Settled h) := by
  apply (issueRefreshToken_keeps (R := (· = ⟨h, .read existing⟩)) settings _ _ rfl).seq
  · rintro issued _ rfl
    refine ⟨trivial, fun id => ⟨⟨existing, rfl, rfl, rfl⟩, fun a => ?_⟩⟩
    rcases a with a | e | e
    · refine ⟨trivial, fun revokedAt => ⟨⟨existing, rfl, rfl⟩, fun a => ?_⟩⟩
      rcases a with a | e | e
      · apply Obeys.afterPerform trivial
        intro found
        apply Obeys.afterLift (fun e => settled_rotated existing _)
        intro permissions _
        apply (signAccessToken_keeps (R := (· = ⟨h, .rotated existing⟩)) settings _ _ _ _ _
          rfl).seq
        · rintro accessToken _ rfl
          exact settled_rotated _ _
        · rintro e _ rfl
          exact settled_rotated _ _
      · exact settled_rotated existing _
      · exact settled_orphaned existing e
    · exact settled_orphaned existing e
    · exact settled_read existing e
  · rintro e _ rfl
    exact settled_read _ e

theorem obeys_revoked (familyId : String) (e : AuthError) :
    (do RefreshTokenRepository.revokeFamily familyId
        throw e : AuthProgram RefreshTokensCommand.Output).Obeys rotation ⟨h, .read existing⟩
      (Rotation.Settled h) := by
  apply (revokeFamily_keeps (R := (· = ⟨h, .read existing⟩)) familyId _ rfl).seq
  · rintro _ _ rfl
    exact settled_read _ e
  · rintro e' _ rfl
    exact settled_read _ e'

theorem obeys_exchange : (RefreshTokensHandler.exchange settings existing).Obeys rotation
    ⟨h, .read existing⟩ (Rotation.Settled h) := by
  apply Obeys.afterPerform trivial
  intro found
  apply Obeys.afterLift (fun e => settled_read existing e)
  rintro (_ | user) _
  · exact obeys_revoked _ _
  · by_cases hactive : user.isActive
    · simp only [hactive, Bool.not_true, Bool.false_eq_true, if_false]
      apply Obeys.afterPerform trivial
      intro found
      apply Obeys.afterLift (fun e => settled_read existing e)
      rintro (_ | role) _
      · exact settled_read existing _
      · exact obeys_rotate settings user role
    · simp only [hactive, Bool.not_false, if_true]
      exact obeys_revoked _ _

theorem obeys_execute (input : RefreshTokensCommand.Input) :
    (RefreshTokensHandler.execute settings input).Obeys rotation
      ⟨TokenService.hashRefreshToken settings input.refreshToken, .start⟩
      (Rotation.Settled (TokenService.hashRefreshToken settings input.refreshToken)) := by
  refine ⟨⟨rfl, rfl⟩, fun found => ?_⟩
  rcases found with e | _ | existing
  · exact settled_start e
  · exact settled_start _
  · apply Obeys.afterPerform trivial
    intro now
    cases hexp : RefreshTokensHandler.expired existing now with
    | some reason => exact obeys_revoked _ _
    | none =>
      by_cases hrev : existing.revokedAt.isSome
      · simp only [hrev, if_true]
        exact obeys_revoked _ _
      · simp only [hrev, if_neg (Bool.false_ne_true)]
        exact obeys_exchange settings

end Programs

/-- A change of rows that keeps what a row is found by, and takes no revocation back. -/
structure Revokes (g : RefreshToken → RefreshToken) : Prop where
  id : ∀ token, (g token).id = token.id
  tokenHash : ∀ token, (g token).tokenHash = token.tokenHash
  familyId : ∀ token, (g token).familyId = token.familyId
  revokedAt : ∀ token, (g token).revokedAt = none → token.revokedAt = none

theorem revokes_where (p : RefreshToken → Bool) (revokedAt : Js.Date) :
    Revokes fun token => if p token then { token with revokedAt := some revokedAt } else token := by
  constructor
  all_goals
    intro token
    split <;> simp

theorem revokes_mark (id : String) (replacedBy : Option String) (revokedAt : Js.Date) :
    Revokes fun token => if token.id = id then
      { token with revokedAt := some revokedAt, replacedBy := replacedBy } else token := by
  constructor
  all_goals
    intro token
    split <;> simp

/-- The token an execution replaces, once it has saved the successor. -/
def Rotation.Replaces (r : Rotation) (token : RefreshToken) : Prop :=
  r.stage = .saved token ∨ r.stage = .rotated token

/-- One call of an execution with record `r`, none of which loses track of a successor. -/
inductive Rotates : RefreshTokens → Rotation → RefreshTokens → Rotation → Prop
  | idle {s : RefreshTokens} {r : Rotation} : Rotates s r s r
  | read {s : RefreshTokens} {r : Rotation} {token : RefreshToken} : r.stage = .start →
      token ∈ s.rows → token.tokenHash = r.tokenHash → Rotates s r s { r with stage := .read token }
  | save {s : RefreshTokens} {r : Rotation} {token successor : RefreshToken} :
      r.stage = .read token → s.Admits successor → successor.familyId = token.familyId →
      Rotates s r (s.insert successor) { r with stage := .saved token }
  | mark {s : RefreshTokens} {r : Rotation} {token : RefreshToken}
      {g : RefreshToken → RefreshToken} : r.stage = .saved token → Revokes g →
      (∀ other, other.id = token.id → (g other).revokedAt ≠ none) →
      Rotates s r ⟨s.rows.map g⟩ { r with stage := .rotated token }
  | revoke {s : RefreshTokens} {r : Rotation} {g : RefreshToken → RefreshToken} : Revokes g →
      Rotates s r ⟨s.rows.map g⟩ r

/-- The saved row is known to its execution, and its predecessor is marked. -/
def Tracked : Event AuthOp AuthAnswer → Bool
  | ⟨.insert _, .lost _⟩ => false
  | ⟨.markRevoked _ _ _, .rejected _⟩ => false
  | _ => true

section Calls

variable {s s' : RefreshTokens} {r : Rotation}

theorem rotates_find {tokenHash : String} {a : AuthAnswer (.findByTokenHash tokenHash)}
    (hr : r.allows (.findByTokenHash tokenHash)) (hp : s.performs (.findByTokenHash tokenHash) a s') :
    Rotates s r s' (r.afterFind a) := by
  obtain ⟨hstart, hhash⟩ := hr
  obtain ⟨rfl, hfound⟩ := hp
  rcases a with e | _ | token
  · exact .idle
  · exact .idle
  · have hfind := (hfound _ rfl).symm
    have hmem := List.mem_of_find?_eq_some hfind
    have hsame : token.tokenHash = tokenHash := by simpa using List.find?_some hfind
    exact .read hstart hmem (hsame.trans hhash)

theorem rotates_insert {token : RefreshToken} {a : Written AuthError Unit}
    (hr : r.allows (.insert token)) (hp : s.performs (.insert token) a s')
    (ht : Tracked ⟨.insert token, a⟩) : Rotates s r s' (r.afterInsert a) := by
  obtain ⟨existing, hstage, hfamily, -⟩ := hr
  obtain ⟨hadmits, rfl⟩ := hp
  cases a with
  | done u =>
    have hfresh : s.Admits token := by
      by_contra hno
      obtain ⟨e, he⟩ := hadmits hno
      cases he
    simpa [Rotation.afterInsert, hstage] using Rotates.save hstage hfresh hfamily
  | lost e => cases ht
  | rejected e => simpa [Rotation.afterInsert, hstage] using Rotates.idle (s := s) (r := r)

theorem rotates_mark {id : String} {replacedBy : Option String} {revokedAt : Js.Date}
    {a : Written AuthError Unit} (hr : r.allows (.markRevoked id replacedBy revokedAt))
    (hp : s.performs (.markRevoked id replacedBy revokedAt) a s')
    (ht : Tracked ⟨.markRevoked id replacedBy revokedAt, a⟩) : Rotates s r s' (r.afterMark a) := by
  obtain ⟨existing, hstage, rfl⟩ := hr
  obtain rfl := hp
  have hmark : Rotates s r (s.markRevoked existing.id replacedBy revokedAt)
      { r with stage := .rotated existing } := by
    apply Rotates.mark hstage (revokes_mark existing.id replacedBy revokedAt)
    intro other hid
    simp [hid]
  cases a with
  | done u => simpa [Rotation.afterMark, hstage] using hmark
  | lost e => simpa [Rotation.afterMark, hstage] using hmark
  | rejected e => cases ht

/-- Every allowed call of an execution is a step of the protocol. -/
theorem rotates_of_performs {op : AuthOp} {a : AuthAnswer op} (hr : r.allows op)
    (hp : s.performs op a s') (ht : Tracked ⟨op, a⟩) : Rotates s r s' (r.next op a) := by
  cases op with
  | findByTokenHash tokenHash => exact rotates_find hr hp
  | insert token => exact rotates_insert hr hp ht
  | markRevoked id replacedBy revokedAt => exact rotates_mark hr hp ht
  | revokeFamily familyId revokedAt =>
    obtain rfl := hp
    rcases a.applies_cases s (s.revokeWhere (RefreshTokens.unrevokedIn familyId) revokedAt) with
      ha | ⟨-, ha⟩
    · rw [ha]
      exact .revoke (revokes_where _ _)
    · rw [ha]
      exact .idle
  | _ =>
    obtain rfl : s' = s := hp
    exact .idle

end Calls

section Chain

variable {ι : Type}

/-- The token is not revoked, and no execution is between saving its successor and marking it. -/
structure Live (s : RefreshTokens) (f : ι → Option Rotation) (token : RefreshToken) : Prop where
  mem : token ∈ s.rows
  unrevoked : token.revokedAt = none
  unreplaced : ∀ i r existing, f i = some r → r.stage = .saved existing → existing.id ≠ token.id

/-- What an execution has read is, but for its revocation, still a row. -/
structure Known (s : RefreshTokens) (tokenHash : String) (token : RefreshToken) : Prop where
  hash : token.tokenHash = tokenHash
  row : ∃ row ∈ s.rows, row.id = token.id ∧ row.tokenHash = tokenHash ∧
    row.familyId = token.familyId

def Rotation.Holds (r : Rotation) (token : RefreshToken) : Prop :=
  r.stage = .read token ∨ r.Replaces token

def Spent (s : RefreshTokens) (token : RefreshToken) : Prop :=
  ∀ row ∈ s.rows, row.id = token.id → row.revokedAt ≠ none

/-- Every family is a chain: each token has one successor at most, and one token is live. -/
structure Chain (s : RefreshTokens) (f : ι → Option Rotation) : Prop where
  uniqueId : ∀ t ∈ s.rows, ∀ t' ∈ s.rows, t.id = t'.id → t = t'
  uniqueHash : ∀ t ∈ s.rows, ∀ t' ∈ s.rows, t.tokenHash = t'.tokenHash → t = t'
  known : ∀ i r token, f i = some r → r.Holds token → Known s r.tokenHash token
  spent : ∀ i r token, f i = some r → r.stage = .rotated token → Spent s token
  once : ∀ i j r r' token token', f i = some r → f j = some r' → r.Replaces token →
    r'.Replaces token' → token.id = token'.id → i = j
  leaf : ∀ t t', Live s f t → Live s f t' → t.familyId = t'.familyId → t = t'

namespace Chain

variable {s : RefreshTokens} {f : ι → Option Rotation}

theorem initial : Chain .empty (fun _ : ι => none) := by
  constructor <;> simp [RefreshTokens.empty]
  intro t t' ht
  cases ht.mem

theorem revoke (h : Chain s f) {g : RefreshToken → RefreshToken} (hg : Revokes g) :
    Chain ⟨s.rows.map g⟩ f := by
  have hlive : ∀ t, Live ⟨s.rows.map g⟩ f t → ∃ t₀, Live s f t₀ ∧ g t₀ = t := by
    rintro t ⟨hmem, hnone, hno⟩
    obtain ⟨t₀, hmem₀, rfl⟩ := List.mem_map.mp hmem
    refine ⟨t₀, ⟨hmem₀, hg.revokedAt t₀ hnone, ?_⟩, rfl⟩
    simpa only [hg.id] using hno
  constructor
  · simp only [List.forall_mem_map, hg.id]
    intro t ht t' ht' hid
    rw [h.uniqueId t ht t' ht' hid]
  · simp only [List.forall_mem_map, hg.tokenHash]
    intro t ht t' ht' hhash
    rw [h.uniqueHash t ht t' ht' hhash]
  · intro i r token hi hr
    obtain ⟨hhash, row, hrow, hid, hrest⟩ := h.known i r token hi hr
    refine ⟨hhash, g row, List.mem_map_of_mem hrow, ?_⟩
    rw [hg.id, hg.tokenHash, hg.familyId]
    exact ⟨hid, hrest⟩
  · intro i r token hi hr
    simp only [Spent, List.forall_mem_map, hg.id]
    intro row hrow hid hnone
    exact h.spent i r token hi hr row hrow hid (hg.revokedAt row hnone)
  · exact h.once
  · intro t t' ht ht' hfamily
    obtain ⟨t₀, hlive₀, rfl⟩ := hlive t ht
    obtain ⟨t₁, hlive₁, rfl⟩ := hlive t' ht'
    rw [hg.familyId, hg.familyId] at hfamily
    rw [h.leaf t₀ t₁ hlive₀ hlive₁ hfamily]

/-- A new token in a family without a live one. -/
theorem insert (h : Chain s f) {token : RefreshToken} (hadmits : s.Admits token)
    (hfamily : ∀ t, Live s f t → t.familyId ≠ token.familyId) : Chain (s.insert token) f := by
  have hmem : ∀ t, t ∈ (s.insert token).rows ↔ t ∈ s.rows ∨ t = token := by
    simp [RefreshTokens.insert]
  have hlive : ∀ t, Live (s.insert token) f t → Live s f t ∨ t = token := by
    rintro t ⟨ht, hnone, hno⟩
    rcases (hmem t).mp ht with ht | rfl
    · exact .inl ⟨ht, hnone, hno⟩
    · exact .inr rfl
  constructor
  · intro t ht t' ht' hid
    rcases (hmem t).mp ht with hold | rfl <;> rcases (hmem t').mp ht' with hold' | rfl
    · exact h.uniqueId t hold t' hold' hid
    · exact absurd hid (hadmits t hold).1
    · exact absurd hid.symm (hadmits t' hold').1
    · rfl
  · intro t ht t' ht' hhash
    rcases (hmem t).mp ht with hold | rfl <;> rcases (hmem t').mp ht' with hold' | rfl
    · exact h.uniqueHash t hold t' hold' hhash
    · exact absurd hhash (hadmits t hold).2
    · exact absurd hhash.symm (hadmits t' hold').2
    · rfl
  · intro i r existing hi hr
    obtain ⟨hhash, row, hrow, hrest⟩ := h.known i r existing hi hr
    exact ⟨hhash, row, (hmem row).mpr (.inl hrow), hrest⟩
  · intro i r existing hi hr row hrow hid
    rcases (hmem row).mp hrow with hrow | rfl
    · exact h.spent i r existing hi hr row hrow hid
    · obtain ⟨-, known, hknown, hsame, -⟩ := h.known i r existing hi (.inr (.inr hr))
      exact absurd (hsame.trans hid.symm) (hadmits known hknown).1
  · exact h.once
  · intro t t' ht ht' hsame
    rcases hlive t ht with hold | rfl <;> rcases hlive t' ht' with hold' | rfl
    · exact h.leaf t t' hold hold' hsame
    · exact absurd hsame (hfamily t hold)
    · exact absurd hsame.symm (hfamily t' hold')
    · rfl

variable [DecidableEq ι] {i : ι} {x : Option Rotation}

theorem update (h : Chain s f)
    (hknown : ∀ r token, x = some r → r.Holds token → Known s r.tokenHash token)
    (hspent : ∀ r token, x = some r → r.stage = .rotated token → Spent s token)
    (honce : ∀ r token, x = some r → r.Replaces token → ∀ j r' token', j ≠ i → f j = some r' →
      r'.Replaces token' → token'.id ≠ token.id)
    (hsaved : ∀ r token, f i = some r → r.stage = .saved token → x = some r ∨ Spent s token) :
    Chain s (Function.update f i x) := by
  have hlive : ∀ t, Live s (Function.update f i x) t → Live s f t := by
    rintro t ⟨ht, hnone, hno⟩
    refine ⟨ht, hnone, ?_⟩
    intro j r existing hj hr hid
    by_cases hji : j = i
    · subst hji
      rcases hsaved r existing hj hr with hx | hx
      · exact hno j r existing (by rw [Function.update_self, hx]) hr hid
      · exact hx t ht hid.symm hnone
    · exact hno j r existing (by rwa [Function.update_of_ne hji]) hr hid
  constructor
  · exact h.uniqueId
  · exact h.uniqueHash
  · intro j r token hj hr
    rcases update_eq_some.mp hj with ⟨-, hx⟩ | ⟨-, hf⟩
    · exact hknown r token hx hr
    · exact h.known j r token hf hr
  · intro j r token hj hr
    rcases update_eq_some.mp hj with ⟨-, hx⟩ | ⟨-, hf⟩
    · exact hspent r token hx hr
    · exact h.spent j r token hf hr
  · intro j k r r' token token' hj hk hr hr' hid
    rcases update_eq_some.mp hj with ⟨rfl, hx⟩ | ⟨hji, hf⟩ <;>
      rcases update_eq_some.mp hk with ⟨rfl, hx'⟩ | ⟨hki, hf'⟩
    · rfl
    · exact absurd hid.symm (honce r token hx hr k r' token' hki hf' hr')
    · exact absurd hid (honce r' token' hx' hr' j r token hji hf hr)
    · exact h.once j k r r' token token' hf hf' hr hr' hid
  · intro t t' ht ht' hfamily
    exact h.leaf t t' (hlive t ht) (hlive t' ht') hfamily

/-- A call of an execution that saves a successor only to a live token. -/
theorem rotates (h : Chain s f) {s' : RefreshTokens} {r r' : Rotation} (hi : f i = some r)
    (hr : Rotates s r s' r') (hlive : ∀ token, r.stage = .read token → r'.stage = .saved token →
      ∃ row, Live s f row ∧ row.id = token.id) : Chain s' (Function.update f i (some r')) := by
  cases hr with
  | idle => rwa [← hi, Function.update_eq_self]
  | revoke hg =>
    rw [← hi, Function.update_eq_self]
    exact h.revoke hg
  | @read token hstart hmem hhash =>
    apply h.update
    · rintro r' existing ⟨rfl⟩ hholds
      obtain rfl : token = existing := by simpa [Rotation.Holds, Rotation.Replaces] using hholds
      exact ⟨hhash, token, hmem, rfl, hhash, rfl⟩
    · rintro r' existing ⟨rfl⟩ hstage
      cases hstage
    · rintro r' existing ⟨rfl⟩ (hstage | hstage) <;> cases hstage
    · intro r₀ existing hr₀ hstage
      obtain rfl : r = r₀ := Option.some.inj (hi.symm.trans hr₀)
      rw [hstart] at hstage
      cases hstage
  | @save token successor hstage hadmits hfamily =>
    obtain ⟨row, hrow, hid⟩ := hlive token hstage rfl
    have hknown := h.known i r token hi (.inl hstage)
    have hsaved : Chain s (Function.update f i (some { r with stage := .saved token })) := by
      apply h.update
      · rintro r' existing ⟨rfl⟩ hholds
        obtain rfl : token = existing := by simpa [Rotation.Holds, Rotation.Replaces] using hholds
        exact hknown
      · rintro r' existing ⟨rfl⟩ hrotated
        cases hrotated
      · rintro r' existing ⟨rfl⟩ hreplaces j r₁ token' hji hj hr₁ hsame
        obtain rfl : token = existing := by simpa [Rotation.Replaces] using hreplaces
        rcases hr₁ with hr₁ | hr₁
        · exact hrow.unreplaced j r₁ token' hj hr₁ (hsame.trans hid.symm)
        · exact h.spent j r₁ token' hj hr₁ row hrow.mem (hid.trans hsame.symm) hrow.unrevoked
      · intro r₀ existing hr₀ hsaved
        obtain rfl : r = r₀ := Option.some.inj (hi.symm.trans hr₀)
        rw [hstage] at hsaved
        cases hsaved
    apply hsaved.insert hadmits
    -- The only live token of the family was the one that is being replaced.
    intro t ht hsame
    obtain ⟨-, known, hmem, hknownId, -, hknownFamily⟩ := hknown
    obtain rfl : known = row := h.uniqueId known hmem row hrow.mem (hknownId.trans hid.symm)
    have hold : Live s f t := by
      refine ⟨ht.mem, ht.unrevoked, ?_⟩
      intro j r₁ existing hj hr₁
      by_cases hji : j = i
      · subst hji
        obtain rfl : r = r₁ := Option.some.inj (hi.symm.trans hj)
        rw [hstage] at hr₁
        cases hr₁
      · exact ht.unreplaced j r₁ existing (by rwa [Function.update_of_ne hji]) hr₁
    have hsameRow : t = known := by
      apply h.leaf t known hold hrow
      rw [hsame, hfamily, hknownFamily]
    refine ht.unreplaced i _ token (Function.update_self ..) rfl ?_
    rw [hsameRow, hid]
  | @mark token g hstage hg hmarked =>
    have hspent : Spent ⟨s.rows.map g⟩ token := by
      simp only [Spent, List.forall_mem_map, hg.id]
      intro row _ hid
      exact hmarked row hid
    apply (h.revoke hg).update
    · rintro r' existing ⟨rfl⟩ hholds
      obtain rfl : token = existing := by simpa [Rotation.Holds, Rotation.Replaces] using hholds
      exact (h.revoke hg).known i r token hi (.inr (.inl hstage))
    · rintro r' existing ⟨rfl⟩ hrotated
      obtain rfl : token = existing := by simpa using hrotated
      exact hspent
    · rintro r' existing ⟨rfl⟩ hreplaces j r₁ token' hji hj hr₁ hsame
      obtain rfl : token = existing := by simpa [Rotation.Replaces] using hreplaces
      exact hji (h.once j i r₁ r token' token hj hi hr₁ (.inl hstage) hsame)
    · intro r₀ existing hr₀ hsaved
      obtain rfl : r = r₀ := Option.some.inj (hi.symm.trans hr₀)
      obtain rfl : token = existing := by simpa [hstage] using hsaved
      exact .inr hspent

theorem start (h : Chain s f) (tokenHash : String) (hi : f i = none) :
    Chain s (Function.update f i (some ⟨tokenHash, .start⟩)) := by
  apply h.update
  · rintro r' existing ⟨rfl⟩ hholds
    simp [Rotation.Holds, Rotation.Replaces] at hholds
  · rintro r' existing ⟨rfl⟩ hstage
    cases hstage
  · rintro r' existing ⟨rfl⟩ hreplaces
    simp [Rotation.Replaces] at hreplaces
  · intro r₀ existing hr₀
    simp [hi] at hr₀

theorem crash (h : Chain s f) (hi : ∀ r token, f i = some r → r.stage ≠ .saved token) :
    Chain s (Function.update f i none) := by
  apply h.update
  · intro r token hr
    cases hr
  · intro r token hr
    cases hr
  · intro r token hr
    cases hr
  · intro r token hr hstage
    exact absurd hstage (hi r token hr)

end Chain

/-- The conditions of the result. A successor is saved only while the token it replaces is
live, and then neither its row nor the mark of that token is lost. -/
def Orderly {κ : Type} (s : RefreshTokens) (f : ι → Option Rotation) :
    Label ι AuthOp AuthAnswer κ → Prop
  | .call i e => Tracked e ∧ ∀ r token, f i = some r → r.stage = .read token →
    (r.next e.op e.answer).stage = .saved token → ∃ row, Live s f row ∧ row.id = token.id
  | .crash i => ∀ r token, f i = some r → r.stage ≠ .saved token
  | _ => True

variable [DecidableEq ι] (settings : AuthSettings)

/-- The record of an execution that has not yet made a call. -/
def Rotation.initial (input : RefreshTokensCommand.Input) : Rotation :=
  ⟨TokenService.hashRefreshToken settings input.refreshToken, .start⟩

theorem Chain.move {s s' : RefreshTokens} {f f' : ι → Option Rotation}
    {l : Label ι AuthOp AuthAnswer RefreshTokensCommand.Input} (h : Chain s f)
    (hl : Orderly s f l)
    (hm : (refreshing settings).Move rotation (Rotation.initial settings) s f l s' f') :
    Chain s' f' := by
  cases hm with
  | start job hi => exact h.start _ hi
  | @call _ _ i r op a hi hr hp =>
    apply h.rotates hi (rotates_of_performs hr hp hl.1)
    intro token hread hsaved
    exact hl.2 r token hi hread hsaved
  | crash hi hr => exact h.crash hl
  | background hb =>
    rcases hb with ⟨token, hadmits, hnew, rfl⟩ | ⟨p, revokedAt, rfl⟩ | ⟨id, revokedAt, rfl⟩
    · exact h.insert hadmits fun t ht => hnew t ht.mem
    · exact h.revoke (revokes_where p revokedAt)
    · exact h.revoke (revokes_mark id none revokedAt)

/-- New tokens were returned for the one that was presented. -/
def Exchanged (p : AuthProgram RefreshTokensCommand.Output) : Bool := p matches .done (.ok _)

/-- The executions of a pool, as they stand in `c`, use each refresh token once. -/
structure SingleUse (c : Config ι AuthOp AuthAnswer AuthError RefreshTokensCommand.Output
    RefreshTokensCommand.Input RefreshTokens) : Prop where
  exchangedOnce : ∀ i j p q, c.process i = some p → c.process j = some q →
    Exchanged p.program → Exchanged q.program → p.job.refreshToken = q.job.refreshToken → i = j
  oneUnrevoked : (∀ i p, c.process i = some p → p.program.result.isSome) →
    ∀ t ∈ c.shared.rows, ∀ t' ∈ c.shared.rows, t.familyId = t'.familyId →
      t.revokedAt = none → t'.revokedAt = none → t = t'

variable {settings} {c : Config ι AuthOp AuthAnswer AuthError RefreshTokensCommand.Output
    RefreshTokensCommand.Input RefreshTokens}

theorem rotated_of_exchanged
    {ok : Config ι AuthOp AuthAnswer AuthError RefreshTokensCommand.Output
      RefreshTokensCommand.Input RefreshTokens → Label ι AuthOp AuthAnswer _ → Prop}
    (h : (refreshing settings).Reaches ok (.initial .empty) c) {i : ι}
    {p : Process AuthOp AuthAnswer AuthError RefreshTokensCommand.Output
      RefreshTokensCommand.Input} (hp : c.process i = some p) (hx : Exchanged p.program) :
    ∃ r token, c.records rotation (Rotation.initial settings) i = some r ∧
      r.tokenHash = TokenService.hashRefreshToken settings p.job.refreshToken ∧
      r.stage = .rotated token := by
  have hq := h.obeys (fun job => obeys_execute settings job) hp
  obtain ⟨job, trace, program⟩ := p
  rcases program with (e | output) | ⟨op, resume⟩
  · cases hx
  · obtain ⟨hhash, -, hrotated⟩ := hq
    obtain ⟨token, htoken⟩ := hrotated output rfl
    exact ⟨_, token, Config.records_eq hp, hhash, htoken⟩
  · cases hx

/-- Each refresh token is exchanged at most once, and a family at rest has at most one token
that is not revoked. -/
theorem single_use (h : (refreshing settings).Reaches (fun c l => Orderly c.shared
    (c.records rotation (Rotation.initial settings)) l) (.initial .empty) c) : SingleUse c := by
  have hchain : Chain c.shared (c.records rotation (Rotation.initial settings)) :=
    h.records_invariant (fun s f l => Orderly s f l) Chain (fun job => obeys_execute settings job)
      Chain.initial fun s f l s' f' hP hl hm => hP.move settings hl hm
  constructor
  · intro i j p q hp hq hpx hqx hsame
    obtain ⟨r, token, hr, hhash, hrotated⟩ := rotated_of_exchanged h hp hpx
    obtain ⟨r', token', hr', hhash', hrotated'⟩ := rotated_of_exchanged h hq hqx
    obtain ⟨-, row, hrow, hid, hrowHash, -⟩ := hchain.known i r token hr (.inr (.inr hrotated))
    obtain ⟨-, row', hrow', hid', hrowHash', -⟩ :=
      hchain.known j r' token' hr' (.inr (.inr hrotated'))
    have hrows : row = row' := by
      apply hchain.uniqueHash row hrow row' hrow'
      rw [hrowHash, hrowHash', hhash, hhash', hsame]
    apply hchain.once i j r r' token token' hr hr' (.inr hrotated) (.inr hrotated')
    rw [← hid, ← hid', hrows]
  · intro hidle t ht t' ht' hfamily hnone hnone'
    have hlive : ∀ t ∈ c.shared.rows, t.revokedAt = none →
        Live c.shared (c.records rotation (Rotation.initial settings)) t := by
      intro t ht hnone
      refine ⟨ht, hnone, ?_⟩
      intro i r existing hi hr
      simp only [Config.records, Option.map_eq_some_iff] at hi
      obtain ⟨⟨job, trace, program⟩, hp, rfl⟩ := hi
      have hsettled := hidle i _ hp
      rcases program with result | ⟨op, resume⟩
      · have hq := h.settled (fun job => obeys_execute settings job) hp
        exact absurd hr (hq.2.1 existing)
      · cases hsettled
    exact hchain.leaf t t' (hlive t ht hnone) (hlive t' ht' hnone') hfamily

end Chain

/-! A world in which no call fails. -/

def sampleAuthSettings : AuthSettings where
  sha256Hex plaintext := plaintext
  accessTokenTtlSeconds := 1
  sessionAbsoluteTimeoutHours := 1
  sessionIdleTimeoutMinutes := 1

def sampleRefreshToken : RefreshToken := ⟨"a", "u", "f", "a", 1, some 1, none, none⟩

def RefreshTokens.sample : RefreshTokens := .insert .empty sampleRefreshToken

theorem RefreshTokens.login_sample : RefreshTokens.Login .empty .sample :=
  ⟨sampleRefreshToken, by simp [Admits, empty], by simp [empty], rfl⟩

/-- What `Orderly` asks of a call while no other execution is there. -/
def OrderlyAlone (s : RefreshTokens) (t : List (Event AuthOp AuthAnswer))
    (e : Event AuthOp AuthAnswer) : Prop :=
  Tracked e ∧ match (rotation.after (.initial sampleAuthSettings ⟨"a"⟩) t).stage with
    | .read token => ∃ row ∈ s.rows, row.revokedAt = none ∧ row.id = token.id
    | _ => True

instance (s : RefreshTokens) (t : List (Event AuthOp AuthAnswer)) (e : Event AuthOp AuthAnswer) :
    Decidable (OrderlyAlone s t e) := by
  unfold OrderlyAlone
  split <;> infer_instance

theorem OrderlyAlone.orderly {s : RefreshTokens} {t : List (Event AuthOp AuthAnswer)}
    {e : Event AuthOp AuthAnswer} {f : Bool → Option Rotation} (h : OrderlyAlone s t e)
    (hf : ∀ i r, f i = some r → r = rotation.after (.initial sampleAuthSettings ⟨"a"⟩) t) :
    Orderly (κ := RefreshTokensCommand.Input) s f (.call false e) := by
  refine ⟨h.1, ?_⟩
  intro r token hi hread _
  have hrow := h.2
  rw [← hf false r hi, hread] at hrow
  obtain ⟨row, hmem, hnone, hid⟩ := hrow
  refine ⟨row, ⟨hmem, hnone, ?_⟩, hid⟩
  intro j r' existing hj hsaved
  rw [hf j r' hj, ← hf false r hi, hread] at hsaved
  cases hsaved

/-- One exchange. -/
theorem single_use_sample : ∃ c : Config Bool AuthOp AuthAnswer AuthError
    RefreshTokensCommand.Output RefreshTokensCommand.Input RefreshTokens,
    c.shared.rows.length = 2 ∧ SingleUse c := by
  have hstart : (refreshing sampleAuthSettings).Reaches (ι := Bool) (fun c l => Orderly c.shared
      (c.records rotation (Rotation.initial sampleAuthSettings)) l) (.initial .empty) _ :=
    System.Reaches.refl.tail (l := .background) trivial
      (.background (.inl RefreshTokens.login_sample))
  have hrun := hstart.solo false ⟨"a"⟩ rfl RefreshTokens.performs_respond trivial ?_
  · refine ⟨_, ?_, single_use hrun⟩
    decide +kernel
  · refine Program.SoloAll.mono (P := OrderlyAlone) ?_ (by decide +kernel)
    intro s t e he p
    apply he.orderly
    intro i r hi
    cases i with
    | false => simpa [Process.record] using hi.symm
    | true => simp [Config.initial, Config.records, Config.put_ne] at hi

/-- Two executions that read the token before either of them saves a successor both return
new tokens. -/
theorem not_single_use : ¬ ∀ c : Config Bool AuthOp AuthAnswer AuthError
    RefreshTokensCommand.Output RefreshTokensCommand.Input RefreshTokens,
    (refreshing sampleAuthSettings).Reaches System.Any (.initial .empty) c → SingleUse c := by
  intro h
  have hlogin : (refreshing sampleAuthSettings).Reaches (ι := Bool) System.Any (.initial .empty) _ :=
    System.Reaches.refl.tail trivial (.background (.inl RefreshTokens.login_sample))
  have hboth := (hlogin.tail trivial (.start (i := false) ⟨"a"⟩ rfl)).tail trivial
    (.start (i := true) ⟨"a"⟩ rfl)
  have hread := hboth.advance RefreshTokens.performs_respond false 1
  have hfirst := hread.advance RefreshTokens.performs_respond true 20
  have hsecond := hfirst.advance RefreshTokens.performs_respond false 20
  have honce := (h _ hsecond).exchangedOnce false true _ _ rfl rfl ?_ ?_ rfl
  · cases honce
  · decide +kernel
  · decide +kernel

end Auth
