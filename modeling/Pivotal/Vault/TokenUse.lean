import Pivotal.Vault.Tokens

/-! Which tokens the requests of a client carry, and what a refusal says of them. -/
namespace Vault.Tokens
open Async (Config Event Label Monitor Process Program System of_update_none update_eq_some)
open VaultClient (isTokenRejection)

/-- The mount table is read once, whatever Vault answers. -/
def Request.retried : Request → Bool
  | .mounts => false
  | _ => true

def rejected (request : Request) (reply : Reply request) : Bool :=
  request.retried && isTokenRejection (status reply)

/-- A request that Vault rejected: its token and its place in the audit log. -/
def rejection : Event Op Answer → Option (Option String × ℕ)
  | ⟨.send request token, .ok audited⟩ =>
    if rejected request audited.reply then some (token, audited.entry) else none
  | _ => none

def rejections (t : List (Event Op Answer)) : List (Option String × ℕ) := t.filterMap rejection

/-- Where a call stands with its token. With `returned` its login is over and it has not yet read
the token; a login that is not its own goal does not read it at all. -/
inductive Stage where
  | idle
  | loggingIn (resumes : Bool)
  | issued (resumes : Bool) (token : String)
  | returned
  | has (token : Option String)
  | refused (first : ℕ) (token : Option String) (second : ℕ)
  deriving DecidableEq

/-- Where a login leads. -/
def Stage.afterLogin : Bool → Stage
  | true => .returned
  | false => .idle

/-- The rejections of a call, the one of the request it is at, and where it stands. -/
structure Use where
  rejections : List (Option String × ℕ)
  pending : Option ℕ
  stage : Stage
  deriving DecidableEq

namespace Use

def initial : Use := ⟨[], none, .idle⟩

def reject (r : Use) (token : Option String) (entry : ℕ) : Use where
  rejections := r.rejections ++ [(token, entry)]
  pending := some (r.pending.getD entry)
  stage := match r.pending with
    | none => .idle
    | some first => .refused first token entry

def next (r : Use) : (op : Op) → Answer op → Use
  | .check _, .usable token => { r with stage := .has (some token) }
  | .check _, .supplied => { r with stage := .returned }
  | .check _, .login => { r with stage := .loggingIn true }
  | .beginLogin, some _ => { r with stage := .idle }
  | .beginLogin, none => { r with stage := .loggingIn false }
  | .postLogin _, .ok reply => { r with stage := match r.stage, reply.clientToken with
      | .loggingIn resumes, some token => .issued resumes token
      | _, _ => .idle }
  | .postLogin _, .error _ => { r with stage := .idle }
  | .store _ _, _ => { r with stage := match r.stage with
      | .issued resumes _ => Stage.afterLogin resumes
      | _ => .idle }
  | .resume, token => { r with stage := .has token }
  | .send request token, .ok audited =>
    if rejected request audited.reply then r.reject token audited.entry
    else { r with pending := none, stage := .idle }
  | .send _ _, .error _ => { r with stage := .idle }
  | _, _ => r

def allows (r : Use) : Op → Prop
  | .check rejected => rejected = r.pending.isSome
  | .store token _ => ∃ resumes, r.stage = .issued resumes token
  | .resume => r.stage = .returned
  | .send _ token => r.stage = .has token
  | _ => True

end Use

def uses : Monitor Op Answer Use where
  next := Use.next
  allows := Use.allows

def VaultCall.use (_ : VaultCall) : Use := .initial

theorem next_rejections (r : Use) (op : Op) (a : Answer op) :
    (r.next op a).rejections = r.rejections ++ rejections [⟨op, a⟩] := by
  cases op with
  | check rejected => cases a <;> simp [Use.next, rejections, rejection]
  | beginLogin => cases a <;> simp [Use.next, rejections, rejection]
  | postLogin jwt => cases a <;> simp [Use.next, rejections, rejection]
  | send request token =>
    rcases a with e | audited
    · simp [Use.next, rejections, rejection]
    · cases hrejected : rejected request audited.reply <;>
        simp [Use.next, Use.reject, rejections, rejection, hrejected]
  | _ => simp [Use.next, rejections, rejection]

theorem after_rejections (r : Use) (t : List (Event Op Answer)) :
    (uses.after r t).rejections = r.rejections ++ rejections t := by
  induction t generalizing r with
  | nil => simp [rejections]
  | cons e t ih =>
    rw [Monitor.after_cons, ih]
    change (r.next e.op e.answer).rejections ++ _ = _
    rw [next_rejections, List.append_assoc]
    exact congrArg (r.rejections ++ ·) (List.filterMap_append (l := [e])).symm

/-- Refused after two rejections of one request. -/
def Use.Refused (r : Use) : Prop := ∃ earlier first token second,
  r.stage = .refused first.2 token second ∧ r.rejections = earlier ++ [first, (token, second)]

/-- How a call ends, or a part of it. -/
def Ends {α : Type} (r : Use) : Except Thrown α → Prop
  | .ok _ => r.pending = none
  | .error (.refused _) => r.Refused
  | .error (.other _) => True

def Same (r r' : Use) : Prop := r'.pending = r.pending ∧ r'.rejections = r.rejections

section Obeys

variable {α β : Type} {r : Use}

theorem ends_bind {p : Calls β} {f : β → Calls α} (hp : p.Obeys uses r Ends)
    (hf : ∀ b r', r'.pending = none → (f b).Obeys uses r' Ends) : (p >>= f).Obeys uses r Ends := by
  refine Program.obeys_bind.mpr (hp.mono ?_)
  rintro r' ((m | e) | b) h
  · exact h
  · exact h
  · exact hf b r' h

/-- A login leaves the rejections as they are, and is never refused itself. -/
theorem finishLogin_obeys {resumes : Bool} (hr : r.stage = .loggingIn resumes) :
    finishLogin.Obeys uses r fun r' res => Same r r' ∧
      ((∃ token, res = .ok token ∧ r'.stage = Stage.afterLogin resumes) ∨
        ∃ e, res = .error (.other e)) := by
  apply Program.Obeys.afterPerform trivial
  rintro (e | jwt)
  · exact ⟨⟨rfl, rfl⟩, .inr ⟨e, rfl⟩⟩
  apply Program.Obeys.afterPerform trivial
  rintro (e | ⟨clientToken, lease⟩)
  · exact ⟨⟨rfl, rfl⟩, .inr ⟨e, rfl⟩⟩
  cases clientToken with
  | none => exact ⟨⟨rfl, rfl⟩, .inr ⟨_, rfl⟩⟩
  | some token =>
    apply Program.Obeys.unless
    · intro _
      exact ⟨⟨rfl, rfl⟩, .inr ⟨_, rfl⟩⟩
    · intro _
      apply Program.Obeys.afterPerform
      · exact ⟨resumes, by simp [uses, Use.next, hr]⟩
      · intro _
        exact ⟨⟨rfl, rfl⟩, .inl ⟨token, rfl, by simp [uses, Use.next, hr]⟩⟩

theorem currentToken_obeys {rejected : Bool} (hr : rejected = r.pending.isSome) :
    (currentToken rejected).Obeys uses r fun r' res => Same r r' ∧
      ((∃ token, res = .ok token ∧ r'.stage = .has token) ∨ ∃ e, res = .error (.other e)) := by
  apply Program.Obeys.afterPerform hr
  rintro (token | _ | _)
  · exact ⟨⟨rfl, rfl⟩, .inl ⟨_, rfl, rfl⟩⟩
  · refine ⟨rfl, fun token => ⟨⟨rfl, rfl⟩, .inl ⟨_, rfl, rfl⟩⟩⟩
  · refine Program.obeys_bind.mpr ((finishLogin_obeys rfl).mono ?_)
    rintro r' res ⟨hsame, ⟨token, rfl, hstage⟩ | ⟨e, rfl⟩⟩
    · exact ⟨hstage, fun token => ⟨hsame, .inl ⟨_, rfl, rfl⟩⟩⟩
    · exact ⟨hsame, .inr ⟨e, rfl⟩⟩

theorem send_obeys {request : Request} {token : Option String} (hr : r.stage = .has token) :
    (send request token).Obeys uses r fun r' res =>
      (∃ reply entry, res = .ok reply ∧ r' = if rejected request reply then r.reject token entry
        else { r with pending := none, stage := .idle }) ∨
      (∃ e, res = .error (.other e)) ∧ Same r r' := by
  apply Program.Obeys.afterPerform hr
  rintro (e | audited)
  · exact .inr ⟨⟨e, rfl⟩, rfl, rfl⟩
  · exact .inl ⟨audited.reply, audited.entry, rfl, rfl⟩

variable (settings : Settings)

/-- A request is refused after its second rejection. -/
theorem authenticated_obeys (describe : String) (request : Request) (hr : r.pending = none)
    (hrequest : request.retried = true) :
    (authenticated settings describe request).Obeys uses r Ends := by
  refine Program.obeys_bind.mpr ((currentToken_obeys (by simp [hr])).mono ?_)
  rintro r₁ res ⟨⟨hpending₁, -⟩, ⟨token, rfl, hstage⟩ | ⟨e, rfl⟩⟩
  swap
  · trivial
  refine Program.obeys_bind.mpr ((send_obeys hstage).mono ?_)
  rintro r₂ res (⟨first, entry, rfl, rfl⟩ | ⟨⟨e, rfl⟩, -⟩)
  swap
  · trivial
  simp only [Program.onOk_ok, rejected, hrequest, Bool.true_and]
  cases hfirst : isTokenRejection (status first) with
  | false => exact rfl
  | true =>
    refine Program.obeys_bind.mpr ((currentToken_obeys rfl).mono ?_)
    rintro r₃ res ⟨⟨hpending₃, hrejections₃⟩, ⟨token', rfl, hstage'⟩ | ⟨e, rfl⟩⟩
    swap
    · trivial
    refine Program.obeys_bind.mpr ((send_obeys hstage').mono ?_)
    rintro r₄ res (⟨second, entry', rfl, rfl⟩ | ⟨⟨e, rfl⟩, -⟩)
    swap
    · trivial
    have hpending : r₃.pending = some entry := by
      rw [hpending₃]
      simp [Use.reject, hpending₁, hr]
    simp only [Program.onOk_ok, rejected, hrequest, Bool.true_and]
    cases hsecond : isTokenRejection (status second) with
    | false => exact rfl
    | true =>
      refine ⟨r₁.rejections, (token, entry), token', entry', ?_, ?_⟩
      · simp [Use.reject, hpending]
      · simp [Use.reject, hrejections₃]

/-- Whatever the mount table answers, no rejection is left to be retried. -/
theorem mountVersion_obeys (hr : r.pending = none) :
    mountVersion.Obeys uses r Ends := by
  refine Program.obeys_tryCatch.mpr (Program.Obeys.mono (Q := fun r' _ => r'.pending = none) ?_ ?_)
  · refine Program.obeys_bind.mpr ((currentToken_obeys (by simp [hr])).mono ?_)
    rintro r₁ res ⟨⟨hpending₁, -⟩, ⟨token, rfl, hstage⟩ | ⟨e, rfl⟩⟩
    · refine Program.obeys_bind.mpr ((send_obeys hstage).mono ?_)
      rintro r₂ res (⟨reply, entry, rfl, rfl⟩ | ⟨⟨e, rfl⟩, hpending₂, -⟩)
      · rfl
      · exact hpending₂.trans (hpending₁.trans hr)
    · exact hpending₁.trans hr
  · rintro r' (e | version) h
    · exact h
    · exact h

theorem assertKvVersionTwo_obeys (hr : r.pending = none) :
    (assertKvVersionTwo settings).Obeys uses r Ends := by
  apply Program.Obeys.afterPerform trivial
  rintro (_ | _)
  · apply ends_bind (mountVersion_obeys hr)
    intro version r' hr'
    cases hversion : Option.any (· ≠ "2") (version : Option String) with
    | true =>
      simp only [if_true]
      trivial
    | false => exact ⟨trivial, fun _ => hr'⟩
  · exact hr

theorem readKv_obeys (path : String) (hr : r.pending = none) :
    (readKv settings path).Obeys uses r Ends := by
  apply ends_bind (authenticated_obeys settings _ _ hr rfl)
  intro response r' hr'
  by_cases hmissing : response.status = 404 <;> simpa [hmissing, Ends] using hr'

theorem entry_obeys (call : VaultCall) :
    (call.entry settings).Obeys uses call.use Ends := by
  have hstart : call.use.pending = none := rfl
  cases call with
  | readKvField path field =>
    refine ends_bind (ends_bind (assertKvVersionTwo_obeys settings hstart) fun _ r' hr' =>
      ends_bind (authenticated_obeys settings _ _ hr' rfl) fun response r'' hr'' => ?_) fun _ _ h => h
    by_cases hmissing : response.status = 404 <;> simpa [hmissing, Ends] using hr''
  | writeKvField command =>
    refine ends_bind (assertKvVersionTwo_obeys settings hstart) fun _ r' hr' =>
      ends_bind (readKv_obeys settings _ hr') fun existing r'' hr'' =>
      ends_bind (authenticated_obeys settings _ _ hr'' rfl) fun response r₃ hr₃ => ?_
    by_cases hfailed : response.status ≥ 400
    · simp only [hfailed, if_true]
      trivial
    · simpa [hfailed, Ends] using hr₃
  | signCertificate request =>
    refine ends_bind (ends_bind (authenticated_obeys settings _ _ hstart rfl)
      fun response r' hr' => ?_) fun _ _ h => h
    by_cases hmissing : response.status = 404
    · simp only [hmissing, if_true]
      trivial
    · simp only [hmissing, if_false]
      cases response.certificate.filter (· ≠ "") with
      | none => trivial
      | some certificate => exact hr'
  | login =>
    refine Program.obeys_bind.mpr (Program.Obeys.afterPerform trivial ?_)
    rintro (_ | token)
    · refine (finishLogin_obeys rfl).mono ?_
      rintro r' res ⟨⟨hpending, -⟩, ⟨token, rfl, -⟩ | ⟨e, rfl⟩⟩
      · exact hpending
      · trivial
    · exact rfl
  | invalidateToken => exact ⟨trivial, fun _ => rfl⟩

end Obeys

/-- Vault issued the token after that place of its audit log. -/
def World.IssuedAfter (w : World) (first : ℕ) (token : String) : Prop :=
  ∃ k, first < k ∧ w.audit[k]? = some (.issued token)

/-- Everything that was ever in the log, and every token that was ever returned, still is. -/
def World.Extends (w w' : World) : Prop :=
  (∃ rest, w'.audit = w.audit ++ rest) ∧ ∀ token ∈ w.returned, token ∈ w'.returned

section World

variable {w w' : World} {settings : Settings}

theorem World.Extends.getElem? (h : w.Extends w') {k : ℕ} {entry : AuditEntry}
    (hk : w.audit[k]? = some entry) : w'.audit[k]? = some entry := by
  obtain ⟨⟨rest, hrest⟩, -⟩ := h
  have hlt : k < w.audit.length := (List.getElem?_eq_some_iff.mp hk).1
  rw [hrest, List.getElem?_append_left hlt, hk]

theorem World.Extends.issuedAfter (h : w.Extends w') {first : ℕ} {token : String}
    (hw : w.IssuedAfter first token) : w'.IssuedAfter first token := by
  obtain ⟨k, hlt, hk⟩ := hw
  exact ⟨k, hlt, h.getElem? hk⟩

theorem World.extends_complete (w : World) (token : String) (expiry : Option ℤ) :
    w.Extends (w.complete token expiry) :=
  ⟨⟨[], by simp [complete]⟩, fun _ h => List.mem_cons_of_mem _ h⟩

theorem World.extends_log (w : World) (entry : AuditEntry) : w.Extends (w.log entry) :=
  ⟨⟨[entry], rfl⟩, fun _ h => h⟩

theorem World.extends_logLogin (w : World) (token : Option String) : w.Extends (w.logLogin token) := by
  cases token with
  | none => exact ⟨⟨[], by simp [logLogin]⟩, fun _ h => h⟩
  | some token => exact w.extends_log _

theorem World.extends_of_audit (haudit : w'.audit = w.audit) (hreturned : w'.returned = w.returned) :
    w.Extends w' := ⟨⟨[], by simp [haudit]⟩, fun _ h => hreturned ▸ h⟩

/-- The token was issued after the rejection of the request, where Vault issues tokens. -/
def Fresh (settings : Settings) (w : World) (pending : Option ℕ) (token : String) : Prop :=
  settings.authMethod = .kubernetes → ∀ first, pending = some first → w.IssuedAfter first token

theorem Fresh.extends {pending : Option ℕ} {token : String} (h : Fresh settings w pending token)
    (hw : w.Extends w') : Fresh settings w' pending token :=
  fun hmethod first hfirst => hw.issuedAfter (h hmethod first hfirst)

/-- What holds of a call where it stands. -/
def Stage.Sound (settings : Settings) (w : World) (pending : Option ℕ) : Stage → Prop
  | .issued _ token => Fresh settings w pending token
  | .returned => ∃ token, w.client.token = some token ∧ Fresh settings w pending token
  | .has token => ∃ t, token = some t ∧ t ∈ w.returned ∧ Fresh settings w pending t
  | .refused first token second => ∃ t k, token = some t ∧ first < k ∧ k < second ∧
      w.audit[k]? = some (.issued t)
  | _ => True

/-- Where the log grows, and the client keeps its token while a call is about to read it. -/
theorem Stage.Sound.extends {pending : Option ℕ} {stage : Stage}
    (h : stage.Sound settings w pending) (hw : w.Extends w')
    (htoken : stage = .returned → ∃ token, w'.client.token = some token ∧
      Fresh settings w' pending token) : stage.Sound settings w' pending := by
  cases stage with
  | idle => trivial
  | loggingIn resumes => trivial
  | issued resumes token => exact Fresh.extends h hw
  | returned => exact htoken rfl
  | has token =>
    obtain ⟨t, rfl, hmem, hfresh⟩ := h
    exact ⟨t, rfl, hw.2 t hmem, hfresh.extends hw⟩
  | refused first token second =>
    obtain ⟨t, k, rfl, hfirst, hsecond, hk⟩ := h
    exact ⟨t, k, rfl, hfirst, hsecond, hw.getElem? hk⟩

structure Use.Sound (settings : Settings) (w : World) (r : Use) : Prop where
  pending : ∀ first, r.pending = some first → first < w.audit.length
  stage : r.stage.Sound settings w r.pending

theorem Use.Sound.extends {r : Use} (h : r.Sound settings w) (hw : w.Extends w')
    (htoken : r.stage = .returned → ∃ token, w'.client.token = some token ∧
      Fresh settings w' r.pending token) : r.Sound settings w' := by
  refine ⟨fun first hfirst => ?_, h.stage.extends hw htoken⟩
  obtain ⟨rest, hrest⟩ := hw.1
  rw [hrest, List.length_append]
  exact Nat.lt_add_right _ (h.pending first hfirst)

theorem Use.Sound.keeps {r : Use} (h : r.Sound settings w) (hw : w.Extends w')
    (htoken : w'.client.token = w.client.token) : r.Sound settings w' := by
  refine h.extends hw fun hstage => ?_
  obtain ⟨token, ht, hfresh⟩ := (hstage ▸ h.stage : Stage.Sound settings w r.pending .returned)
  exact ⟨token, htoken.trans ht, hfresh.extends hw⟩

end World

variable {ι : Type} [DecidableEq ι]

/-- Every request that was sent carried a token that a login had returned, the client keeps no other,
and every call stands as it should. -/
structure Honest (settings : Settings) (w : World) (f : ι → Option Use) : Prop where
  sent : ∀ token ∈ w.sent, ∃ t, token = some t ∧ t ∈ w.returned
  current : ∀ token, w.client.token = some token → token ∈ w.returned
  sound : ∀ i r, f i = some r → r.Sound settings w

/-- While a call stands between the end of its login and its reading of the token, no other call
drops the token, and none logs in with a token that Vault issued before the first rejection of that
call. With a supplied token, no request is rejected twice. -/
def InOrder (settings : Settings) (w : World) (f : ι → Option Use) :
    Label ι Op Answer VaultCall → Prop
  | .call _ ⟨.check true, .login⟩ => ∀ j r, f j = some r → r.stage ≠ .returned
  | .call _ ⟨.invalidateToken, _⟩ => ∀ j r, f j = some r → r.stage ≠ .returned
  | .call _ ⟨.store token _, _⟩ => ∀ j r, f j = some r → r.stage = .returned →
      ∀ first, r.pending = some first → w.IssuedAfter first token
  | .call i ⟨.send request _, .ok audited⟩ => settings.authMethod = .token →
      rejected request audited.reply = true → ∀ r, f i = some r → r.pending = none
  | _ => True

namespace Honest

variable {settings : Settings} {w w' : World} {f : ι → Option Use} {i : ι} {r' : Use}

/-- A step that may send, but leaves the client's token alone. -/
theorem step (h : Honest settings w f) (hw : w.Extends w') (htoken : w'.client.token = w.client.token)
    (hsent : ∀ token ∈ w'.sent, token ∈ w.sent ∨ ∃ t, token = some t ∧ t ∈ w.returned)
    (hr' : r'.Sound settings w') : Honest settings w' (Function.update f i (some r')) := by
  refine ⟨fun token hmem => ?_, fun token ht => ?_, fun j r hj => ?_⟩
  · rcases hsent token hmem with hmem | ⟨t, rfl, ht⟩
    · obtain ⟨t, rfl, ht⟩ := h.sent token hmem
      exact ⟨t, rfl, hw.2 t ht⟩
    · exact ⟨t, rfl, hw.2 t ht⟩
  · exact hw.2 token (h.current token (htoken ▸ ht))
  · rcases update_eq_some.mp hj with ⟨-, hr⟩ | ⟨-, hj⟩
    · rwa [← Option.some.inj hr]
    · exact (h.sound j r hj).keeps hw htoken

theorem stay (h : Honest settings w f) (hr' : r'.Sound settings w) :
    Honest settings w (Function.update f i (some r')) :=
  h.step (World.extends_of_audit rfl rfl) rfl (fun _ hmem => .inl hmem) hr'

/-- A step that drops the token, while no call is about to read it. -/
theorem drop (h : Honest settings w f) (hidle : ∀ j r, f j = some r → r.stage ≠ .returned)
    (hr' : r'.Sound settings w.invalidateToken) :
    Honest settings w.invalidateToken (Function.update f i (some r')) := by
  refine ⟨h.sent, nofun, fun j r hj => ?_⟩
  rcases update_eq_some.mp hj with ⟨-, hr⟩ | ⟨-, hj⟩
  · rwa [← Option.some.inj hr]
  · exact (h.sound j r hj).extends (World.extends_of_audit rfl rfl)
      fun hstage => absurd hstage (hidle j r hj)

theorem complete (h : Honest settings w f) {token : String} {expiry : Option ℤ}
    (hfresh : ∀ j r, f j = some r → r.stage = .returned → Fresh settings w r.pending token)
    (hr' : r'.Sound settings (w.complete token expiry)) :
    Honest settings (w.complete token expiry) (Function.update f i (some r')) := by
  have hw := w.extends_complete token expiry
  refine ⟨fun token hmem => ?_, fun t ht => ?_, fun j r hj => ?_⟩
  · obtain ⟨t, rfl, ht⟩ := h.sent token hmem
    exact ⟨t, rfl, hw.2 t ht⟩
  · obtain rfl : token = t := Option.some.inj ht
    exact List.mem_cons_self
  · rcases update_eq_some.mp hj with ⟨-, hr⟩ | ⟨-, hj⟩
    · rwa [← Option.some.inj hr]
    · exact (h.sound j r hj).extends hw
        fun hstage => ⟨token, rfl, (hfresh j r hj hstage).extends hw⟩

end Honest

section Moves

variable {settings : Settings} {w w' : World} {f f' : ι → Option Use}

/-- How a renewal goes: over at once with a supplied token, else with a login. -/
theorem renew_cases {checked : Checked} (h : (checked, w') = w.renew settings) :
    (checked = .supplied ∧ settings.authMethod = .token ∧ w' = w.complete settings.token none) ∨
      (checked = .login ∧ w' = w) := by
  unfold World.renew World.beginLogin at h
  cases hmethod : settings.authMethod with
  | token =>
    rw [hmethod] at h
    exact .inl ⟨congrArg Prod.fst h, rfl, congrArg Prod.snd h⟩
  | kubernetes =>
    rw [hmethod] at h
    exact .inr ⟨congrArg Prod.fst h, congrArg Prod.snd h⟩

/-- The check of a token finds a usable one only where none has been rejected. -/
theorem check_cases {rejected : Bool} {checked : Checked}
    (h : (checked, w') = w.check settings rejected) :
    (∃ token, checked = .usable token ∧ rejected = false ∧ w.client.token = some token ∧ w' = w) ∨
      (checked = .supplied ∧ settings.authMethod = .token ∧
        w' = w.complete settings.token none) ∨
      (checked = .login ∧ w' = if rejected then w.invalidateToken else w) := by
  cases rejected with
  | true =>
    rcases renew_cases (w := w.invalidateToken) h with ⟨rfl, hmethod, rfl⟩ | ⟨rfl, rfl⟩
    · exact .inr (.inl ⟨rfl, hmethod, rfl⟩)
    · exact .inr (.inr ⟨rfl, rfl⟩)
  | false =>
    simp only [World.check, Bool.false_eq_true, if_false] at h
    have hrenew : (checked, w') = w.renew settings → (checked = .supplied ∧
        settings.authMethod = .token ∧ w' = w.complete settings.token none) ∨
        (checked = .login ∧ w' = if false then w.invalidateToken else w) := renew_cases
    cases htoken : w.client.token with
    | none =>
      rw [htoken] at h
      exact .inr (hrenew h)
    | some token =>
      simp only [htoken] at h
      split at h
      · exact .inr (hrenew h)
      · exact .inl ⟨token, congrArg Prod.fst h, rfl, rfl, congrArg Prod.snd h⟩

/-- Where the world extends, a call may go on to another stage that is sound there. -/
theorem Use.Sound.with_stage {r : Use} {stage : Stage} (h : r.Sound settings w)
    (hstage : stage.Sound settings w r.pending) : ({ r with stage := stage } : Use).Sound settings w :=
  ⟨h.pending, hstage⟩

/-- A token that Vault has just issued is issued after every rejection. -/
theorem fresh_logLogin {pending : Option ℕ} (h : ∀ first, pending = some first → first < w.audit.length)
    (token : String) : Fresh settings (w.logLogin (some token)) pending token := by
  intro _ first hfirst
  exact ⟨w.audit.length, h first hfirst, by simp [World.logLogin, World.log]⟩

theorem World.extends_send (w : World) (token : Option String) (status : ℕ) :
    w.Extends ((w.logSend token).log (.answered token status)) :=
  ⟨⟨[.answered token status], rfl⟩, fun _ h => h⟩

/-- A request is rejected, for the first time, or with a token that was issued in between. -/
theorem Use.Sound.reject {r : Use} {token : String} {entry status : ℕ} (h : r.Sound settings w)
    (hentry : entry = w.audit.length) (hfresh : Fresh settings w r.pending token)
    (hsupplied : settings.authMethod = .token → r.pending = none) :
    (r.reject (some token) entry).Sound settings
      ((w.logSend (some token)).log (.answered (some token) status)) := by
  have hw := w.extends_send (some token) status
  cases hpending : r.pending with
  | none =>
    refine ⟨fun first hfirst => ?_, ?_⟩
    · obtain rfl : entry = first := by simpa [Use.reject, hpending] using hfirst
      simp [hentry, World.log, World.logSend]
    · simp [Use.reject, hpending, Stage.Sound]
  | some first =>
    refine ⟨fun first' hfirst => ?_, ?_⟩
    · obtain rfl : first = first' := by simpa [Use.reject, hpending] using hfirst
      have hlt := h.pending first hpending
      simp only [World.log, World.logSend, List.length_append]
      exact Nat.lt_add_right _ hlt
    · have hkubernetes : settings.authMethod = .kubernetes := by
        cases hmethod : settings.authMethod with
        | kubernetes => rfl
        | token => simp [hsupplied hmethod] at hpending
      obtain ⟨k, hlt, hk⟩ := hfresh hkubernetes first hpending
      have hbound : k < entry := hentry ▸ (List.getElem?_eq_some_iff.mp hk).1
      simp only [Use.reject, hpending, Stage.Sound]
      exact ⟨token, k, rfl, hlt, hbound, hw.getElem? hk⟩

theorem Honest.call (h : Honest settings w f) {i : ι} {r : Use} {op : Op} {a : Answer op}
    (hi : f i = some r) (hallows : r.allows op) (hperform : w.Performs settings op a w')
    (hok : InOrder settings w f (.call i ⟨op, a⟩)) :
    Honest settings w' (Function.update f i (some (r.next op a))) := by
  have hr := h.sound i r hi
  cases op with
  | check rejected =>
    rcases check_cases hperform with ⟨token, rfl, rfl, htoken, rfl⟩ | ⟨rfl, hmethod, rfl⟩ | ⟨rfl, rfl⟩
    · refine h.stay ⟨hr.pending, token, rfl, h.current token htoken, fun _ first hfirst => ?_⟩
      have hpending : false = r.pending.isSome := hallows
      simp [show r.pending = some first from hfirst] at hpending
    · have hkubernetes : settings.authMethod ≠ .kubernetes := by simp [hmethod]
      refine h.complete (fun j r _ _ hkube => absurd hkube hkubernetes) ⟨hr.pending, ?_⟩
      exact ⟨settings.token, rfl, fun hkube => absurd hkube hkubernetes⟩
    · cases rejected with
      | true => exact h.drop hok ⟨hr.pending, trivial⟩
      | false => exact h.stay ⟨hr.pending, trivial⟩
  | beginLogin =>
    unfold World.Performs World.beginLogin at hperform
    cases hmethod : settings.authMethod with
    | token =>
      rw [hmethod] at hperform
      obtain ⟨rfl, rfl⟩ := Prod.mk.inj hperform
      refine h.complete (fun j r _ _ hkube => ?_) ⟨hr.pending, trivial⟩
      rw [hmethod] at hkube
      cases hkube
    | kubernetes =>
      rw [hmethod] at hperform
      obtain ⟨rfl, rfl⟩ := Prod.mk.inj hperform
      exact h.stay ⟨hr.pending, trivial⟩
  | readServiceAccountToken =>
    obtain rfl : w' = w := hperform
    exact h.stay hr
  | postLogin jwt =>
    have hlogin : ∀ token, (w.logLogin token).sent = w.sent := by
      rintro (_ | token) <;> rfl
    have hclient : ∀ token, (w.logLogin token).client.token = w.client.token := by
      rintro (_ | token) <;> rfl
    rcases a with e | reply
    · obtain ⟨token, rfl⟩ := hperform
      refine h.step (w.extends_logLogin token) (hclient token) (fun t hmem => .inl ?_) ?_
      · rwa [hlogin] at hmem
      · exact ((hr.keeps (w.extends_logLogin token) (hclient token)).with_stage trivial)
    · obtain rfl : w' = w.logLogin reply.clientToken := hperform
      refine h.step (w.extends_logLogin _) (hclient _) (fun t hmem => .inl ?_) ?_
      · rwa [hlogin] at hmem
      · refine (hr.keeps (w.extends_logLogin _) (hclient _)).with_stage ?_
        cases r.stage <;> cases htoken : reply.clientToken <;> try trivial
        exact fresh_logLogin hr.pending _
  | store token lease =>
    obtain ⟨resumes, hstage⟩ := hallows
    obtain rfl : w' = w.complete token (w.expiry lease) := hperform
    have hfresh : Fresh settings w r.pending token := by
      have hsound := hr.stage
      rwa [hstage] at hsound
    refine h.complete (fun j r' hj hreturned _ => hok j r' hj hreturned) ⟨hr.pending, ?_⟩
    simp only [Use.next, hstage]
    cases resumes with
    | true => exact ⟨token, rfl, hfresh.extends (w.extends_complete token _)⟩
    | false => trivial
  | resume =>
    obtain ⟨rfl, rfl⟩ := hperform
    have hsound := hr.stage
    rw [show r.stage = .returned from hallows] at hsound
    obtain ⟨token, htoken, hfresh⟩ := hsound
    exact h.stay ⟨hr.pending, token, htoken, h.current token htoken, hfresh⟩
  | send request token =>
    have hsound := hr.stage
    rw [show r.stage = .has token from hallows] at hsound
    obtain ⟨t, rfl, hmem, hfresh⟩ := hsound
    have hsent : ∀ token ∈ (w.logSend (some t)).sent, token ∈ w.sent ∨
        ∃ t, token = some t ∧ t ∈ w.returned := by
      intro token htoken
      rcases List.mem_cons.mp htoken with rfl | htoken
      · exact .inr ⟨t, rfl, hmem⟩
      · exact .inl htoken
    rcases a with e | audited
    · rcases hperform with rfl | ⟨status, rfl⟩
      · have hsend : w.Extends (w.logSend (some t)) := World.extends_of_audit rfl rfl
        exact h.step hsend rfl hsent ((hr.keeps hsend rfl).with_stage trivial)
      · have hsend := w.extends_send (some t) status
        exact h.step hsend rfl hsent ((hr.keeps hsend rfl).with_stage trivial)
    · obtain ⟨hentry, rfl⟩ := hperform
      refine h.step (w.extends_send _ _) rfl hsent ?_
      simp only [Use.next]
      cases hrejected : rejected request audited.reply with
      | false => exact ⟨nofun, trivial⟩
      | true =>
        exact hr.reject hentry hfresh fun hmethod => hok hmethod hrejected r hi
  | invalidateToken =>
    obtain rfl : w' = w.invalidateToken := hperform
    exact h.drop hok (hr.extends (World.extends_of_audit rfl rfl)
      fun hstage => absurd hstage (hok i r hi))
  | kvVersionAccepted =>
    obtain ⟨-, rfl⟩ := hperform
    exact h.stay hr
  | acceptKvVersion =>
    obtain rfl : w' = _ := hperform
    exact h.step (World.extends_of_audit rfl rfl) rfl (fun _ hmem => .inl hmem)
      (hr.keeps (World.extends_of_audit rfl rfl) rfl)

theorem Honest.move (h : Honest settings w f) {l : Label ι Op Answer VaultCall}
    (hok : InOrder settings w f l)
    (hmove : (client settings).Move uses VaultCall.use w f l w' f') : Honest settings w' f' := by
  cases hmove with
  | start call hi => exact h.stay ⟨nofun, trivial⟩
  | call hi hallows hperform => exact h.call hi hallows hperform hok
  | crash hi =>
    exact ⟨h.sent, h.current, fun j r hj => h.sound j r (of_update_none hj).2⟩
  | background hpasses =>
    obtain ⟨now, rfl⟩ := hpasses
    have hw : w.Extends { w with now := now } := World.extends_of_audit rfl rfl
    exact ⟨h.sent, h.current, fun j r hj => (h.sound j r hj).keeps hw rfl⟩

end Moves

section Main

variable {settings : Settings} {now : ℤ} {c : Config ι Op Answer Thrown Unit VaultCall World}

/-- Every request that was sent carried a token that some login had returned, and a call that ended
refused had a request rejected, and then again with a token that Vault issued in between. -/
def TokensIssued (c : Config ι Op Answer Thrown Unit VaultCall World) : Prop :=
  (∀ token ∈ c.shared.sent, ∃ t, token = some t ∧ t ∈ c.shared.returned) ∧
    ∀ i p message, c.process i = some p → p.program.result = some (.error (.refused message)) →
      ∃ earlier first token second k, rejections p.trace = earlier ++ [first, (some token, second)] ∧
        first.2 < k ∧ k < second ∧ c.shared.audit[k]? = some (.issued token)

theorem honest_of_reaches
    (h : (client settings).Reaches
      (fun c l => InOrder settings c.shared (c.records uses VaultCall.use) l)
      (.initial (.initial now)) c) :
    Honest settings c.shared (c.records uses VaultCall.use) :=
  h.records_invariant (InOrder settings) (Honest settings) (entry_obeys settings)
    ⟨nofun, nofun, nofun⟩ fun _ _ _ _ _ hP hok hmove => hP.move hok hmove

/-- In a run in which no call loses the token, or gets an older one, between the end of its login and
its reading of the token, and no request with a supplied token is rejected twice, every request
carries an issued token, and a refusal is about a token issued after the first rejection. -/
theorem tokens_issued
    (h : (client settings).Reaches
      (fun c l => InOrder settings c.shared (c.records uses VaultCall.use) l)
      (.initial (.initial now)) c) : TokensIssued c := by
  have hhonest := honest_of_reaches h
  refine ⟨hhonest.sent, fun i p message hi hrefused => ?_⟩
  obtain ⟨job, t, program⟩ := p
  obtain rfl : program = .done (.error (.refused message)) := by
    cases program with
    | done r => simpa [Program.result] using hrefused
    | call op resume => cases hrefused
  obtain ⟨earlier, first, token, second, hstage, hrejections⟩ := h.settled (entry_obeys settings) hi
  have hsound := (hhonest.sound i _ (Config.records_eq hi)).stage
  change Stage.Sound settings c.shared _ (uses.after job.use t).stage at hsound
  rw [hstage] at hsound
  obtain ⟨t', k, rfl, hfirst, hsecond, hk⟩ := hsound
  rw [after_rejections] at hrejections
  exact ⟨earlier, first, t', second, k, hrejections, hfirst, hsecond, hk⟩

end Main

section Sample

def sampleSettings : Settings := ⟨"issuer", "secret", .kubernetes, ""⟩

def sampleCall : VaultCall := .signCertificate ⟨"pki_dfsp", "client", "csr", "dfsp", none⟩

def refusal : (request : Request) → Reply request
  | .mounts => ⟨403, none⟩
  | .get _ => ⟨403, none⟩
  | .post _ _ => ⟨403, none⟩
  | .sign _ => ⟨403, none, none, none, none, none⟩

def sampleToken (w : World) : String := if w.audit = [] then "first" else "later"

/-- Vault issues tokens that are spent at once, and rejects every request. -/
def World.respond (w : World) : (op : Op) → Answer op × World
  | .check rejected => w.check sampleSettings rejected
  | .beginLogin => w.beginLogin sampleSettings
  | .readServiceAccountToken => (.ok "jwt", w)
  | .postLogin _ => (.ok ⟨some (sampleToken w), some 60⟩, w.log (.issued (sampleToken w)))
  | .store token lease => ((), w.complete token (w.expiry lease))
  | .resume => (w.client.token, w)
  | .send request token => (.ok ⟨w.audit.length, refusal request⟩,
      (w.logSend token).log (.answered token (status (refusal request))))
  | .invalidateToken => ((), w.invalidateToken)
  | .kvVersionAccepted => (w.client.kvVersionAccepted, w)
  | .acceptKvVersion => ((), { w with client := { w.client with kvVersionAccepted := true } })

theorem performs_respond (w : World) (op : Op) :
    w.Performs sampleSettings op (w.respond op).1 (w.respond op).2 := by
  cases op with
  | resume => exact ⟨rfl, rfl⟩
  | send request token => exact ⟨rfl, rfl⟩
  | kvVersionAccepted => exact ⟨rfl, rfl⟩
  | _ => rfl

/-- Where a call stands between the end of its login and its reading of the token, it is that call
which goes on, and reads. -/
def Calm (c : Config Bool Op Answer Thrown Unit VaultCall World) (i : Bool) : Prop :=
  ∀ j, (c.records uses VaultCall.use j).map Use.stage = some .returned →
    (c.process i).bind (fun p => p.program.awaits) = some .resume

instance (c : Config Bool Op Answer Thrown Unit VaultCall World) (i : Bool) :
    Decidable (Calm c i) := Bool.instDecidableForallOfDecidablePred _

theorem inOrder_of_calm {c : Config Bool Op Answer Thrown Unit VaultCall World} {i : Bool}
    (h : Calm c i) {op : Op} (hop : (c.process i).bind (fun p => p.program.awaits) = some op)
    (a : Answer op) :
    InOrder sampleSettings c.shared (c.records uses VaultCall.use) (.call i ⟨op, a⟩) := by
  have hreads : ∀ j r, c.records uses VaultCall.use j = some r → r.stage = .returned →
      op = .resume := by
    intro j r hj hstage
    have hawaits := h j (by rw [hj, Option.map_some, hstage])
    exact Option.some.inj (hop.symm.trans hawaits)
  cases op with
  | check rejected =>
    cases rejected <;> cases a <;> try trivial
    exact fun j r hj hstage => by cases hreads j r hj hstage
  | store token lease => exact fun j r hj hstage => by cases hreads j r hj hstage
  | send request token =>
    cases a with
    | error e => trivial
    | ok audited => exact fun hmethod => by cases hmethod
  | invalidateToken => exact fun j r hj hstage => by cases hreads j r hj hstage
  | _ => trivial

abbrev SampleReached (c : Config Bool Op Answer Thrown Unit VaultCall World) : Prop :=
  (client sampleSettings).Reaches
    (fun c l => InOrder sampleSettings c.shared (c.records uses VaultCall.use) l)
    (.initial (.initial 0)) c

def sampleBegun (c : Config Bool Op Answer Thrown Unit VaultCall World) (i : Bool) :
    Config Bool Op Answer Thrown Unit VaultCall World :=
  c.put i (some ⟨sampleCall, [], sampleCall.entry sampleSettings⟩)

theorem reached_advance {c : Config Bool Op Answer Thrown Unit VaultCall World}
    (h : SampleReached c) (i : Bool) (n : ℕ)
    (hcalm : ∀ k < n, Calm (c.advance World.respond i k) i) :
    SampleReached (c.advance World.respond i n) :=
  h.advanceEach i performs_respond n fun k hk _ hop => inOrder_of_calm (hcalm k hk) hop _

/-- Both calls have logged in. -/
def sampleBothLogged : Config Bool Op Answer Thrown Unit VaultCall World :=
  (sampleBegun ((sampleBegun (.initial (.initial 0)) false).advance World.respond false 6)
    true).advance World.respond true 6

/-- Each has its token rejected twice, the first one before the second. -/
def sampleRefused : Config Bool Op Answer Thrown Unit VaultCall World :=
  (sampleBothLogged.advance World.respond false 10).advance World.respond true 10

/-- Two calls, both of whose tokens are rejected. -/
theorem tokens_issued_sample : TokensIssued sampleRefused ∧
    sampleRefused.shared.sent = [some "later", some "later", some "later", some "first"] := by
  have hfirst : SampleReached ((sampleBegun (.initial (.initial 0)) false).advance World.respond
      false 6) :=
    reached_advance (System.Reaches.refl.tail (l := .start false sampleCall) trivial
      (.start sampleCall rfl)) false 6 (by decide +kernel)
  have hlogged : SampleReached sampleBothLogged :=
    reached_advance (hfirst.tail (l := .start true sampleCall) trivial
      (.start sampleCall rfl)) true 6 (by decide +kernel)
  have hrefused : SampleReached sampleRefused :=
    reached_advance (reached_advance hlogged false 10 (by decide +kernel)) true 10
      (by decide +kernel)
  exact ⟨tokens_issued hrefused, by decide +kernel⟩

/-- The first call has its token; the second has just logged in. -/
def sampleRenewed : Config ℕ Op Answer Thrown Unit VaultCall World :=
  ((((Config.initial (World.initial 0)).put 0 (some ⟨sampleCall, [], sampleCall.entry sampleSettings⟩)
    ).advance World.respond 0 5).put 1
    (some ⟨sampleCall, [], sampleCall.entry sampleSettings⟩)).advance World.respond 1 4

/-- The first call is rejected, and drops the token before the second has read it. -/
def sampleDropped : Config ℕ Op Answer Thrown Unit VaultCall World :=
  (sampleRenewed.advance World.respond 0 2).advance World.respond 1 2

theorem sampleDropped_reached : (client sampleSettings).Reaches System.Any
    (.initial (.initial 0)) sampleDropped := by
  have hfirst : (client sampleSettings).Reaches (ι := ℕ) System.Any (.initial (.initial 0)) _ :=
    (System.Reaches.refl.tail trivial (.start (i := 0) sampleCall rfl)).advance
      performs_respond 0 5
  have hrenewed : (client sampleSettings).Reaches System.Any (.initial (.initial 0)) sampleRenewed :=
    (hfirst.tail trivial (.start (i := 1) sampleCall rfl)).advance performs_respond 1 4
  exact (hrenewed.advance performs_respond 0 2).advance performs_respond 1 2

/-- A request is sent without a token. -/
theorem not_tokens_issued :
    ¬ ∀ (settings : Settings) (now : ℤ) (c : Config ℕ Op Answer Thrown Unit VaultCall World),
      (client settings).Reaches System.Any (.initial (.initial now)) c → TokensIssued c := by
  intro hall
  have hsent : sampleDropped.shared.sent = [none, some "first"] := by decide +kernel
  obtain ⟨t, ht, -⟩ := (hall sampleSettings 0 sampleDropped sampleDropped_reached).1 none (by simp [hsent])
  cases ht

end Sample
end Vault.Tokens
