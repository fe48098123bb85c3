import Pivotal.Participant.KeySources

/-! The refreshes of the cache of keys: whatever of them fails, its fields are what the refreshes
that came to their end have made of them, one after the other. -/
namespace Participant
open Async (EventLoop Execution Immediate)
open Async.Program (perform)
open Fspiop (JsError)
open Relation (ReflTransGen)

namespace ParticipantSigningKeysCache

/-- `this.isRefreshing = value` -/
def setRefreshing (cache : ParticipantSigningKeysCache) (value : Bool) :
    ParticipantSigningKeysCache := { cache with isRefreshing := value }

theorem setRefreshing_eq {cache : ParticipantSigningKeysCache} {value : Bool}
    (h : cache.isRefreshing = value) : cache.setRefreshing value = cache := by
  rw [← h]
  rfl

/-- The fields are in memory; tables and secrets are awaited. -/
def now : Immediate RefreshOp RefreshAnswer ParticipantSigningKeysCache
  | cache, .isRefreshing => some (cache.isRefreshing, cache)
  | cache, .setRefreshing value => some ((), cache.setRefreshing value)
  | cache, .privateKeys => some (cache.privateKeysByFspId, cache)
  | cache, .keyRefs => some (cache.keyRefsByFspId, cache)
  | cache, .assign s => some ((), cache.assign s)
  | _, .findAll => none
  | _, .readKvField _ _ => none

end ParticipantSigningKeysCache

open ParticipantSigningKeysCache (now setRefreshing_eq)

/-- One process of an application under a profile, and the refreshes under way. -/
abbrev KeyedInstance :=
  EventLoop Caller RefreshOp RefreshAnswer JsError Unit ParticipantSigningKeysCache

abbrev RefreshExecution := Execution Caller RefreshOp RefreshAnswer JsError Unit

/-- What a refresh was answered: both tables, and the fields of the secrets in their order. -/
structure Refresh where
  participants : List ParticipantRow
  participantKeys : List ParticipantKey
  privateKeyAnswers : List (Except JsError (Option String))
  keyRefAnswers : List (Except JsError (Option String))

namespace Refresh

/-- The tenants that sign, each with the answer for it. -/
def privateKeyReads (refresh : Refresh) : List (String × Except JsError (Option String)) :=
  (signingTenants refresh.participantKeys).zip refresh.privateKeyAnswers

def keyRefReads (refresh : Refresh) : List (String × Except JsError (Option String)) :=
  (signingTenants refresh.participantKeys).zip refresh.keyRefAnswers

def privateKeys (refresh : Refresh) (source : JwsPrivateKeySource)
    (previous : Js.Map String String) : Js.Map String String :=
  match source with
  | .database => DatabaseJwsPrivateKeySource.resolve refresh.participantKeys
  | .vault jwsKeyPathPrefix =>
    (VaultJwsPrivateKeySource jwsKeyPathPrefix).resolved previous refresh.privateKeyReads
  | .deviceHeld => .empty
  | .none => .empty

def keyRefs (refresh : Refresh) (source : Option String) (previous : Js.Map String String) :
    Js.Map String String :=
  match source with
  | none => previous
  | some keyRefPathPrefix =>
    (VaultJwsKeyRefSource keyRefPathPrefix).resolved previous refresh.keyRefReads

/-- All six fields, of what one refresh was answered. -/
def apply (profile : KeyProfile) (cache : ParticipantSigningKeysCache) (refresh : Refresh) :
    ParticipantSigningKeysCache :=
  cache.assign ⟨refresh.participants, refresh.participantKeys,
    refresh.privateKeys profile.privateKeySource cache.privateKeysByFspId,
    refresh.keyRefs profile.keyRefSource cache.keyRefsByFspId⟩

/-- The private key of each tenant was read, if Vault has it. -/
def PrivateKeysRead (profile : KeyProfile) (refresh : Refresh) : Prop :=
  ∀ jwsKeyPathPrefix, profile.privateKeySource = .vault jwsKeyPathPrefix →
    (signingTenants refresh.participantKeys).length = refresh.privateKeyAnswers.length

def KeyRefsRead (profile : KeyProfile) (refresh : Refresh) : Prop :=
  ∀ keyRefPathPrefix, profile.keyRefSource = some keyRefPathPrefix →
    (signingTenants refresh.participantKeys).length = refresh.keyRefAnswers.length

/-- The tenant is still there and signs, and there is a value for it wherever its read does not
fail. -/
structure Keeps (refresh : Refresh) (secrets : VaultSecrets)
    (reads : List (String × Except JsError (Option String))) (fspId : String) : Prop where
  signing : fspId ∈ signingTenants refresh.participantKeys
  value : ∀ value, (fspId, .ok value) ∈ reads → (value.bind secrets.text).isSome = true

end Refresh

def tables? : RefreshEvent → Option (List ParticipantRow × List ParticipantKey)
  | ⟨.findAll, .ok tables⟩ => some tables
  | _ => none

def answer? (field : String) : RefreshEvent → Option (Except JsError (Option String))
  | ⟨.readKvField _ field', answer⟩ => if field' = field then some answer else none
  | _ => none

def assigns : RefreshEvent → Bool
  | ⟨.assign _, _⟩ => true
  | _ => false

/-- The refresh that has assigned the fields, by what it was answered. -/
def refreshOf (t : List RefreshEvent) : Option Refresh :=
  if t.any assigns then
    (t.findSome? tables?).map fun (participants, participantKeys) =>
      ⟨participants, participantKeys, t.filterMap (answer? "privateKey"),
        t.filterMap (answer? "keyRef")⟩
  else none

namespace KeyedInstance

def initial : KeyedInstance := ⟨.new, []⟩

variable (profile : KeyProfile)

/-- `load`, and a tick of its timer. -/
def load (s : KeyedInstance) : KeyedInstance := s.start now .load profile.refreshSafely

def onModuleInit (s : KeyedInstance) : KeyedInstance :=
  (load profile s).start now .onModuleInit profile.refreshParticipantSigningKeys

/-- Anyone may call `load` at any time; what is awaited is answered in any order, and in any way. -/
inductive Step : KeyedInstance → KeyedInstance → Prop
  | load (s : KeyedInstance) : Step s (load profile s)
  | onModuleInit (s : KeyedInstance) : Step s (onModuleInit profile s)
  | answered {s s' : KeyedInstance} : EventLoop.Answered now s s' → Step s s'

/-- The refreshes that have assigned the fields, in the order of their calls. -/
def refreshes (s : KeyedInstance) : List Refresh :=
  s.executions.filterMap fun e => refreshOf e.trace

/-- A refresh has thrown, whether its caller was told or not. -/
def Threw (e : RefreshExecution) : Prop :=
  ∃ error, ⟨.findAll, .error error⟩ ∈ e.trace ∨ e.program = .done (.error error)

/-! One refresh, from one `await` to the next. -/

/-- The rest of a refresh for its caller, once it has the flag. -/
def close : Caller → RefreshProgram Unit → RefreshProgram Unit
  | .onModuleInit, p => p.tryFinally (perform (RefreshOp.setRefreshing false))
  | .load, p =>
    tryCatch (p.tryFinally (perform (RefreshOp.setRefreshing false))) fun _ => pure ()

/-- What the caller is told. -/
def told : Caller → Except JsError Unit → Except JsError Unit
  | .onModuleInit, r => r
  | .load, _ => .ok ()

theorem close_call (caller : Caller) (op : RefreshOp) (k : RefreshAnswer op → RefreshProgram Unit) :
    close caller (.call op k) = .call op fun a => close caller (k a) := by
  cases caller <;> rfl

theorem close_done (caller : Caller) (r : Except JsError Unit) :
    close caller (.done r) = .call (.setRefreshing false) fun _ => .done (told caller r) := by
  cases caller with
  | onModuleInit => rfl
  | load => cases r <;> rfl

/-- What the trace of a refresh that has assigned nothing says. -/
structure Recorded (t : List RefreshEvent)
    (tables : Option (List ParticipantRow × List ParticipantKey))
    (privateKeys keyRefs : List (Except JsError (Option String))) : Prop where
  tables : t.findSome? tables? = tables
  privateKeys : t.filterMap (answer? "privateKey") = privateKeys
  keyRefs : t.filterMap (answer? "keyRef") = keyRefs
  unassigned : t.any assigns = false
  found : ∀ error, ⟨.findAll, .error error⟩ ∉ t

/-- What a refresh waits for, by what it was answered before. -/
inductive Awaiting (cache : ParticipantSigningKeysCache) (caller : Caller) :
    List RefreshEvent → RefreshProgram Unit → Prop
  | tables {t : List RefreshEvent} : Recorded t none [] [] →
      Awaiting cache caller t (close caller profile.reload)
  | privateKey {t : List RefreshEvent} {participants : List ParticipantRow}
      {participantKeys : List ParticipantKey} {answers : List (Except JsError (Option String))}
      {jwsKeyPathPrefix : String} {read unread : List String} {fspId : String} :
      Recorded t (some (participants, participantKeys)) answers [] →
      profile.privateKeySource = .vault jwsKeyPathPrefix →
      signingTenants participantKeys = read ++ fspId :: unread →
      read.length = answers.length →
      Awaiting cache caller t (close caller
        ((VaultJwsPrivateKeySource jwsKeyPathPrefix).readEach cache.privateKeysByFspId
          (fspId :: unread) ((VaultJwsPrivateKeySource jwsKeyPathPrefix).resolved
            cache.privateKeysByFspId (read.zip answers)) >>= fun keys =>
          profile.assignKeys participants participantKeys keys))
  | keyRef {t : List RefreshEvent} {refresh : Refresh}
      {answers : List (Except JsError (Option String))}
      {keyRefPathPrefix : String} {read unread : List String} {fspId : String} :
      Recorded t (some (refresh.participants, refresh.participantKeys))
        refresh.privateKeyAnswers answers →
      refresh.PrivateKeysRead profile →
      profile.keyRefSource = some keyRefPathPrefix →
      signingTenants refresh.participantKeys = read ++ fspId :: unread →
      read.length = answers.length →
      Awaiting cache caller t (close caller
        ((VaultJwsKeyRefSource keyRefPathPrefix).readEach cache.keyRefsByFspId (fspId :: unread)
          ((VaultJwsKeyRefSource keyRefPathPrefix).resolved cache.keyRefsByFspId
            (read.zip answers)) >>= fun keyRefs =>
          perform (RefreshOp.assign ⟨refresh.participants, refresh.participantKeys,
            refresh.privateKeys profile.privateKeySource cache.privateKeysByFspId, keyRefs⟩)))

/-- A refresh that has thrown has assigned nothing, and one that has assigned the fields has read
each tenant. -/
structure Sound (t : List RefreshEvent) (r : Except JsError Unit) : Prop where
  threw : ∀ error, (⟨.findAll, .error error⟩ ∈ t ∨ r = .error error) → refreshOf t = none
  read : ∀ refresh, refreshOf t = some refresh →
    refresh.PrivateKeysRead profile ∧ refresh.KeyRefsRead profile

/-- Where a refresh is after its turn: it waits, with the fields as they were, or it is done. -/
def Landed (cache : ParticipantSigningKeysCache) (caller : Caller)
    (x : RefreshProgram Unit × List RefreshEvent × ParticipantSigningKeysCache) : Prop :=
  (Awaiting profile cache caller x.2.1 x.1 ∧ x.2.2 = cache) ∨
    ∃ r, x.1 = .done r ∧ Sound profile x.2.1 r ∧
      x.2.2 = ((refreshOf x.2.1).toList.foldl (Refresh.apply profile) cache).setRefreshing false

section Recorded

variable {t : List RefreshEvent} {tables : Option (List ParticipantRow × List ParticipantKey)}
  {privateKeys keyRefs : List (Except JsError (Option String))}

theorem Recorded.snoc (h : Recorded t tables privateKeys keyRefs) (e : RefreshEvent)
    (hassigns : assigns e = false) (hfound : ∀ error, e ≠ ⟨.findAll, .error error⟩) :
    Recorded (t ++ [e]) (tables.or (tables? e)) (privateKeys ++ (answer? "privateKey" e).toList)
      (keyRefs ++ (answer? "keyRef" e).toList) := by
  have hanswer (field : String) : [e].filterMap (answer? field) = (answer? field e).toList := by
    cases he : answer? field e <;> simp [he]
  constructor
  · rw [List.findSome?_append, h.tables]
    cases he : tables? e <;> simp [he]
  · rw [List.filterMap_append, h.privateKeys, hanswer]
  · rw [List.filterMap_append, h.keyRefs, hanswer]
  · simp [h.unassigned, hassigns]
  · intro error hmem
    rcases List.mem_append.mp hmem with hmem | hmem
    · exact h.found error hmem
    · exact hfound error (List.mem_singleton.mp hmem).symm

theorem Recorded.read (h : Recorded t tables privateKeys keyRefs)
    {e : RefreshEvent} (he : e.op = .privateKeys ∨ e.op = .keyRefs) :
    Recorded (t ++ [e]) tables privateKeys keyRefs := by
  obtain ⟨op, a⟩ := e
  rcases he with rfl | rfl
  · simpa [tables?, answer?] using h.snoc ⟨.privateKeys, a⟩ rfl (by simp)
  · simpa [tables?, answer?] using h.snoc ⟨.keyRefs, a⟩ rfl (by simp)

theorem Recorded.refreshOf_eq_none (h : Recorded t tables privateKeys keyRefs) :
    refreshOf t = none := by
  simp [refreshOf, h.unassigned]

theorem Recorded.assign {participants : List ParticipantRow}
    {participantKeys : List ParticipantKey}
    (h : Recorded t (some (participants, participantKeys)) privateKeys keyRefs) (s : Snapshot) :
    refreshOf (t ++ [⟨.assign s, ()⟩, ⟨.setRefreshing false, ()⟩]) =
      some ⟨participants, participantKeys, privateKeys, keyRefs⟩ := by
  simp [refreshOf, h.tables, h.privateKeys, h.keyRefs, assigns, answer?]

end Recorded

section Turn

variable {profile} {cache : ParticipantSigningKeysCache} {caller : Caller} {t : List RefreshEvent}

theorem landed_now {op : RefreshOp} {k : RefreshAnswer op → RefreshProgram Unit}
    {a : RefreshAnswer op} (hnow : now cache op = some (a, cache))
    (h : Landed profile cache caller ((close caller (k a)).turn now (t ++ [⟨op, a⟩]) cache)) :
    Landed profile cache caller ((close caller (.call op k)).turn now t cache) := by
  rw [close_call]
  simp only [Async.Program.turn, hnow]
  exact h

theorem landed_awaiting {op : RefreshOp} {k : RefreshAnswer op → RefreshProgram Unit}
    (hnow : now cache op = none)
    (h : Awaiting profile cache caller t (close caller (.call op k))) :
    Landed profile cache caller ((close caller (.call op k)).turn now t cache) := by
  left
  rw [close_call] at h ⊢
  simp only [Async.Program.turn, hnow]
  exact ⟨h, trivial⟩

/-- A refresh that throws gives the flag back, and has changed nothing else. -/
theorem landed_error (h : t.any assigns = false) (error : JsError) :
    Landed profile cache caller ((close caller (.done (.error error))).turn now t cache) := by
  have hnone : refreshOf (t ++ [⟨.setRefreshing false, ()⟩]) = none := by
    simp [refreshOf, h, assigns]
  right
  rw [close_done]
  refine ⟨told caller (.error error), rfl, ⟨fun _ _ => hnone, ?_⟩, ?_⟩
  · intro refresh hsome
    cases hnone.symm.trans hsome
  · simp only [Async.Program.turn, now, hnone]
    rfl

theorem landed_assign (refresh : Refresh)
    (h : Recorded t (some (refresh.participants, refresh.participantKeys))
      refresh.privateKeyAnswers refresh.keyRefAnswers) {s : Snapshot}
    (hread : refresh.PrivateKeysRead profile ∧ refresh.KeyRefsRead profile)
    (hs : cache.assign s = refresh.apply profile cache) :
    Landed profile cache caller
      ((close caller (perform (RefreshOp.assign s))).turn now t cache) := by
  have hsome := h.assign s
  have hturn : (close caller (perform (RefreshOp.assign s))).turn now t cache =
      (.done (told caller (.ok ())), t ++ [⟨.assign s, ()⟩, ⟨.setRefreshing false, ()⟩],
        (cache.assign s).setRefreshing false) := by
    unfold perform
    rw [close_call]
    simp only [Async.Program.turn, now, close_done, List.append_assoc, List.cons_append,
      List.nil_append]
  right
  rw [hturn]
  refine ⟨told caller (.ok ()), rfl, ⟨?_, ?_⟩, ?_⟩
  · rintro error (hmem | herror)
    · exfalso
      simp only [List.mem_append, List.mem_cons, List.not_mem_nil, or_false] at hmem
      rcases hmem with hmem | hmem | hmem
      · exact h.found error hmem
      · cases hmem
      · cases hmem
    · cases caller <;> cases herror
  · intro refresh' hrefresh
    obtain rfl := Option.some.inj (hsome.symm.trans hrefresh)
    exact hread
  · simp only [hsome, hs]
    rfl

theorem Recorded.answer_keyRef {tables : Option (List ParticipantRow × List ParticipantKey)}
    {privateKeys answers : List (Except JsError (Option String))}
    (h : Recorded t tables privateKeys answers) (path : String)
    (answer : Except JsError (Option String)) :
    Recorded (t ++ [⟨.readKvField path "keyRef", answer⟩]) tables privateKeys
      (answers ++ [answer]) := by
  simpa [tables?, answer?] using h.snoc ⟨.readKvField path "keyRef", answer⟩ rfl (by simp)

theorem Recorded.answer_privateKey {tables : Option (List ParticipantRow × List ParticipantKey)}
    {answers : List (Except JsError (Option String))}
    (h : Recorded t tables answers []) (path : String) (answer : Except JsError (Option String)) :
    Recorded (t ++ [⟨.readKvField path "privateKey", answer⟩]) tables (answers ++ [answer])
      [] := by
  simpa [tables?, answer?] using h.snoc ⟨.readKvField path "privateKey", answer⟩ rfl (by simp)

theorem landed_keyRefs {refresh : Refresh} {answers : List (Except JsError (Option String))}
    {keyRefPathPrefix : String} (read : List String) {unread : List String}
    (h : Recorded t (some (refresh.participants, refresh.participantKeys))
      refresh.privateKeyAnswers answers)
    (hprivate : refresh.PrivateKeysRead profile)
    (hsource : profile.keyRefSource = some keyRefPathPrefix)
    (htenants : signingTenants refresh.participantKeys = read ++ unread)
    (hlength : read.length = answers.length) :
    Landed profile cache caller ((close caller
      ((VaultJwsKeyRefSource keyRefPathPrefix).readEach cache.keyRefsByFspId unread
        ((VaultJwsKeyRefSource keyRefPathPrefix).resolved cache.keyRefsByFspId
          (read.zip answers)) >>= fun keyRefs =>
        perform (RefreshOp.assign ⟨refresh.participants, refresh.participantKeys,
          refresh.privateKeys profile.privateKeySource cache.privateKeysByFspId, keyRefs⟩))).turn
            now t cache) := by
  cases unread with
  | nil =>
    rw [List.append_nil] at htenants
    refine landed_assign { refresh with keyRefAnswers := answers } h ⟨hprivate, ?_⟩ ?_
    · intro _ _
      exact (congrArg List.length htenants).trans hlength
    have hkeyRefs : ({ refresh with keyRefAnswers := answers } : Refresh).keyRefs
        profile.keyRefSource cache.keyRefsByFspId =
        (VaultJwsKeyRefSource keyRefPathPrefix).resolved cache.keyRefsByFspId
          (read.zip answers) := by
      simp [Refresh.keyRefs, hsource, Refresh.keyRefReads, htenants]
    unfold Refresh.apply
    rw [hkeyRefs]
    rfl
  | cons fspId unread => exact landed_awaiting rfl (.keyRef h hprivate hsource htenants hlength)

theorem landed_assignKeys (refresh : Refresh)
    (h : Recorded t (some (refresh.participants, refresh.participantKeys))
      refresh.privateKeyAnswers []) (hkeyRefs : refresh.keyRefAnswers = [])
    (hprivate : refresh.PrivateKeysRead profile) :
    Landed profile cache caller ((close caller (profile.assignKeys refresh.participants
      refresh.participantKeys (refresh.privateKeys profile.privateKeySource
        cache.privateKeysByFspId))).turn now t cache) := by
  have hread := h.read (e := ⟨.keyRefs, cache.keyRefsByFspId⟩) (.inr rfl)
  unfold KeyProfile.assignKeys KeyProfile.resolveKeyRefs
  cases hsource : profile.keyRefSource with
  | none =>
    refine landed_now (a := cache.keyRefsByFspId) rfl (landed_assign refresh ?_
      ⟨hprivate, by simp [Refresh.KeyRefsRead, hsource]⟩ ?_)
    · rw [hkeyRefs]
      exact hread
    · simp [Refresh.apply, Refresh.keyRefs, hsource]
  | some keyRefPathPrefix =>
    simp only [VaultSecrets.resolve_eq]
    exact landed_now (a := cache.keyRefsByFspId) rfl
      (landed_keyRefs [] hread hprivate hsource rfl rfl)

theorem landed_privateKeys {participants : List ParticipantRow}
    {participantKeys : List ParticipantKey} {answers : List (Except JsError (Option String))}
    {jwsKeyPathPrefix : String} (read : List String) {unread : List String}
    (h : Recorded t (some (participants, participantKeys)) answers [])
    (hsource : profile.privateKeySource = .vault jwsKeyPathPrefix)
    (htenants : signingTenants participantKeys = read ++ unread)
    (hlength : read.length = answers.length) :
    Landed profile cache caller ((close caller
      ((VaultJwsPrivateKeySource jwsKeyPathPrefix).readEach cache.privateKeysByFspId unread
        ((VaultJwsPrivateKeySource jwsKeyPathPrefix).resolved cache.privateKeysByFspId
          (read.zip answers)) >>= fun keys =>
        profile.assignKeys participants participantKeys keys)).turn now t cache) := by
  cases unread with
  | nil =>
    rw [List.append_nil] at htenants
    have hkeys : (⟨participants, participantKeys, answers, []⟩ : Refresh).privateKeys
        profile.privateKeySource cache.privateKeysByFspId =
        (VaultJwsPrivateKeySource jwsKeyPathPrefix).resolved cache.privateKeysByFspId
          (read.zip answers) := by
      simp [Refresh.privateKeys, hsource, Refresh.privateKeyReads, htenants]
    rw [← hkeys]
    exact landed_assignKeys ⟨participants, participantKeys, answers, []⟩ h rfl
      fun _ _ => (congrArg List.length htenants).trans hlength
  | cons fspId unread => exact landed_awaiting rfl (.privateKey h hsource htenants hlength)

theorem landed_resolveKeys {participants : List ParticipantRow}
    {participantKeys : List ParticipantKey}
    (h : Recorded t (some (participants, participantKeys)) [] []) :
    Landed profile cache caller
      ((close caller (profile.resolveKeys participants participantKeys)).turn now t cache) := by
  have hread := h.read (e := ⟨.privateKeys, cache.privateKeysByFspId⟩) (.inl rfl)
  unfold KeyProfile.resolveKeys JwsPrivateKeySource.resolve
  cases hsource : profile.privateKeySource with
  | vault jwsKeyPathPrefix =>
    simp only [VaultSecrets.resolve_eq]
    exact landed_now (a := cache.privateKeysByFspId) rfl
      (landed_privateKeys [] hread hsource rfl rfl)
  | database | deviceHeld | none =>
    have hland : Landed profile cache caller _ :=
      landed_assignKeys ⟨participants, participantKeys, [], []⟩ hread rfl
        (by simp [Refresh.PrivateKeysRead, hsource])
    unfold Refresh.privateKeys at hland
    rw [hsource] at hland
    exact landed_now (a := cache.privateKeysByFspId) rfl hland

theorem landed_findAll (h : Recorded t none [] [])
    (found : Except JsError (List ParticipantRow × List ParticipantKey)) :
    Landed profile cache caller ((close caller (Async.Program.lift found >>= fun tables =>
      profile.resolveKeys tables.1 tables.2)).turn now (t ++ [⟨.findAll, found⟩]) cache) := by
  cases found with
  | error e =>
    have hassigns : List.any (t ++ [(⟨.findAll, .error e⟩ : RefreshEvent)]) assigns = false := by
      simp [h.unassigned, assigns]
    exact landed_error hassigns e
  | ok tables =>
    obtain ⟨participants, participantKeys⟩ := tables
    have hread := h.snoc ⟨.findAll, .ok (participants, participantKeys)⟩ rfl (by simp)
    exact landed_resolveKeys hread

theorem awaiting_answered {p : RefreshProgram Unit} (h : Awaiting profile cache caller t p) :
    ∃ op k, p = .call op k ∧ now cache op = none ∧ ∀ a : RefreshAnswer op,
      Landed profile cache caller ((k a).turn now (t ++ [⟨op, a⟩]) cache) := by
  cases h with
  | tables hrecorded =>
    refine ⟨.findAll, _, close_call caller .findAll _, rfl, ?_⟩
    intro found
    exact landed_findAll hrecorded found
  | @privateKey participants participantKeys answers jwsKeyPathPrefix read unread fspId hrecorded
      hsource htenants hlength =>
    refine ⟨.readKvField _ _, _, close_call caller _ _, rfl, ?_⟩
    intro answer
    have htenants' : signingTenants participantKeys = (read ++ [fspId]) ++ unread := by
      simpa using htenants
    have hland : Landed profile cache caller _ := landed_privateKeys (read ++ [fspId])
      (hrecorded.answer_privateKey ((VaultJwsPrivateKeySource jwsKeyPathPrefix).path fspId) answer)
        hsource htenants' (by simp [hlength])
    rw [List.zip_append hlength, List.zip_cons_cons, List.zip_nil_left,
      VaultSecrets.resolved_append] at hland
    exact hland
  | @keyRef refresh answers keyRefPathPrefix read unread fspId hrecorded hprivate hsource htenants
      hlength =>
    refine ⟨.readKvField _ _, _, close_call caller _ _, rfl, ?_⟩
    intro answer
    have htenants' : signingTenants refresh.participantKeys = (read ++ [fspId]) ++ unread := by
      simpa using htenants
    have hland : Landed profile cache caller _ := landed_keyRefs (read ++ [fspId])
      (hrecorded.answer_keyRef ((VaultJwsKeyRefSource keyRefPathPrefix).path fspId) answer) hprivate
      hsource htenants' (by simp [hlength])
    rw [List.zip_append hlength, List.zip_cons_cons, List.zip_nil_left,
      VaultSecrets.resolved_append] at hland
    exact hland

end Turn

/-! One instance, and all of its refreshes. -/

/-- What the refreshes among the executions have made of the fields, one after the other. -/
def fields (executions : List RefreshExecution) : ParticipantSigningKeysCache :=
  (executions.filterMap fun e => refreshOf e.trace).foldl (Refresh.apply profile) .new

def Settled (e : RefreshExecution) : Prop :=
  ∃ r, e.program = .done r ∧ Sound profile e.trace r

/-- No refresh is under way, or just one is; those that were called since have done nothing. -/
inductive Consistent : KeyedInstance → Prop
  | idle {executions : List RefreshExecution} : (∀ e ∈ executions, Settled profile e) →
      Consistent ⟨fields profile executions, executions⟩
  | busy {before after : List RefreshExecution} {e : RefreshExecution} :
      (∀ e ∈ before, Settled profile e) →
      (∀ e ∈ after, Settled profile e ∧ refreshOf e.trace = none) →
      Awaiting profile ((fields profile before).setRefreshing true) e.tag e.trace
        e.program →
      Consistent ⟨(fields profile before).setRefreshing true, before ++ e :: after⟩

variable {profile}

theorem foldl_isRefreshing (refreshes : List Refresh) (cache : ParticipantSigningKeysCache) :
    (refreshes.foldl (Refresh.apply profile) cache).isRefreshing = cache.isRefreshing := by
  induction refreshes generalizing cache with
  | nil => rfl
  | cons refresh refreshes ih => exact ih (refresh.apply profile cache)

variable (profile) in
theorem fields_isRefreshing (executions : List RefreshExecution) :
    (fields profile executions).isRefreshing = false := foldl_isRefreshing _ _

theorem Awaiting.refreshOf_eq_none {cache : ParticipantSigningKeysCache} {caller : Caller}
    {t : List RefreshEvent} {p : RefreshProgram Unit} (h : Awaiting profile cache caller t p) :
    refreshOf t = none := by
  cases h with
  | tables hrecorded => exact hrecorded.refreshOf_eq_none
  | privateKey hrecorded => exact hrecorded.refreshOf_eq_none
  | keyRef hrecorded => exact hrecorded.refreshOf_eq_none

theorem filterMap_eq_nil {executions : List RefreshExecution}
    (h : ∀ e ∈ executions, refreshOf e.trace = none) :
    (executions.filterMap fun e => refreshOf e.trace) = [] :=
  List.filterMap_eq_nil_iff.mpr h

theorem Consistent.landed {before after : List RefreshExecution} {e : RefreshExecution}
    {t : List RefreshEvent} {cache : ParticipantSigningKeysCache} {p : RefreshProgram Unit}
    (hbefore : ∀ e ∈ before, Settled profile e)
    (hafter : ∀ e ∈ after, Settled profile e ∧ refreshOf e.trace = none)
    (h : Landed profile ((fields profile before).setRefreshing true) e.tag (p, t, cache)) :
    Consistent profile ⟨cache, before ++ ⟨e.tag, t, p⟩ :: after⟩ := by
  rcases h with ⟨hawaiting, hcache⟩ | ⟨r, hprogram, hsound, hcache⟩
  · obtain rfl := hcache
    exact .busy hbefore hafter hawaiting
  · obtain rfl := hprogram
    have hfields : fields profile (before ++ ⟨e.tag, t, .done r⟩ :: after) = cache := by
      have hnone := filterMap_eq_nil fun e he => (hafter e he).2
      have hidle : (fields profile before).setRefreshing false = fields profile before :=
        setRefreshing_eq (fields_isRefreshing profile before)
      have hturn : cache = ((refreshOf t).toList.foldl (Refresh.apply profile)
        ((fields profile before).setRefreshing true)).setRefreshing false := hcache
      unfold fields at hidle hturn ⊢
      rw [List.filterMap_append, List.filterMap_cons, hnone, List.foldl_append, hturn]
      cases refreshOf t with
      | none => exact hidle.symm
      | some refresh => exact congrArg (Refresh.apply profile · refresh) hidle.symm
    rw [← hfields]
    apply Consistent.idle
    intro x hx
    rcases List.mem_append.mp hx with hx | hx
    · exact hbefore x hx
    · rcases List.mem_cons.mp hx with rfl | hx
      · exact ⟨r, rfl, hsound⟩
      · exact (hafter x hx).1

/-- What is started for a caller. -/
def refreshFor (profile : KeyProfile) : Caller → RefreshProgram Unit
  | .load => profile.refreshSafely
  | .onModuleInit => profile.refreshParticipantSigningKeys

variable (profile) in
theorem turn_of_refreshing {cache : ParticipantSigningKeysCache} (h : cache.isRefreshing = true)
    (caller : Caller) : (refreshFor profile caller).turn now [] cache =
      (.done (.ok ()), [⟨.isRefreshing, true⟩], cache) := by
  have hcall : ∃ k, refreshFor profile caller = .call .isRefreshing k ∧
      k true = .done (.ok ()) := by
    cases caller <;> exact ⟨_, rfl, rfl⟩
  obtain ⟨k, hcall, hdone⟩ := hcall
  rw [hcall]
  simp only [Async.Program.turn, now, h, hdone, List.nil_append]

variable (profile) in
theorem turn_of_not_refreshing {cache : ParticipantSigningKeysCache}
    (h : cache.isRefreshing = false) (caller : Caller) :
    (refreshFor profile caller).turn now [] cache =
      (close caller profile.reload, [⟨.isRefreshing, false⟩, ⟨.setRefreshing true, ()⟩],
        cache.setRefreshing true) := by
  have hcall : ∃ k k', refreshFor profile caller = .call .isRefreshing k ∧
      k false = .call (.setRefreshing true) k' ∧ k' () = close caller profile.reload := by
    cases caller <;> exact ⟨_, _, rfl, rfl, rfl⟩
  obtain ⟨k, k', hcall, hset, hclose⟩ := hcall
  have hreload : profile.reload = .call .findAll _ := rfl
  rw [hcall]
  simp only [Async.Program.turn, now, h, hset, hclose, List.nil_append, List.cons_append]
  rw [hreload, close_call]
  simp only [Async.Program.turn, now]

/-- A refresh that is called waits for the tables, or it returns at once where one is under way. -/
theorem Consistent.start {s : KeyedInstance} (h : Consistent profile s) (caller : Caller) :
    Consistent profile (s.start now caller (refreshFor profile caller)) ∧
      refreshes (s.start now caller (refreshFor profile caller)) = refreshes s := by
  unfold EventLoop.start EventLoop.resume
  cases h with
  | idle hsettled =>
    rename_i executions
    have hturn := turn_of_not_refreshing profile (fields_isRefreshing profile executions) caller
    dsimp only
    rw [hturn]
    constructor
    · refine .busy hsettled (by simp) (.tables ?_)
      constructor <;> simp [tables?, answer?, assigns]
    · have hnone : refreshOf [⟨.isRefreshing, false⟩, ⟨.setRefreshing true, ()⟩] = none := rfl
      simp [refreshes, hnone]
  | busy hbefore hafter hawaiting =>
    rename_i before after e
    have hflag : ((fields profile before).setRefreshing true).isRefreshing = true := rfl
    have hturn := turn_of_refreshing profile hflag caller
    have hnone : refreshOf [⟨.isRefreshing, true⟩] = none := rfl
    dsimp only
    rw [hturn]
    constructor
    · rw [List.append_assoc, List.cons_append]
      refine .busy hbefore ?_ hawaiting
      intro x hx
      rcases List.mem_append.mp hx with hx | hx
      · exact hafter x hx
      · obtain rfl := List.mem_singleton.mp hx
        refine ⟨⟨.ok (), rfl, ⟨fun _ _ => hnone, ?_⟩⟩, hnone⟩
        intro refresh hsome
        cases hnone.symm.trans hsome
    · exact List.filterMap_append.trans (List.append_nil _)

theorem unique_of_settled {before after before' after' : List RefreshExecution}
    {e e' : RefreshExecution} (h : before ++ e :: after = before' ++ e' :: after')
    (hbefore : ∀ e ∈ before, Settled profile e) (hafter : ∀ e ∈ after, Settled profile e)
    (he' : ¬ Settled profile e') : before' = before ∧ e' = e ∧ after' = after := by
  rcases List.append_eq_append_iff.mp h with ⟨l, rfl, hl⟩ | ⟨l, rfl, hl⟩
  · cases l with
    | nil =>
      rw [List.nil_append, List.cons.injEq] at hl
      exact ⟨by simp, hl.1.symm, hl.2.symm⟩
    | cons x l =>
      rw [List.cons_append, List.cons.injEq] at hl
      obtain ⟨rfl, rfl⟩ := hl
      exact absurd (hafter e' (by simp)) he'
  · cases l with
    | nil =>
      rw [List.nil_append, List.cons.injEq] at hl
      exact ⟨by simp, hl.1, hl.2⟩
    | cons x l =>
      rw [List.cons_append, List.cons.injEq] at hl
      obtain ⟨rfl, rfl⟩ := hl
      exact absurd (hbefore e' (by simp)) he'

/-- An answer is for the refresh under way, and adds to the refreshes that came to their end at
most that one. -/
theorem Consistent.answered {s s' : KeyedInstance} (h : Consistent profile s)
    (hs : EventLoop.Answered now s s') :
    Consistent profile s' ∧ ∃ later, refreshes s' = refreshes s ++ later := by
  obtain ⟨a, hnow⟩ := hs
  rename_i cache before' after' tag t op k
  have hunsettled : ¬ Settled profile ⟨tag, t, .call op k⟩ := by
    rintro ⟨r, hdone, -⟩
    cases hdone
  generalize hexecutions : before' ++ (⟨tag, t, .call op k⟩ : RefreshExecution) :: after' =
    executions at h
  cases h with
  | idle hsettled => exact absurd (hsettled _ (by simp [← hexecutions])) hunsettled
  | busy hbefore hafter hawaiting =>
    obtain ⟨rfl, rfl, rfl⟩ := unique_of_settled hexecutions.symm hbefore
      (fun e he => (hafter e he).1) hunsettled
    obtain ⟨op', k', hcall, -, hlands⟩ := awaiting_answered hawaiting
    cases hcall
    have hnone := filterMap_eq_nil fun e he => (hafter e he).2
    refine ⟨Consistent.landed hbefore hafter (hlands a), ?_⟩
    have hold := hawaiting.refreshOf_eq_none
    unfold refreshes EventLoop.resume
    generalize (k a).turn now _ _ = turn
    refine ⟨(refreshOf turn.2.1).toList, ?_⟩
    rw [List.filterMap_append, List.filterMap_append, List.filterMap_cons, List.filterMap_cons,
      hnone]
    dsimp only at hold ⊢
    rw [hold]
    cases refreshOf turn.2.1 <;> simp

theorem Consistent.step {s s' : KeyedInstance} (h : Consistent profile s)
    (hs : Step profile s s') :
    Consistent profile s' ∧ ∃ later, refreshes s' = refreshes s ++ later := by
  cases hs with
  | load =>
    obtain ⟨hload, hsame⟩ := h.start .load
    exact ⟨hload, [], by rw [List.append_nil]; exact hsame⟩
  | onModuleInit =>
    obtain ⟨hload, hsame⟩ := h.start .load
    obtain ⟨hinit, hsame'⟩ := hload.start .onModuleInit
    exact ⟨hinit, [], by rw [List.append_nil]; exact hsame'.trans hsame⟩
  | answered hanswered => exact h.answered hanswered

theorem Consistent.run {s s' : KeyedInstance} (h : Consistent profile s)
    (hs : ReflTransGen (Step profile) s s') :
    Consistent profile s' ∧ ∃ later, refreshes s' = refreshes s ++ later := by
  induction hs with
  | refl => exact ⟨h, [], (List.append_nil _).symm⟩
  | tail _ hstep ih =>
    obtain ⟨hmid, later, hlater⟩ := ih
    obtain ⟨hnext, next, hnew⟩ := hmid.step hstep
    exact ⟨hnext, later ++ next, by rw [hnew, hlater, List.append_assoc]⟩

theorem consistent_initial : Consistent profile initial := by
  have hnone : ∀ e ∈ ([] : List RefreshExecution), Settled profile e := by simp
  exact .idle hnone

/-- The fields are what the refreshes have made of them. -/
theorem Consistent.memory {s : KeyedInstance} (h : Consistent profile s) :
    s.memory.setRefreshing false = (refreshes s).foldl (Refresh.apply profile) .new := by
  cases h with
  | idle _ => exact setRefreshing_eq (fields_isRefreshing profile _)
  | busy hbefore hafter hawaiting =>
    rename_i before after e
    have hnone := filterMap_eq_nil fun e he => (hafter e he).2
    have hrefreshes : refreshes ⟨(fields profile before).setRefreshing true,
        before ++ e :: after⟩ = before.filterMap fun e => refreshOf e.trace := by
      unfold refreshes
      rw [List.filterMap_append, List.filterMap_cons, hnone, hawaiting.refreshOf_eq_none]
      exact List.append_nil _
    rw [hrefreshes]
    exact setRefreshing_eq (fields_isRefreshing profile before)

theorem Consistent.sound {s : KeyedInstance} (h : Consistent profile s) {e : RefreshExecution}
    (he : e ∈ s.executions) : refreshOf e.trace = none ∨ Settled profile e := by
  cases h with
  | idle hsettled => exact .inr (hsettled e he)
  | busy hbefore hafter hawaiting =>
    rcases List.mem_append.mp he with he | he
    · exact .inr (hbefore e he)
    · rcases List.mem_cons.mp he with rfl | he
      · exact .inl hawaiting.refreshOf_eq_none
      · exact .inl (hafter e he).2

theorem Consistent.threw {s : KeyedInstance} (h : Consistent profile s) {e : RefreshExecution}
    (he : e ∈ s.executions) (hthrew : Threw e) : refreshOf e.trace = none := by
  rcases h.sound he with hnone | ⟨r, hdone, hsound⟩
  · exact hnone
  · obtain ⟨error, hcause⟩ := hthrew
    apply hsound.threw error
    rcases hcause with hfound | hprogram
    · exact .inl hfound
    · right
      rw [hdone] at hprogram
      injection hprogram

theorem Consistent.read {s : KeyedInstance} (h : Consistent profile s) {refresh : Refresh}
    (hrefresh : refresh ∈ refreshes s) :
    refresh.PrivateKeysRead profile ∧ refresh.KeyRefsRead profile := by
  obtain ⟨e, he, hsome⟩ := List.mem_filterMap.mp hrefresh
  rcases h.sound he with hnone | ⟨r, -, hsound⟩
  · cases hnone.symm.trans hsome
  · exact hsound.read refresh hsome

/-- The keys of one source that a tenant has after a refresh. -/
theorem resolved_keeps {secrets : VaultSecrets} {previous : Js.Map String String}
    {refresh : Refresh} {answers : List (Except JsError (Option String))} {fspId : String}
    (hlength : (signingTenants refresh.participantKeys).length = answers.length)
    (hkeeps : refresh.Keeps secrets ((signingTenants refresh.participantKeys).zip answers) fspId)
    (hprevious : (previous.get fspId).isSome = true) :
    ((secrets.resolved previous ((signingTenants refresh.participantKeys).zip answers)).get
      fspId).isSome = true := by
  apply secrets.resolved_isSome previous hprevious
  · rw [List.map_fst_zip hlength.le]
    exact hkeeps.signing
  · exact hkeeps.value

theorem foldl_keeps (profile : KeyProfile) {secrets : VaultSecrets} {later : List Refresh}
    {fspId : String} (keys : ParticipantSigningKeysCache → Js.Map String String)
    (answers : Refresh → List (Except JsError (Option String)))
    (happly : ∀ (refresh : Refresh) (cache : ParticipantSigningKeysCache),
      keys (refresh.apply profile cache) = secrets.resolved (keys cache)
        ((signingTenants refresh.participantKeys).zip (answers refresh)))
    (hread : ∀ refresh ∈ later,
      (signingTenants refresh.participantKeys).length = (answers refresh).length)
    (hkeeps : ∀ refresh ∈ later, refresh.Keeps secrets
      ((signingTenants refresh.participantKeys).zip (answers refresh)) fspId)
    (cache : ParticipantSigningKeysCache) (hkey : ((keys cache).get fspId).isSome = true) :
    ((keys (later.foldl (Refresh.apply profile) cache)).get fspId).isSome = true := by
  induction later generalizing cache with
  | nil => exact hkey
  | cons refresh later ih =>
    apply ih (fun r hr => hread r (List.mem_cons_of_mem _ hr))
      (fun r hr => hkeeps r (List.mem_cons_of_mem _ hr))
    rw [happly]
    exact resolved_keeps (hread refresh (by simp)) (hkeeps refresh (by simp)) hkey

def sampleProfile : KeyProfile := ⟨.vault "jwskey", none⟩

def sampleKeys : List ParticipantKey := [⟨1, "payer", .self, none, none, true, none, "off"⟩]

/-- Vault cannot be read. -/
def sampleFailure : Refresh := ⟨[], sampleKeys, [.error .other], []⟩

/-- The key was read. -/
def sampleLoaded : KeyedInstance where
  memory := (Refresh.apply sampleProfile .new ⟨[], sampleKeys, [.ok (some "pem")], []⟩)
  executions := [⟨.load, [⟨.isRefreshing, false⟩, ⟨.setRefreshing true, ()⟩,
    ⟨.findAll, .ok ([], sampleKeys)⟩, ⟨.privateKeys, .empty⟩,
    ⟨.readKvField "jwskey/payer" "privateKey", .ok (some "pem")⟩, ⟨.keyRefs, .empty⟩,
    ⟨.assign ⟨[], sampleKeys, .set .empty "payer" "pem", .empty⟩, ()⟩,
    ⟨.setRefreshing false, ()⟩], .done (.ok ())⟩]

/-- The key is read by a first refresh, and not by a second one. -/
theorem refreshes_sample : ReflTransGen (Step sampleProfile) initial sampleLoaded ∧
    ∃ s', ReflTransGen (Step sampleProfile) sampleLoaded s' ∧
      refreshes s' = refreshes sampleLoaded ++ [sampleFailure] := by
  constructor
  · have hload := ReflTransGen.single (@Step.load sampleProfile initial)
    have hread := hload.tail (.answered (.only (.ok ([], sampleKeys)) rfl))
    have hloaded := hread.tail (.answered (.only (.ok (some "pem")) rfl))
    exact hloaded
  · have hload := ReflTransGen.single (@Step.load sampleProfile sampleLoaded)
    have hread := hload.tail (.answered (.second (.ok ([], sampleKeys)) rfl))
    have hfailed := hread.tail (.answered (.second (.error .other) rfl))
    exact ⟨_, hfailed, rfl⟩

end KeyedInstance
end Participant
