import Mathlib.Logic.Relation
import Pivotal.Async.EventLoop
import Pivotal.Fspiop.Errors
import Pivotal.Participant.Keys

/-! The cache that decides how a source is verified, and whether anything has been loaded into it
by the time the application serves requests. -/
namespace Participant
open Async (Event EventLoop Execution Immediate Monitor)
open Async.Program (lift perform)
open Fspiop (FspiopVerifyMode JsError)
open Relation (ReflTransGen)

/-- What one refresh has read. -/
structure Snapshot where
  participants : List ParticipantRow
  participantKeys : List ParticipantKey
  privateKeys : Js.Map String String
  keyRefs : Js.Map String String

namespace Snapshot

/-- The rows whose identifier is not blank, one after the other, under their trimmed identifiers. -/
def collect {α β : Type} (rows : List α) (fspId : α → String) (value : α → Option β) :
    Js.Map String β :=
  rows.foldl (fun m row =>
    if Js.trim (fspId row) = "" then m
    else match value row with
      | some v => m.set (Js.trim (fspId row)) v
      | none => m) .empty

def accessPublicKeys (s : Snapshot) : Js.Map String String :=
  collect s.participants ParticipantRow.name fun p => normalizePem p.accessPublicKey

def publicKeys (s : Snapshot) : Js.Map String String :=
  collect s.participantKeys ParticipantKey.fspId fun k => normalizePem k.jwsPublicKey

def signEnabled (s : Snapshot) : Js.Map String Bool :=
  collect s.participantKeys ParticipantKey.fspId fun k => some k.jwsSignEnabled

def verifyMode (s : Snapshot) : Js.Map String FspiopVerifyMode :=
  collect s.participantKeys ParticipantKey.fspId fun k =>
    some (FspiopVerifyMode.parse (some k.jwsVerifyMode) .off)

end Snapshot

/-- The fields of the cache. -/
structure ParticipantSigningKeysCache where
  publicKeysByFspId : Js.Map String String
  privateKeysByFspId : Js.Map String String
  keyRefsByFspId : Js.Map String String
  accessPublicKeysByFspId : Js.Map String String
  signEnabledByFspId : Js.Map String Bool
  verifyModeByFspId : Js.Map String FspiopVerifyMode
  isRefreshing : Bool

namespace ParticipantSigningKeysCache

def new : ParticipantSigningKeysCache := ⟨.empty, .empty, .empty, .empty, .empty, .empty, false⟩

variable (cache : ParticipantSigningKeysCache)

def getPublicKeyPem (fspId : String) : Option String := cache.publicKeysByFspId.get fspId

def getPrivateKeyPem (fspId : String) : Option String := cache.privateKeysByFspId.get fspId

def getKeyRef (fspId : String) : Option String := cache.keyRefsByFspId.get fspId

def getAccessPublicKeyPem (fspId : String) : Option String := cache.accessPublicKeysByFspId.get fspId

def isSignEnabled (fspId : String) : Bool := cache.signEnabledByFspId.get fspId = some true

def getVerifyMode (fspId : String) : Option FspiopVerifyMode := cache.verifyModeByFspId.get fspId

/-- The six fields are replaced together. -/
def assign (s : Snapshot) : ParticipantSigningKeysCache where
  publicKeysByFspId := s.publicKeys
  privateKeysByFspId := s.privateKeys
  keyRefsByFspId := s.keyRefs
  accessPublicKeysByFspId := s.accessPublicKeys
  signEnabledByFspId := s.signEnabled
  verifyModeByFspId := s.verifyMode
  isRefreshing := cache.isRefreshing

end ParticipantSigningKeysCache

namespace ParticipantJwsPolicyStore

def signEnabled (cache : ParticipantSigningKeysCache) (fspId : String) : Bool :=
  cache.isSignEnabled fspId

def verifyMode (cache : ParticipantSigningKeysCache) (defaultVerifyMode : FspiopVerifyMode)
    (fspId : String) : FspiopVerifyMode := (cache.getVerifyMode fspId).getD defaultVerifyMode

end ParticipantJwsPolicyStore

/-- What a refresh does at once with the fields, and what it awaits: both tables (`findAll`), and
the two key sources, which are given what was loaded before. -/
inductive CacheOp where
  | isRefreshing
  | setRefreshing (value : Bool)
  | privateKeys
  | keyRefs
  | assign (s : Snapshot)
  | findAll
  | resolvePrivateKeys (participantKeys : List ParticipantKey) (previous : Js.Map String String)
  | resolveKeyRefs (participantKeys : List ParticipantKey) (previous : Js.Map String String)

@[reducible] def CacheAnswer : CacheOp → Type
  | .isRefreshing => Bool
  | .setRefreshing _ => Unit
  | .privateKeys => Js.Map String String
  | .keyRefs => Js.Map String String
  | .assign _ => Unit
  | .findAll => Except JsError (List ParticipantRow × List ParticipantKey)
  | .resolvePrivateKeys _ _ => Except JsError (Js.Map String String)
  | .resolveKeyRefs _ _ => Except JsError (Js.Map String String)

abbrev CacheProgram := Async.Program CacheOp CacheAnswer JsError

/-- The fields are in memory; the rest is awaited. -/
def atOnce : Immediate CacheOp CacheAnswer ParticipantSigningKeysCache
  | cache, .isRefreshing => some (cache.isRefreshing, cache)
  | cache, .setRefreshing value => some ((), { cache with isRefreshing := value })
  | cache, .privateKeys => some (cache.privateKeysByFspId, cache)
  | cache, .keyRefs => some (cache.keyRefsByFspId, cache)
  | cache, .assign s => some ((), cache.assign s)
  | _, .findAll => none
  | _, .resolvePrivateKeys _ _ => none
  | _, .resolveKeyRefs _ _ => none

namespace ParticipantSigningKeysCache

/-- The `try` block; `keyRefSource` says whether the profile has one. -/
def reload (keyRefSource : Bool) : CacheProgram Unit := do
  let (participants, participantKeys) ← lift (← perform .findAll)
  let privateKeys ← lift
    (← perform (.resolvePrivateKeys participantKeys (← perform .privateKeys)))
  let previous ← perform .keyRefs
  let keyRefs ← if keyRefSource then
      lift (← perform (.resolveKeyRefs participantKeys previous))
    else
      pure previous
  perform (CacheOp.assign ⟨participants, participantKeys, privateKeys, keyRefs⟩)

def refreshParticipantSigningKeys (keyRefSource : Bool) : CacheProgram Unit := do
  if ← perform .isRefreshing then
    return
  perform (CacheOp.setRefreshing true)
  Async.Program.tryFinally (reload keyRefSource) (perform (CacheOp.setRefreshing false))

def refreshSafely (keyRefSource : Bool) : CacheProgram Unit :=
  tryCatch (refreshParticipantSigningKeys keyRefSource) fun _ => pure ()

end ParticipantSigningKeysCache

/-- Who called a refresh. -/
inductive Caller where
  | load
  | onModuleInit
  deriving DecidableEq

/-- One process of an application: the cache, and the refreshes under way. -/
abbrev Instance := EventLoop Caller CacheOp CacheAnswer JsError Unit ParticipantSigningKeysCache

namespace Instance

open ParticipantSigningKeysCache (refreshParticipantSigningKeys refreshSafely)

def initial : Instance := ⟨.new, []⟩

variable (keyRefSource : Bool)

/-- `load`, and a tick of its timer. -/
def load (s : Instance) : Instance := s.start atOnce .load (refreshSafely keyRefSource)

def onModuleInit (s : Instance) : Instance :=
  (load keyRefSource s).start atOnce .onModuleInit (refreshParticipantSigningKeys keyRefSource)

/-- Anyone may call `load` at any time; reads are answered in any order. -/
inductive Step : Instance → Instance → Prop
  | load (s : Instance) : Step s (load keyRefSource s)
  | onModuleInit (s : Instance) : Step s (onModuleInit keyRefSource s)
  | answered {s s' : Instance} : EventLoop.Answered atOnce s s' → Step s s'

/-- `onModuleInit` has resolved. -/
def Resolved (s : Instance) : Prop :=
  ∃ e ∈ s.executions, e.tag = .onModuleInit ∧ e.program = .done (.ok ())

/-- A refresh has read the snapshot, and has run to the assignment of the fields. -/
def Loaded (s : Instance) (snapshot : Snapshot) : Prop :=
  ∃ e ∈ s.executions, ⟨.assign snapshot, ()⟩ ∈ e.trace ∧
    ⟨.findAll, .ok (snapshot.participants, snapshot.participantKeys)⟩ ∈ e.trace

/-- All that the cache returns is what the snapshot says. -/
structure ServedFrom (cache : ParticipantSigningKeysCache) (s : Snapshot) : Prop where
  publicKey : ∀ fspId, cache.getPublicKeyPem fspId = s.publicKeys.get fspId
  privateKey : ∀ fspId, cache.getPrivateKeyPem fspId = s.privateKeys.get fspId
  keyRef : ∀ fspId, cache.getKeyRef fspId = s.keyRefs.get fspId
  accessPublicKey : ∀ fspId, cache.getAccessPublicKeyPem fspId = s.accessPublicKeys.get fspId
  sign : ∀ fspId, ParticipantJwsPolicyStore.signEnabled cache fspId =
    (s.signEnabled.get fspId = some true : Bool)
  verify : ∀ defaultVerifyMode fspId,
    ParticipantJwsPolicyStore.verifyMode cache defaultVerifyMode fspId =
      (s.verifyMode.get fspId).getD defaultVerifyMode

/-- What the cache returns comes from a registry that was loaded. -/
def FromSnapshot (s : Instance) : Prop :=
  ∃ snapshot, Loaded s snapshot ∧ ServedFrom s.memory snapshot

/-! What a refresh has read before it assigns the fields. -/

/-- The fields are assigned from what was read. -/
def reads : Monitor CacheOp CacheAnswer (List (Event CacheOp CacheAnswer)) where
  next t op a := t ++ [⟨op, a⟩]
  allows t
    | .assign s => ⟨.findAll, .ok (s.participants, s.participantKeys)⟩ ∈ t
    | _ => True

variable {keyRefSource} in
theorem obeys_refresh (t : List (Event CacheOp CacheAnswer)) :
    (refreshParticipantSigningKeys keyRefSource).Obeys reads t fun _ _ => True := by
  refine ⟨trivial, fun refreshing => ?_⟩
  cases refreshing with
  | true => trivial
  | false =>
    refine ⟨trivial, fun _ => ?_⟩
    refine ⟨trivial, fun found => ?_⟩
    rcases found with e | ⟨participants, participantKeys⟩
    · exact ⟨trivial, fun _ => trivial⟩
    refine ⟨trivial, fun previous => ⟨trivial, fun resolved => ?_⟩⟩
    rcases resolved with e | privateKeys
    · exact ⟨trivial, fun _ => trivial⟩
    refine ⟨trivial, fun previous => ?_⟩
    cases keyRefSource with
    | true =>
      refine ⟨trivial, fun resolved => ?_⟩
      rcases resolved with e | keyRefs
      · exact ⟨trivial, fun _ => trivial⟩
      · exact ⟨by simp [reads], fun _ => ⟨trivial, fun _ => trivial⟩⟩
    | false => exact ⟨by simp [reads], fun _ => ⟨trivial, fun _ => trivial⟩⟩

variable {keyRefSource}

theorem obeys_refreshSafely (t : List (Event CacheOp CacheAnswer)) :
    (refreshSafely keyRefSource).Obeys reads t fun _ _ => True := by
  rw [refreshSafely, Async.Program.obeys_tryCatch]
  apply (obeys_refresh t).mono
  rintro t (e | ⟨⟩) -
  · trivial
  · trivial

/-- The fields are those of a snapshot that was loaded, or no refresh has assigned any. -/
def Served (s : Instance) : Prop :=
  (∃ snapshot, Loaded s snapshot ∧ s.memory.assign snapshot = s.memory) ∨
    ∀ e ∈ s.executions, ∀ snapshot, ⟨.assign snapshot, ()⟩ ∉ e.trace

structure Consistent (s : Instance) : Prop where
  obeys : ∀ e ∈ s.executions, e.program.Obeys reads e.trace fun _ _ => True
  served : Served s

theorem consistent_initial : Consistent initial := by
  constructor
  · rintro e ⟨⟩
  · right
    rintro e ⟨⟩

section Calls

variable {m m' : ParticipantSigningKeysCache}
  {before after : List (Execution Caller CacheOp CacheAnswer JsError Unit)} {tag : Caller}
  {t : List (Event CacheOp CacheAnswer)} {op : CacheOp} {a : CacheAnswer op}
  {k : CacheAnswer op → CacheProgram Unit} {p : CacheProgram Unit} {snapshot : Snapshot}

theorem mem_replaced {e : Execution Caller CacheOp CacheAnswer JsError Unit} :
    e ∈ before ++ ⟨tag, t, p⟩ :: after ↔ e = ⟨tag, t, p⟩ ∨ e ∈ before ∨ e ∈ after := by
  rw [List.mem_append, List.mem_cons, or_left_comm]

theorem obeys_call (h : Consistent ⟨m, before ++ ⟨tag, t, .call op k⟩ :: after⟩) :
    reads.allows t op ∧ ∀ e ∈ before ++ ⟨tag, t ++ [⟨op, a⟩], k a⟩ :: after,
      e.program.Obeys reads e.trace fun _ _ => True := by
  obtain ⟨hallows, hresume⟩ := h.obeys ⟨tag, t, .call op k⟩ (mem_replaced.mpr (.inl rfl))
  refine ⟨hallows, ?_⟩
  intro e he
  rcases mem_replaced.mp he with rfl | he
  · exact hresume a
  · exact h.obeys e (mem_replaced.mpr (.inr he))

theorem Loaded.call (h : Loaded ⟨m, before ++ ⟨tag, t, .call op k⟩ :: after⟩ snapshot) :
    Loaded ⟨m', before ++ ⟨tag, t ++ [⟨op, a⟩], k a⟩ :: after⟩ snapshot := by
  obtain ⟨e, he, hassigned, hfound⟩ := h
  rcases mem_replaced.mp he with rfl | he
  · exact ⟨_, mem_replaced.mpr (.inl rfl), List.mem_append_left _ hassigned,
      List.mem_append_left _ hfound⟩
  · exact ⟨e, mem_replaced.mpr (.inr he), hassigned, hfound⟩

/-- A call that is no assignment, and that leaves the six fields as they are. -/
theorem Served.call (h : Served ⟨m, before ++ ⟨tag, t, .call op k⟩ :: after⟩)
    (hop : ∀ snapshot, op ≠ .assign snapshot)
    (hm : ∀ snapshot, m.assign snapshot = m → m'.assign snapshot = m') :
    Served ⟨m', before ++ ⟨tag, t ++ [⟨op, a⟩], k a⟩ :: after⟩ := by
  rcases h with ⟨snapshot, hloaded, hsame⟩ | hnone
  · exact .inl ⟨snapshot, hloaded.call, hm snapshot hsame⟩
  · right
    intro e he snapshot hassigned
    rcases mem_replaced.mp he with rfl | he
    · rcases List.mem_append.mp hassigned with hold | hnew
      · exact hnone _ (mem_replaced.mpr (.inl rfl)) snapshot hold
      · have hsame := List.mem_singleton.mp hnew
        exact hop snapshot (congrArg Event.op hsame).symm
    · exact hnone e (mem_replaced.mpr (.inr he)) snapshot hassigned

end Calls

theorem consistent_invariant : EventLoop.Invariant atOnce Consistent := by
  constructor
  · intro m m' before after tag t op k a hnow h
    obtain ⟨hallows, hobeys⟩ := obeys_call (a := a) h
    refine ⟨hobeys, ?_⟩
    cases op with
    | assign snapshot =>
      obtain ⟨⟩ := hnow
      left
      refine ⟨snapshot, ⟨_, mem_replaced.mpr (.inl rfl), ?_, ?_⟩, rfl⟩
      · exact List.mem_append_right _ (List.mem_singleton.mpr rfl)
      · exact List.mem_append_left _ hallows
    | setRefreshing value =>
      obtain ⟨⟩ := hnow
      apply h.served.call
      · rintro snapshot ⟨⟩
      · intro snapshot hsame
        rw [← hsame]
        rfl
    | isRefreshing | privateKeys | keyRefs =>
      obtain ⟨⟩ := hnow
      apply h.served.call
      · rintro snapshot ⟨⟩
      · exact fun _ hsame => hsame
    | findAll | resolvePrivateKeys _ _ | resolveKeyRefs _ _ => cases hnow
  · intro m before after tag t op k a hnow h
    refine ⟨(obeys_call h).2, ?_⟩
    apply h.served.call
    · rintro snapshot rfl
      cases hnow
    · exact fun _ hsame => hsame

theorem Consistent.start {s : Instance} (h : Consistent s) (tag : Caller) {p : CacheProgram Unit}
    (hp : p.Obeys reads [] fun _ _ => True) : Consistent (s.start atOnce tag p) := by
  apply consistent_invariant.start
  constructor
  · intro e he
    rcases List.mem_append.mp he with he | he
    · exact h.obeys e he
    · rw [List.mem_singleton.mp he]
      exact hp
  · rcases h.served with ⟨snapshot, ⟨e, he, hread⟩, hsame⟩ | hnone
    · exact .inl ⟨snapshot, ⟨e, List.mem_append_left _ he, hread⟩, hsame⟩
    · right
      intro e he
      rcases List.mem_append.mp he with he | he
      · exact hnone e he
      · rw [List.mem_singleton.mp he]
        rintro snapshot ⟨⟩

theorem Consistent.step {s s' : Instance} (h : Consistent s) (hs : Step keyRefSource s s') :
    Consistent s' := by
  cases hs with
  | load => exact h.start _ (obeys_refreshSafely [])
  | onModuleInit => exact (h.start _ (obeys_refreshSafely [])).start _ (obeys_refresh [])
  | answered hl => exact consistent_invariant.answered h hl

theorem Consistent.run {s s' : Instance} (h : Consistent s)
    (hs : ReflTransGen (Step keyRefSource) s s') : Consistent s' := by
  induction hs with
  | refl => exact h
  | tail _ hstep ih => exact ih.step hstep

theorem loaded_invariant (snapshot : Snapshot) :
    EventLoop.Invariant atOnce fun s => Loaded s snapshot :=
  ⟨fun _ h => h.call, fun _ _ h => h.call⟩

theorem Loaded.start {s : Instance} {snapshot : Snapshot} (h : Loaded s snapshot) (tag : Caller)
    (p : CacheProgram Unit) : Loaded (s.start atOnce tag p) snapshot := by
  apply (loaded_invariant snapshot).start
  obtain ⟨e, he, hread⟩ := h
  exact ⟨e, List.mem_append_left _ he, hread⟩

theorem Loaded.run {s s' : Instance} {snapshot : Snapshot} (h : Loaded s snapshot)
    (hs : ReflTransGen (Step keyRefSource) s s') : Loaded s' snapshot := by
  induction hs with
  | refl => exact h
  | tail _ hstep ih =>
    cases hstep with
    | load => exact ih.start _ _
    | onModuleInit => exact (ih.start _ _).start _ _
    | answered hl => exact (loaded_invariant snapshot).answered ih hl

variable (keyRefSource) in
theorem turn_refresh {m : ParticipantSigningKeysCache} (h : m.isRefreshing = true) :
    (refreshParticipantSigningKeys keyRefSource).turn atOnce [] m =
      (.done (.ok ()), [⟨.isRefreshing, true⟩], m) := by
  change Async.Program.turn atOnce (.call .isRefreshing _) [] m = _
  simp only [Async.Program.turn, atOnce, h]
  rfl

variable (keyRefSource) in
theorem turn_refreshSafely (m : ParticipantSigningKeysCache) :
    ((refreshSafely keyRefSource).turn atOnce [] m).2.2.isRefreshing = true ∧
      ∀ snapshot, ⟨.assign snapshot, ()⟩ ∉ ((refreshSafely keyRefSource).turn atOnce [] m).2.1 := by
  have hcall : refreshSafely keyRefSource = .call .isRefreshing _ := rfl
  cases h : m.isRefreshing with
  | true =>
    simp only [hcall, Async.Program.turn, atOnce, h]
    constructor
    · exact h
    · rintro snapshot hmem
      cases List.mem_singleton.mp hmem
  | false =>
    simp only [hcall, Async.Program.turn, atOnce, h]
    constructor
    · rfl
    · intro snapshot hmem
      rcases List.mem_cons.mp hmem with hmem | hmem
      · cases hmem
      · cases List.mem_singleton.mp hmem

/-- `onModuleInit` has resolved once it is called: the refresh it waits for finds the one that
`load` has just started, and returns. -/
theorem resolved_onModuleInit (s : Instance) : Resolved (onModuleInit keyRefSource s) := by
  have hturn := turn_refresh keyRefSource (turn_refreshSafely keyRefSource s.memory).1
  refine ⟨⟨.onModuleInit, [⟨.isRefreshing, true⟩], .done (.ok ())⟩, ?_, rfl, rfl⟩
  simp only [onModuleInit, EventLoop.start, EventLoop.resume]
  apply List.mem_append_right
  simp only [load, EventLoop.start, EventLoop.resume, hturn, List.mem_singleton]

theorem loaded_of_onModuleInit {s : Instance} {snapshot : Snapshot}
    (h : Loaded (onModuleInit keyRefSource s) snapshot) : Loaded s snapshot := by
  obtain ⟨e, he, hassigned, hfound⟩ := h
  have hturn := turn_refresh keyRefSource (turn_refreshSafely keyRefSource s.memory).1
  simp only [onModuleInit, load, EventLoop.start, EventLoop.resume, hturn, List.append_assoc,
    List.mem_append, List.mem_singleton] at he
  rcases he with he | rfl | rfl
  · exact ⟨e, he, hassigned, hfound⟩
  · exact absurd hassigned ((turn_refreshSafely keyRefSource s.memory).2 snapshot)
  · cases List.mem_singleton.mp hassigned

theorem served_of_assign {cache : ParticipantSigningKeysCache} {s : Snapshot}
    (h : cache.assign s = cache) : ServedFrom cache s := by
  rw [← h]
  constructor
  · exact fun fspId => rfl
  · exact fun fspId => rfl
  · exact fun fspId => rfl
  · exact fun fspId => rfl
  · exact fun fspId => rfl
  · exact fun defaultVerifyMode fspId => rfl

/-- `onModuleInit` resolves at once, and all that the cache returns from then on comes from a
registry that was loaded if, and only if, one had been loaded before it was called. -/
theorem served_after_init {s : Instance} (h : ReflTransGen (Step keyRefSource) initial s) :
    Resolved (onModuleInit keyRefSource s) ∧
      ((∀ s', ReflTransGen (Step keyRefSource) (onModuleInit keyRefSource s) s' →
        FromSnapshot s') ↔ ∃ snapshot, Loaded s snapshot) := by
  refine ⟨resolved_onModuleInit s, ?_⟩
  constructor
  · intro hall
    obtain ⟨snapshot, hloaded, -⟩ := hall _ .refl
    exact ⟨snapshot, loaded_of_onModuleInit hloaded⟩
  · rintro ⟨snapshot, hloaded⟩ s' hs'
    have hrun := ReflTransGen.head (.onModuleInit s) hs'
    rcases ((consistent_initial.run h).run hrun).served with ⟨snapshot', hread, hsame⟩ | hnone
    · exact ⟨snapshot', hread, served_of_assign hsame⟩
    · obtain ⟨e, he, hassigned, -⟩ := hloaded.run hrun
      exact absurd hassigned (hnone e he snapshot)

/-! A registry with one row. -/

def sampleSnapshot : Snapshot :=
  ⟨[], [⟨1, "payer", .peer, some "pem", none, false, none, "require"⟩], .empty, .empty⟩

theorem loaded_sample : ∃ s, ReflTransGen (Step false) initial s ∧ Loaded s sampleSnapshot := by
  have hread := (ReflTransGen.single (@Step.load false initial)).tail
    (.answered (.only (.ok ([], sampleSnapshot.participantKeys)) rfl))
  have hloaded := hread.tail (.answered (.only (.ok .empty) rfl))
  refine ⟨_, hloaded, _, List.mem_singleton.mpr rfl, ?_, ?_⟩
  · exact .tail _ (.tail _ (.tail _ (.tail _ (.tail _ (.tail _ (.head _))))))
  · exact .tail _ (.tail _ (.head _))

/-- `load` is called, and runs to its end, before `onModuleInit` is. -/
theorem served_after_init_sample : ∃ s, Loaded s sampleSnapshot ∧
    Resolved (onModuleInit false s) ∧
    ∀ s', ReflTransGen (Step false) (onModuleInit false s) s' → FromSnapshot s' := by
  obtain ⟨s, hrun, hloaded⟩ := loaded_sample
  obtain ⟨hresolved, hserved⟩ := served_after_init hrun
  exact ⟨s, hloaded, hresolved, hserved.mpr ⟨_, hloaded⟩⟩

/-- `onModuleInit` is called first. -/
theorem not_served_after_init : ¬ ∀ s, ReflTransGen (Step false) initial s → Resolved s →
    FromSnapshot s := by
  intro h
  have hinit := ReflTransGen.single (@Step.onModuleInit false initial)
  obtain ⟨snapshot, hloaded, -⟩ := h _ hinit (resolved_onModuleInit initial)
  obtain ⟨e, he, -⟩ := loaded_of_onModuleInit hloaded
  cases he

end Instance

end Participant
