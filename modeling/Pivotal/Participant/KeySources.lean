import Pivotal.Async.Interpret
import Pivotal.Participant.KeyCache

/-! Where the cache of keys has them from. A refresh awaits both tables and then, for each tenant
that signs, the store that holds its key; what cannot be read is carried forward from what was
loaded before. -/
namespace Participant
open Async.Program (comesTo_call comesTo_done comesTo_perform lift perform ComesTo)
open Fspiop (JsError)

/-- What a refresh does at once with the fields of the cache, and what it awaits: both tables, and
a field of a secret of Vault. -/
inductive RefreshOp where
  | isRefreshing
  | setRefreshing (value : Bool)
  | privateKeys
  | keyRefs
  | assign (s : Snapshot)
  | findAll
  | readKvField (path field : String)

/-- Nothing is the answer where there is no secret, or no text in its field. -/
@[reducible] def RefreshAnswer : RefreshOp → Type
  | .isRefreshing => Bool
  | .setRefreshing _ => Unit
  | .privateKeys => Js.Map String String
  | .keyRefs => Js.Map String String
  | .assign _ => Unit
  | .findAll => Except JsError (List ParticipantRow × List ParticipantKey)
  | .readKvField _ _ => Except JsError (Option String)

abbrev RefreshProgram := Async.Program RefreshOp RefreshAnswer JsError

abbrev RefreshEvent := Async.Event RefreshOp RefreshAnswer

def VaultClient.readKvField (path field : String) : RefreshProgram (Option String) := do
  lift (← perform (.readKvField path field))

def isSigningTenant (participantKey : ParticipantKey) : Bool :=
  participantKey.role = .self && participantKey.jwsSignEnabled && Js.trim participantKey.fspId ≠ ""

/-- The secrets that a source reads: one for each tenant, all with one field. `text` is what the
source makes of the value, if it is not blank. -/
structure VaultSecrets where
  pathPrefix : String
  field : String
  text : String → Option String

namespace VaultSecrets

variable (secrets : VaultSecrets) (previous : Js.Map String String)

def path (fspId : String) : String := s!"{secrets.pathPrefix}/{fspId}"

/-- The body of the loop over the rows, for a tenant that signs. -/
def read (keys : Js.Map String String) (fspId : String) : RefreshProgram (Js.Map String String) :=
  tryCatch (do
      match ← VaultClient.readKvField (secrets.path fspId) secrets.field with
      | none => pure keys
      | some value =>
        match secrets.text value with
        | none => pure keys
        | some text => pure (keys.set fspId text))
    fun _ =>
      match previous.get fspId with
      | none => pure keys
      | some carried => pure (keys.set fspId carried)

def resolve : List ParticipantKey → Js.Map String String → RefreshProgram (Js.Map String String)
  | [], keys => pure keys
  | participantKey :: participantKeys, keys =>
    if isSigningTenant participantKey then do
      resolve participantKeys (← secrets.read previous keys (Js.trim participantKey.fspId))
    else resolve participantKeys keys

end VaultSecrets

/-- What a tenant signs with is the text of the secret, with its newlines. -/
def VaultJwsPrivateKeySource (jwsKeyPathPrefix : String) : VaultSecrets where
  pathPrefix := jwsKeyPathPrefix
  field := "privateKey"
  text pem := normalizePem (some pem)

/-- A reference is trimmed. -/
def VaultJwsKeyRefSource (keyRefPathPrefix : String) : VaultSecrets where
  pathPrefix := keyRefPathPrefix
  field := "keyRef"
  text keyRef := if Js.trim keyRef = "" then none else some (Js.trim keyRef)

/-- The source of a profile. -/
inductive JwsPrivateKeySource where
  | database
  | vault (jwsKeyPathPrefix : String)
  | deviceHeld
  | none
  deriving DecidableEq

/-- The private keys of the rows. -/
def DatabaseJwsPrivateKeySource.resolve (participantKeys : List ParticipantKey) :
    Js.Map String String :=
  participantKeys.foldl (fun keys participantKey =>
    if isSigningTenant participantKey then
      match normalizePem participantKey.jwsPrivateKey with
      | some pem => keys.set (Js.trim participantKey.fspId) pem
      | none => keys
    else keys) .empty

def JwsPrivateKeySource.resolve (source : JwsPrivateKeySource)
    (participantKeys : List ParticipantKey) (previous : Js.Map String String) :
    RefreshProgram (Js.Map String String) :=
  match source with
  | .database => pure (DatabaseJwsPrivateKeySource.resolve participantKeys)
  | .vault jwsKeyPathPrefix =>
    (VaultJwsPrivateKeySource jwsKeyPathPrefix).resolve previous participantKeys .empty
  | .deviceHeld => pure .empty
  | .none => pure .empty

/-- The cache and its two sources; a profile without references has no second one. -/
structure KeyProfile where
  privateKeySource : JwsPrivateKeySource
  /-- The prefix of the paths of the references. -/
  keyRefSource : Option String

namespace KeyProfile

variable (profile : KeyProfile)

def resolveKeyRefs (participantKeys : List ParticipantKey) (previous : Js.Map String String) :
    RefreshProgram (Js.Map String String) :=
  match profile.keyRefSource with
  | none => pure previous
  | some keyRefPathPrefix =>
    (VaultJwsKeyRefSource keyRefPathPrefix).resolve previous participantKeys .empty

/-- From the private keys on. -/
def assignKeys (participants : List ParticipantRow) (participantKeys : List ParticipantKey)
    (privateKeys : Js.Map String String) : RefreshProgram Unit := do
  let keyRefs ← profile.resolveKeyRefs participantKeys (← perform .keyRefs)
  perform (RefreshOp.assign ⟨participants, participantKeys, privateKeys, keyRefs⟩)

/-- From both tables on. -/
def resolveKeys (participants : List ParticipantRow) (participantKeys : List ParticipantKey) :
    RefreshProgram Unit := do
  let privateKeys ← profile.privateKeySource.resolve participantKeys (← perform .privateKeys)
  profile.assignKeys participants participantKeys privateKeys

/-- The `try` block. -/
def reload : RefreshProgram Unit := do
  let (participants, participantKeys) ← lift (← perform .findAll)
  profile.resolveKeys participants participantKeys

def refreshParticipantSigningKeys : RefreshProgram Unit := do
  if ← perform .isRefreshing then
    return
  perform (RefreshOp.setRefreshing true)
  Async.Program.tryFinally profile.reload (perform (RefreshOp.setRefreshing false))

def refreshSafely : RefreshProgram Unit :=
  tryCatch profile.refreshParticipantSigningKeys fun _ => pure ()

/-- What a refresh awaits of its two sources is what the sources await. -/
def awaited : Unit → (op : CacheOp) → RefreshProgram (CacheAnswer op × Unit)
  | _, .isRefreshing => .call .isRefreshing fun a => .done (.ok (a, ()))
  | _, .setRefreshing value => .call (.setRefreshing value) fun a => .done (.ok (a, ()))
  | _, .privateKeys => .call .privateKeys fun a => .done (.ok (a, ()))
  | _, .keyRefs => .call .keyRefs fun a => .done (.ok (a, ()))
  | _, .assign s => .call (.assign s) fun a => .done (.ok (a, ()))
  | _, .findAll => .call .findAll fun a => .done (.ok (a, ()))
  | _, .resolvePrivateKeys participantKeys previous =>
    (profile.privateKeySource.resolve participantKeys previous).settle fun r => .done (.ok (r, ()))
  | _, .resolveKeyRefs participantKeys previous =>
    (profile.resolveKeyRefs participantKeys previous).settle fun r => .done (.ok (r, ()))

/-- The `try` block, with the awaits of the sources in it. -/
theorem comesTo_reload : ComesTo profile.awaited (fun _ => True)
    (ParticipantSigningKeysCache.reload profile.keyRefSource.isSome) profile.reload := by
  have hassign : ∀ s, ComesTo profile.awaited (fun _ => True) (perform (CacheOp.assign s))
      (perform (RefreshOp.assign s)) :=
    fun _ => comesTo_perform id (fun _ _ => rfl) fun _ => comesTo_done _
  refine comesTo_perform id (fun _ _ => rfl) ?_
  rintro (e | ⟨participants, participantKeys⟩)
  · exact comesTo_done _
  refine comesTo_perform id (fun _ _ => rfl) fun previous => ?_
  refine comesTo_call (q := profile.privateKeySource.resolve participantKeys previous) id
    (fun s _ => s) (fun _ _ => rfl) (fun _ _ _ => trivial) ?_
  rintro (e | privateKeys)
  · exact comesTo_done _
  refine comesTo_perform id (fun _ _ => rfl) fun previous => ?_
  obtain ⟨source, keyRefSource⟩ := profile
  cases keyRefSource with
  | none => exact hassign _
  | some keyRefPathPrefix =>
    refine comesTo_call (q := resolveKeyRefs ⟨source, keyRefPathPrefix⟩ participantKeys previous) id
      (fun s _ => s) (fun _ _ => rfl) (fun _ _ _ => trivial) ?_
    rintro (e | keyRefs)
    · exact comesTo_done _
    · exact hassign _

theorem comesTo_refresh : ComesTo profile.awaited (fun _ => True)
    (ParticipantSigningKeysCache.refreshParticipantSigningKeys profile.keyRefSource.isSome)
    profile.refreshParticipantSigningKeys := by
  refine comesTo_perform id (fun _ _ => rfl) ?_
  rintro (_ | _)
  · refine comesTo_perform id (fun _ _ => rfl) fun _ => ?_
    refine (comesTo_reload profile).tryFinally ?_
    exact comesTo_perform id (fun _ _ => rfl) fun _ => comesTo_done _
  · exact comesTo_done _

/-- A refresh by its sources is the refresh of the cache, with their awaits for its own. -/
theorem interpret_refreshSafely :
    (ParticipantSigningKeysCache.refreshSafely profile.keyRefSource.isSome).interpret
      profile.awaited () = profile.refreshSafely :=
  ComesTo.interpret ((comesTo_refresh profile).tryCatch fun _ => comesTo_done _) trivial

end KeyProfile

/-! What a refresh loads, by what it was answered. -/

/-- The tenants that sign, row after row. -/
def signingTenants (participantKeys : List ParticipantKey) : List String :=
  (participantKeys.filter isSigningTenant).map fun participantKey => Js.trim participantKey.fspId

namespace VaultSecrets

variable (secrets : VaultSecrets) (previous : Js.Map String String)

/-- The keys after the answer for a tenant. -/
def outcome (keys : Js.Map String String) (fspId : String) :
    Except JsError (Option String) → Js.Map String String
  | .ok value =>
    match value.bind secrets.text with
    | none => keys
    | some text => keys.set fspId text
  | .error _ =>
    match previous.get fspId with
    | none => keys
    | some carried => keys.set fspId carried

/-- The keys after the answers for tenants, one after the other. -/
def resolved (reads : List (String × Except JsError (Option String))) : Js.Map String String :=
  reads.foldl (fun keys read => secrets.outcome previous keys read.1 read.2) .empty

/-- The read of one tenant after the other. -/
def readEach : List String → Js.Map String String → RefreshProgram (Js.Map String String)
  | [], keys => pure keys
  | fspId :: fspIds, keys =>
    .call (.readKvField (secrets.path fspId) secrets.field) fun answer =>
      readEach fspIds (secrets.outcome previous keys fspId answer)

theorem read_eq (keys : Js.Map String String) (fspId : String) :
    secrets.read previous keys fspId =
      .call (.readKvField (secrets.path fspId) secrets.field) fun answer =>
        pure (secrets.outcome previous keys fspId answer) := by
  have hread : secrets.read previous keys fspId =
      .call (.readKvField (secrets.path fspId) secrets.field) _ := rfl
  rw [hread]
  congr 1
  funext answer
  cases answer with
  | error e =>
    cases hprevious : previous.get fspId with
    | none =>
      simp only [outcome, hprevious]
      rfl
    | some carried =>
      simp only [outcome, hprevious]
      rfl
  | ok value =>
    cases value with
    | none => rfl
    | some value =>
      change Async.Program.settle (match secrets.text value with
        | none => pure keys
        | some text => pure (keys.set fspId text)) _ = _
      cases htext : secrets.text value with
      | none =>
        simp only [outcome, Option.bind_some, htext]
        rfl
      | some text =>
        simp only [outcome, Option.bind_some, htext]
        rfl

theorem resolve_eq (participantKeys : List ParticipantKey) (keys : Js.Map String String) :
    secrets.resolve previous participantKeys keys =
      secrets.readEach previous (signingTenants participantKeys) keys := by
  induction participantKeys generalizing keys with
  | nil => rfl
  | cons participantKey participantKeys ih =>
    unfold resolve
    split
    · rename_i hsigning
      have htenants : signingTenants (participantKey :: participantKeys) =
          Js.trim participantKey.fspId :: signingTenants participantKeys := by
        simp [signingTenants, hsigning]
      rw [htenants, read_eq]
      change Async.Program.call _ _ = Async.Program.call _ _
      congr 1
      funext answer
      exact ih _
    · rename_i hsigning
      have htenants : signingTenants (participantKey :: participantKeys) =
          signingTenants participantKeys := by
        simp [signingTenants, hsigning]
      rw [htenants]
      exact ih keys

theorem get_outcome_of_ne {fspId fspId' : String} (h : fspId ≠ fspId') (keys : Js.Map String String)
    (answer : Except JsError (Option String)) :
    (secrets.outcome previous keys fspId' answer).get fspId = keys.get fspId := by
  have hset (text : String) : (keys.set fspId' text).get fspId = keys.get fspId := by
    rw [Js.Map.get_set, if_neg h]
  cases answer with
  | ok value => cases htext : value.bind secrets.text <;> simp [outcome, htext, hset]
  | error e => cases hprevious : previous.get fspId' <;> simp [outcome, hprevious, hset]

theorem resolved_append (reads : List (String × Except JsError (Option String)))
    (read : String × Except JsError (Option String)) :
    secrets.resolved previous (reads ++ [read]) =
      secrets.outcome previous (secrets.resolved previous reads) read.1 read.2 := by
  simp [resolved]

/-- A tenant has a key after an answer that is one, and after a failure if it had one before. -/
theorem outcome_self_isSome {fspId : String} (hprevious : (previous.get fspId).isSome = true)
    (keys : Js.Map String String) {answer : Except JsError (Option String)}
    (hanswer : ∀ value, answer = .ok value → (value.bind secrets.text).isSome = true) :
    ((secrets.outcome previous keys fspId answer).get fspId).isSome = true := by
  cases answer with
  | ok value =>
    obtain ⟨text, htext⟩ := Option.isSome_iff_exists.mp (hanswer value rfl)
    simp [outcome, htext]
  | error e =>
    obtain ⟨carried, hcarried⟩ := Option.isSome_iff_exists.mp hprevious
    simp [outcome, hcarried]

/-- A tenant that had a key before has one again, if it is read and each answer for it is a failure
or a key. -/
theorem resolved_isSome {fspId : String} (hprevious : (previous.get fspId).isSome = true)
    {reads : List (String × Except JsError (Option String))}
    (hread : fspId ∈ reads.map Prod.fst)
    (hanswers : ∀ value, (fspId, .ok value) ∈ reads → (value.bind secrets.text).isSome = true) :
    ((secrets.resolved previous reads).get fspId).isSome = true := by
  induction reads using List.reverseRecOn with
  | nil => cases hread
  | append_singleton reads read ih =>
    obtain ⟨fspId', answer⟩ := read
    rw [resolved_append]
    by_cases heq : fspId = fspId'
    · subst heq
      apply secrets.outcome_self_isSome previous hprevious
      rintro value rfl
      exact hanswers value (List.mem_append_right _ (List.mem_singleton.mpr rfl))
    · rw [secrets.get_outcome_of_ne previous heq]
      apply ih
      · simpa [heq] using hread
      · intro value hvalue
        exact hanswers value (List.mem_append_left _ hvalue)

end VaultSecrets
end Participant
