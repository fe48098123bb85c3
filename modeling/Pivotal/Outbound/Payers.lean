import Pivotal.Outbound.Authority
import Pivotal.Outbound.PartyCallbacks
import Pivotal.Outbound.System

/-! Requests to send money, of any participants and at any number of replicas. The participant that
posts a transfer pays it, and all that is done to the transfer later is done for that participant. -/
namespace Outbound
open Js Fspiop Fspiop.FspiopHeaders
open Async (Config Event Monitor Process System)
open Async.Program (Obeys Within lift perform)

/-- What the replicas share, with the identifiers that were generated and all that was cached under
each. -/
structure Payments where
  shared : Shared
  generated : List String
  cached : List (String × TransferRequest)

namespace Payments

def initial : Payments := ⟨.initial "" none, [], []⟩

/-- What a call caches, whether its answer arrives or not. -/
def caches : OutboundOp → List (String × TransferRequest)
  | .redisSet key value _ => [(key, value)]
  | _ => []

/-- No identifier is generated twice. -/
def performs (w : Payments) : (op : SendMoneyOp) → SendMoneyAnswer op → Payments → Prop
  | .outbound op, a, w' => ∃ s, Outbound.performs w.shared op a s ∧
    w' = { w with shared := s, cached := w.cached ++ caches op }
  | .ulid, id, w' => id ∉ w.generated ∧ w' = { w with generated := id :: w.generated }
  | _, _, w' => w' = w

def expires (w w' : Payments) : Prop :=
  ∃ s, Outbound.expires w.shared s ∧ w' = { w with shared := s }

end Payments

/-- The party belongs to the participant. -/
structure IsOf (source : String) (party : Option Party) : Prop where
  fspId : (party.bind (·.partyIdInfo)).bind (·.fspId) = some source
  trimmed : Js.trim source = source

theorem IsOf.payerFsp {source : String} {tr : TransferRequest} (h : IsOf source tr.payer) :
    payerFsp tr = some source := by
  unfold Outbound.payerFsp
  rw [h.fspId, Option.map_some, h.trimmed]

/-- A request as it is handled: when the guard checked it, the identifier that was generated, and
the transfer that was read. -/
structure SendMoneyVisit (ν κ : Type) where
  job : SendMoneyJob ν κ
  checked : Option Js.Date
  generated : Option String
  read : Option TransferRequest

namespace SendMoneyVisit

variable {ν κ : Type} (guard : AccessGuard ν κ) (visit : SendMoneyVisit ν κ)

def received (job : SendMoneyJob ν κ) : SendMoneyVisit ν κ := ⟨job, none, none, none⟩

def next : (op : SendMoneyOp) → SendMoneyAnswer op → SendMoneyVisit ν κ
  | .access .now, now => { visit with checked := some now }
  | .outbound op, a => { visit with read := Authority.next visit.read op a }
  | .ulid, id => { visit with generated := some id }
  | _, _ => visit

/-- The guard let the request through as one of `source`. -/
def Verified (source : String) : Prop :=
  ∃ now, visit.checked = some now ∧ ∃ publicKey token,
    guard.PayloadSigned visit.job.keys now visit.job.request source publicKey token

def allows (op : SendMoneyOp) : Prop :=
  match visit.job.endpoint, op with
  | .put id, .outbound op => ∃ source, visit.Verified guard source ∧
    (authority id source).allows visit.read op
  | .put _, .publishParties _ => False
  | .put _, .ulid => False
  | .post, .outbound (.redisSet key value _) => visit.generated = some key ∧
    ∃ source, visit.Verified guard source ∧ IsOf source value.payer
  | .post, .outbound (.redisDel key) => visit.generated = some key
  | .post, .outbound op => op.isQuiet = true
  | _, _ => True

theorem next_job (op : SendMoneyOp) (a : SendMoneyAnswer op) : (visit.next op a).job = visit.job := by
  unfold next
  split <;> rfl

theorem next_checked {op : SendMoneyOp} {a : SendMoneyAnswer op} {now : Js.Date}
    (h : (visit.next op a).checked = some now) :
    visit.checked = some now ∨ (⟨op, a⟩ : Event SendMoneyOp SendMoneyAnswer) = ⟨.access .now, now⟩ := by
  unfold next at h
  split at h
  · cases h
    exact .inr rfl
  · exact .inl h
  · exact .inl h
  · exact .inl h

end SendMoneyVisit

/-- The monitor of the requests. -/
def sendMoneyVisits {ν κ : Type} (guard : AccessGuard ν κ) :
    Monitor SendMoneyOp SendMoneyAnswer (SendMoneyVisit ν κ) :=
  ⟨SendMoneyVisit.next, SendMoneyVisit.allows guard⟩

namespace SendMoneyApp

variable {ν κ : Type} (app : SendMoneyApp ν κ)

def payments : System SendMoneyOp SendMoneyAnswer JsError SendMoneyResponse (SendMoneyJob ν κ)
    Payments where
  entry := app.handle
  perform := Payments.performs
  background := Payments.expires

end SendMoneyApp

section Sources

variable {ν κ : Type} {request : Request ν} {source : String}

/-- The guard and the controllers read the same source. -/
theorem toOptionalSource_of_sourced
    (h : AccessGuard.requireHeader request Names.fspiopSource = .ok source) :
    SendMoneyController.toOptionalSource (request.headers Names.fspiopSource) = some source ∧
      source ≠ "" ∧ Js.trim source = source := by
  unfold AccessGuard.requireHeader at h
  split at h
  · rename_i raw hraw
    rw [unless_ok_iff] at h
    obtain ⟨hne, h⟩ := h
    obtain rfl := pure_ok_iff.mp h
    rw [hraw]
    refine ⟨?_, hne, trim_trim raw⟩
    have hblank : Js.blank (some raw) = false := by simpa [Js.blank] using hne
    simp [SendMoneyController.toOptionalSource, PostSendMoneyHandler.toOptionalValue, hblank]
  · cases h

/-- A text of letters, digits, underscores and hyphens has nothing to trim. -/
theorem trim_of_isSimpleIdentifier {text : String} (h : isSimpleIdentifier text = true) :
    Js.trim text = text := by
  unfold isSimpleIdentifier at h
  rw [Bool.and_eq_true, List.all_eq_true] at h
  rw [Js.trim, trimChars_of_solid, String.ofList_toList]
  intro c hc
  have hrange : 0x2D ≤ c.val ∧ c.val ≤ 0x7A := by
    have hchar : (((decide (0x41 ≤ c.val ∧ c.val ≤ 0x5A) || (0x61 ≤ c.val && c.val ≤ 0x7A)) ||
        (0x30 ≤ c.val && c.val ≤ 0x39)) || c = '_' || c = '-') = true := h.2 c hc
    simp only [Bool.or_eq_true, decide_eq_true_eq, Bool.and_eq_true] at hchar
    rcases hchar with (hchar | rfl) | rfl
    · grind
    · decide
    · decide
  have hspace : c ≠ ' ' := by
    rintro rfl
    exact absurd hrange.1 (by decide)
  simp only [isWhiteSpace, Bool.or_eq_false_iff, Bool.and_eq_false_iff, decide_eq_false_iff_not]
  generalize c.val = code at hrange
  grind

/-- What is posted is posted for the source, which pays. -/
theorem isOf_of_toSource {body : SendMoneyRequest} {payer : String}
    (hsource : SendMoneyController.toOptionalSource (request.headers Names.fspiopSource) =
      some source)
    (h : SendMoneyController.toSource (request.headers Names.fspiopSource) body = .ok payer) :
    IsOf source (some (PostSendMoneyHandler.toParty body.fromParty)) := by
  obtain ⟨fspId, hfspId, hsimple⟩ := body.payer_identified
  have htrim := trim_of_isSimpleIdentifier hsimple
  have hne : fspId ≠ "" := by
    rintro rfl
    cases hsimple
  unfold SendMoneyController.toSource at h
  rw [hsource, hfspId, Option.map_some, htrim] at h
  dsimp only [Option.getD_some] at h
  split_ifs at h with hsame
  have heq : source = fspId := by simpa [hne] using hsame
  exact ⟨heq ▸ hfspId, heq ▸ htrim⟩

end Sources

section Posts

variable {id : String} {payer : Option Party} {α : Type}

/-- A call that changes no transfer but the one posted, which `payer` pays, and sends nothing. -/
def PostsOnly (id : String) (payer : Option Party) : SendMoneyOp → Prop
  | .outbound (.redisSet key value _) => key = id ∧ value.payer = payer
  | .outbound (.redisDel key) => key = id
  | .outbound op => op.isQuiet = true
  | .access _ => False
  | .ulid => False
  | _ => True

theorem publish_postsOnly (message : PartiesMessage) :
    (PostSendMoneyHandler.publish message).Within (PostsOnly id payer) :=
  ⟨trivial, fun _ => trivial⟩

theorem lookUp_postsOnly (settings : SendMoneySettings) (source : String)
    (destination : Option String) (request : SendMoneyRequest) (headers : FspiopHeadersMap)
    (createdAt : Js.Date) :
    (PostSendMoneyHandler.lookUp settings id source destination request headers createdAt).Within
      (PostsOnly id (some (PostSendMoneyHandler.toParty request.fromParty))) := by
  unfold PostSendMoneyHandler.lookUp
  apply (publish_postsOnly _).bind
  intro _
  apply Within.answered trivial
  intro _
  apply Within.bind
  · apply Within.tryCatch
    · exact Within.bind ⟨trivial, fun _ => trivial⟩ fun _ => trivial
    · intro error
      exact Within.bind ⟨rfl, fun _ => trivial⟩ fun _ => trivial
  intro _
  apply Within.answered trivial
  intro callback
  apply (Async.Program.within_lift _).bind
  rintro ⟨resolvedDestination, partyIdInfo, callback⟩
  cases Js.toISOString createdAt with
  | none => trivial
  | some initiatedTimestamp =>
    refine Within.bind ⟨⟨rfl, rfl⟩, fun _ => trivial⟩ ?_
    intro _
    refine Within.bind ⟨rfl, fun _ => trivial⟩ ?_
    intro occurredAt
    exact (publish_postsOnly _).bind fun _ => trivial

theorem auditAndThrow_postsOnly (source auditDestination : String) (request : SendMoneyRequest)
    (error : JsError) :
    (PostSendMoneyHandler.auditAndThrow id source auditDestination request error).Within
      (PostsOnly id payer) := by
  refine Within.bind ⟨rfl, fun _ => trivial⟩ ?_
  intro occurredAt
  apply Within.bind
  · apply (publish_postsOnly _).tryFinally
    refine Within.tryFinally ⟨rfl, fun _ => trivial⟩ ?_
    trivial
  · intro _
    trivial

theorem execute_postsOnly (settings : SendMoneySettings) (source : String)
    (request : SendMoneyRequest) :
    (PostSendMoneyHandler.execute settings id source request).Within
      (PostsOnly id (some (PostSendMoneyHandler.toParty request.fromParty))) := by
  unfold PostSendMoneyHandler.execute
  refine Within.bind ⟨rfl, fun _ => trivial⟩ ?_
  intro createdAt
  apply (Async.Program.within_lift _).bind
  intro _
  refine Within.bind ⟨rfl, fun _ => trivial⟩ ?_
  intro date
  apply Within.tryCatch
  · exact lookUp_postsOnly settings source _ request _ createdAt
  · exact auditAndThrow_postsOnly source _ request

end Posts

section Handling

variable {ν κ : Type} {app : SendMoneyApp ν κ} {job : SendMoneyJob ν κ} {now : Js.Date}
  {source : String}

theorem allows_of_postsOnly {guard : AccessGuard ν κ} {visit : SendMoneyVisit ν κ} {id : String}
    {payer : Option Party} {op : SendMoneyOp} (hpost : visit.job.endpoint = .post)
    (hgenerated : visit.generated = some id)
    (hpays : ∃ source, visit.Verified guard source ∧ IsOf source payer)
    (hop : PostsOnly id payer op) :
    visit.allows guard op ∧ ∀ a, visit.next op a = visit := by
  unfold SendMoneyVisit.allows
  rw [hpost]
  cases op with
  | access => cases hop
  | ulid => cases hop
  | outbound op =>
    cases op with
    | redisSet key value px =>
      obtain ⟨rfl, rfl⟩ := hop
      exact ⟨⟨hgenerated, hpays⟩, fun _ => rfl⟩
    | redisDel key =>
      obtain rfl : key = id := hop
      exact ⟨hgenerated, fun _ => rfl⟩
    | redisGet => cases hop
    | publish => cases hop
    | postQuotes => cases hop
    | postTransfers => cases hop
    | _ => exact ⟨rfl, fun _ => rfl⟩
  | _ => exact ⟨trivial, fun _ => rfl⟩

/-- What follows once the guard has let the request through is done for its source. -/
theorem serve_obeys {publicKey : κ} {token : Jwt.Token}
    (h : app.guard.PayloadSigned job.keys now job.request source publicKey token) :
    (app.serve job).Obeys (sendMoneyVisits app.guard) ⟨job, some now, none, none⟩
      fun _ _ => True := by
  obtain ⟨hsource, hne, htrim⟩ := toOptionalSource_of_sourced h.sourced
  unfold SendMoneyApp.serve
  cases hendpoint : job.endpoint with
  | post =>
    refine .afterLift (fun _ => trivial) fun body _ => ?_
    unfold SendMoneyController.post
    have hulid : SendMoneyVisit.allows app.guard ⟨job, some now, none, none⟩ .ulid := by
      simp only [SendMoneyVisit.allows, hendpoint]
    refine .afterPerform hulid fun id => ?_
    refine .afterLift (fun _ => trivial) fun payer hpayer => ?_
    have hpays : ∃ source, SendMoneyVisit.Verified app.guard ⟨job, some now, some id, none⟩ source ∧
        IsOf source (some (PostSendMoneyHandler.toParty body.fromParty)) :=
      ⟨source, ⟨now, rfl, publicKey, token, h⟩, isOf_of_toSource hsource hpayer⟩
    have hposts : (PostSendMoneyHandler.execute app.settings id payer body).Within
        (PostsOnly id (some (PostSendMoneyHandler.toParty body.fromParty))) :=
      execute_postsOnly app.settings payer body
    have hkeeps := hposts.keeps
      (M := sendMoneyVisits app.guard) (R := (· = ⟨job, some now, some id, none⟩)) ?_
    · exact (hkeeps _ rfl).mono fun _ _ _ => trivial
    · rintro _ op rfl hop
      exact allows_of_postsOnly hendpoint rfl hpays hop
  | put id =>
    refine .afterLift (fun _ => trivial) fun body _ => ?_
    have hput : (SendMoneyController.put app.settings.toOutboundSettings
        (job.request.headers Names.fspiopSource) id body).Obeys (authority id source) none
          fun _ _ => True := authority_put hne htrim hsource body
    refine hput.embedInto SendMoneyOp.outbound (fun _ a => a) (N := sendMoneyVisits app.guard)
      (fun read => (⟨job, some now, none, read⟩ : SendMoneyVisit ν κ)) ?_ fun _ _ _ => rfl
    intro read op hop
    have hverified : SendMoneyVisit.Verified app.guard ⟨job, some now, none, read⟩ source :=
      ⟨now, rfl, publicKey, token, h⟩
    show SendMoneyVisit.allows app.guard ⟨job, some now, none, read⟩ (.outbound op)
    simp only [SendMoneyVisit.allows, hendpoint]
    exact ⟨source, hverified, hop⟩

/-- The guard checks the request, and what is left is done if it lets the request through. -/
theorem handle_eq (henabled : app.guard.policyEnabled = true) (job : SendMoneyJob ν κ) :
    app.handle job = .call (.access .now) fun now =>
      match app.guard.verifyPayloadSignature job.keys now job.request with
      | .ok _ => app.serve job
      | .error e => .done (.error e) := by
  have hactivate : ofAccess (app.guard.canActivate job.keys ⟨false, false⟩ job.request) =
      .call (.access .now) fun now => ofAccess (lift (app.guard.verifyPayloadSignature job.keys now
        job.request) >>= fun _ => pure true) := by
    unfold AccessGuard.canActivate
    rw [henabled]
    rfl
  unfold SendMoneyApp.handle
  rw [hactivate]
  apply congrArg (Async.Program.call (SendMoneyOp.access .now))
  funext now
  show (ofAccess (lift (app.guard.verifyPayloadSignature job.keys now job.request) >>=
    fun _ => pure true) >>= _) = _
  cases app.guard.verifyPayloadSignature job.keys now job.request <;> rfl

theorem handle_obeys (henabled : app.guard.policyEnabled = true) (job : SendMoneyJob ν κ) :
    (app.handle job).Obeys (sendMoneyVisits app.guard) (.received job) fun _ _ => True := by
  rw [handle_eq henabled]
  constructor
  · show SendMoneyVisit.allows app.guard ⟨job, none, none, none⟩ (.access .now)
    dsimp only [SendMoneyVisit.allows]
    cases job.endpoint <;> trivial
  · intro now
    beta_reduce
    cases hverify : app.guard.verifyPayloadSignature job.keys now job.request with
    | error e => trivial
    | ok u =>
      obtain ⟨source, publicKey, token, hsigned⟩ :=
        AccessGuard.verifyPayloadSignature_ok_iff.mp hverify
      exact serve_obeys hsigned

end Handling

/-! Who pays. -/

section Caching

variable {s s' : Shared} {op : OutboundOp} {a : OutboundAnswer op} {key : String}
  {transferRequest : TransferRequest}

theorem transfers_of_applies {α : Type} {answer : Except JsError α} {next : Shared}
    (h : applies answer s next s') :
    s'.transfers = s.transfers ∨ s'.transfers = next.transfers := by
  rcases applies_cases h with ⟨rfl, -⟩ | rfl
  · exact .inl rfl
  · exact .inr rfl

theorem transfers_performs (h : Outbound.performs s op a s') : s'.transfers = s.transfers ∨
    (∃ key value px, op = .redisSet key value px ∧
      s'.transfers = Function.update s.transfers key (some value)) ∨
    ∃ key, op = .redisDel key ∧ s'.transfers = Function.update s.transfers key none := by
  cases op with
  | redisSet key value px =>
    exact (transfers_of_applies h).imp_right fun heq => .inl ⟨key, value, px, rfl, heq⟩
  | redisDel key => exact (transfers_of_applies h).imp_right fun heq => .inr ⟨key, rfl, heq⟩
  | redisGet => exact .inl (congrArg Shared.transfers h.1)
  | redisSetNx =>
    left
    dsimp only [Outbound.performs] at h
    split at h
    · exact (transfers_of_applies h.2).elim id id
    · exact congrArg Shared.transfers h.2
  | redisReleaseScript lockKey token =>
    left
    rcases transfers_of_applies h with heq | heq
    · exact heq
    · exact heq.trans (Shared.unlock_transfers s lockKey token)
  | redisIncrementScript => exact .inl ((transfers_of_applies h.2).elim id id)
  | postQuotes => exact .inl ((transfers_of_applies h).elim id id)
  | postTransfers => exact .inl ((transfers_of_applies h).elim id id)
  | _ => exact .inl (congrArg Shared.transfers h)

theorem transfer_performs (h : Outbound.performs s op a s')
    (hcached : s'.transfers key = some transferRequest) :
    s.transfers key = some transferRequest ∨ (key, transferRequest) ∈ Payments.caches op := by
  rcases transfers_performs h with heq | ⟨key', value, px, rfl, heq⟩ | ⟨key', rfl, heq⟩
  · exact .inl (heq ▸ hcached)
  · rw [heq, Function.update_apply] at hcached
    split_ifs at hcached with hkey
    · right
      rw [hkey, ← Option.some.inj hcached]
      exact List.mem_singleton_self _
    · exact .inl hcached
  · rw [heq, Function.update_apply] at hcached
    split_ifs at hcached with hkey
    exact .inl hcached

theorem transfer_expires (h : Outbound.expires s s')
    (hcached : s'.transfers key = some transferRequest) :
    s.transfers key = some transferRequest := by
  obtain ⟨key', rfl | rfl | rfl⟩ := h
  · simp only [Shared.setTransfer, Function.update_apply] at hcached
    split_ifs at hcached with hkey
    exact hcached
  · exact hcached
  · exact hcached

theorem read_performs {read : Option TransferRequest} (h : Outbound.performs s op a s')
    (hread : Authority.next read op a = some transferRequest) :
    read = some transferRequest ∨
      ∃ key, op = .redisGet key ∧ s.transfers key = some transferRequest := by
  cases op with
  | redisGet key =>
    rcases a with e | _ | value
    · exact .inl hread
    · exact .inl hread
    · exact .inr ⟨key, rfl, (h.2 _ rfl).symm.trans hread⟩
  | _ => exact .inl hread

end Caching

namespace SendMoneyApp

variable {ν κ ι : Type} (guard : AccessGuard ν κ)

/-- What is cached under an identifier is paid by the source of the `POST` that generated it. -/
structure Paid (payer : String → String) (w : Payments) (f : ι → Option (SendMoneyVisit ν κ)) :
    Prop where
  cached : ∀ id tr, (id, tr) ∈ w.cached → id ∈ w.generated ∧ IsOf (payer id) tr.payer
  current : ∀ id tr, w.shared.transfers id = some tr → (id, tr) ∈ w.cached
  read : ∀ i visit id tr, f i = some visit → visit.job.endpoint = .put id → visit.read = some tr →
    (id, tr) ∈ w.cached
  posted : ∀ i visit id, f i = some visit → visit.job.endpoint = .post →
    visit.generated = some id → id ∈ w.generated ∧ ∀ source,
      AccessGuard.requireHeader visit.job.request Names.fspiopSource = .ok source → source = payer id

variable {guard} {payer : String → String} {w w' : Payments}
  {f f' : ι → Option (SendMoneyVisit ν κ)} [DecidableEq ι]

omit [DecidableEq ι] in
theorem Paid.initial : Paid payer .initial fun _ : ι => (none : Option (SendMoneyVisit ν κ)) := by
  constructor
  · intro id tr h
    cases h
  · intro id tr h
    simp [Payments.initial, Shared.initial] at h
  · intro i visit id tr h
    cases h
  · intro i visit id h
    cases h

/-- A visit that has generated and read nothing else than before. -/
theorem Paid.put (h : Paid payer w f) {i : ι} {visit : SendMoneyVisit ν κ}
    (hread : ∀ id tr, visit.job.endpoint = .put id → visit.read = some tr → (id, tr) ∈ w.cached)
    (hposted : ∀ id, visit.job.endpoint = .post → visit.generated = some id → id ∈ w.generated ∧
      ∀ source, AccessGuard.requireHeader visit.job.request Names.fspiopSource = .ok source →
        source = payer id) :
    Paid payer w (Function.update f i (some visit)) := by
  constructor
  · exact h.cached
  · exact h.current
  · intro j visit' id tr hj
    rcases Async.update_eq_some.mp hj with ⟨-, heq⟩ | ⟨-, hj⟩
    · cases heq
      exact hread id tr
    · exact h.read j visit' id tr hj
  · intro j visit' id hj
    rcases Async.update_eq_some.mp hj with ⟨-, heq⟩ | ⟨-, hj⟩
    · cases heq
      exact hposted id
    · exact h.posted j visit' id hj

theorem Paid.remove (h : Paid payer w f) (i : ι) : Paid payer w (Function.update f i none) := by
  constructor
  · exact h.cached
  · exact h.current
  · intro j visit id tr hj
    exact h.read j visit id tr (Async.of_update_none hj).2
  · intro j visit id hj
    exact h.posted j visit id (Async.of_update_none hj).2

omit [DecidableEq ι] in
theorem Paid.grow (h : Paid payer w f) (hgenerated : ∀ id ∈ w.generated, id ∈ w'.generated)
    (hkept : ∀ e ∈ w.cached, e ∈ w'.cached)
    (hcached : ∀ id tr, (id, tr) ∈ w'.cached → id ∈ w'.generated ∧ IsOf (payer id) tr.payer)
    (hcurrent : ∀ id tr, w'.shared.transfers id = some tr → (id, tr) ∈ w'.cached) :
    Paid payer w' f := by
  constructor
  · exact hcached
  · exact hcurrent
  · intro i visit id tr hi hput hread
    exact hkept _ (h.read i visit id tr hi hput hread)
  · intro i visit id hi hpost hid
    obtain ⟨hmem, hsource⟩ := h.posted i visit id hi hpost hid
    exact ⟨hgenerated id hmem, hsource⟩

omit [DecidableEq ι] in
/-- Who pays what is new is not settled yet. -/
theorem Paid.assign (h : Paid payer w f) {id : String} (hid : id ∉ w.generated) (source : String) :
    Paid (Function.update payer id source) w f := by
  have hsame : ∀ id' ∈ w.generated, Function.update payer id source id' = payer id' := by
    intro id' hid'
    apply Function.update_of_ne
    rintro rfl
    exact hid hid'
  constructor
  · intro id' tr hmem
    have hgenerated := (h.cached id' tr hmem).1
    rw [hsame id' hgenerated]
    exact h.cached id' tr hmem
  · exact h.current
  · exact h.read
  · intro i visit id' hi hpost hid'
    have hgenerated := (h.posted i visit id' hi hpost hid').1
    rw [hsame id' hgenerated]
    exact h.posted i visit id' hi hpost hid'

omit [DecidableEq ι] in
/-- What a call caches is paid by the one who pays what is cached under that identifier already. -/
theorem Paid.caches (h : Paid payer w f) {i : ι} {visit : SendMoneyVisit ν κ} {op : OutboundOp}
    (hi : f i = some visit) (hallows : visit.allows guard (.outbound op)) {id : String}
    {tr : TransferRequest} (hmem : (id, tr) ∈ Payments.caches op) :
    id ∈ w.generated ∧ IsOf (payer id) tr.payer := by
  cases op with
  | redisSet key value px =>
    cases List.mem_singleton.mp hmem
    unfold SendMoneyVisit.allows at hallows
    cases hendpoint : visit.job.endpoint with
    | post =>
      rw [hendpoint] at hallows
      obtain ⟨hgenerated, source, ⟨now, -, publicKey, token, hsigned⟩, hof⟩ := hallows
      obtain ⟨hknown, hsource⟩ := h.posted i visit id hi hendpoint hgenerated
      obtain rfl := hsource source hsigned.sourced
      exact ⟨hknown, hof⟩
    | put id' =>
      rw [hendpoint] at hallows
      obtain ⟨source, -, rfl, t, hacts, hpayer⟩ := hallows
      rw [hpayer]
      exact h.cached id t (h.read i visit id t hi hendpoint hacts.1)
  | _ => cases hmem

/-- After a call of the handlers, what is cached and read is paid as before. -/
theorem Paid.outbound (h : Paid payer w f) {i : ι} {visit : SendMoneyVisit ν κ} {op : OutboundOp}
    {a : OutboundAnswer op} {s : Shared} (hi : f i = some visit)
    (hallows : visit.allows guard (.outbound op)) (hperform : Outbound.performs w.shared op a s) :
    Paid payer { w with shared := s, cached := w.cached ++ Payments.caches op }
      (Function.update f i (some (visit.next (.outbound op) a))) := by
  have hgrown : Paid payer { w with shared := s, cached := w.cached ++ Payments.caches op } f := by
    apply h.grow
    · exact fun _ hid => hid
    · exact fun e he => List.mem_append_left _ he
    · intro id tr hmem
      rcases List.mem_append.mp hmem with hmem | hmem
      · exact h.cached id tr hmem
      · exact h.caches hi hallows hmem
    · intro id tr htransfer
      apply List.mem_append.mpr
      exact (transfer_performs hperform htransfer).imp_left (h.current id tr)
  apply hgrown.put
  · intro id tr hput hread
    rcases read_performs hperform hread with hread | ⟨key, rfl, htransfer⟩
    · exact List.mem_append_left _ (h.read i visit id tr hi hput hread)
    · have hkey : key = id := by
        have hput : visit.job.endpoint = .put id := hput
        unfold SendMoneyVisit.allows at hallows
        rw [hput] at hallows
        obtain ⟨source, -, hkey⟩ := hallows
        exact hkey
      exact List.mem_append_left _ (h.current id tr (hkey ▸ htransfer))
  · exact fun id => h.posted i visit id hi

/-- Whoever posts under a new identifier pays what will be cached under it. -/
theorem Paid.generate (h : Paid payer w f) {i : ι} {visit : SendMoneyVisit ν κ} {id : String}
    (hallows : visit.allows guard .ulid) (hid : id ∉ w.generated) :
    ∃ payer', Paid payer' { w with generated := id :: w.generated }
      (Function.update f i (some { visit with generated := some id })) := by
  cases hendpoint : visit.job.endpoint with
  | put id' =>
    unfold SendMoneyVisit.allows at hallows
    rw [hendpoint] at hallows
    cases hallows
  | post =>
    let source := match AccessGuard.requireHeader visit.job.request Names.fspiopSource with
      | .ok source => source
      | .error _ => ""
    use Function.update payer id source
    have hgrown : Paid (Function.update payer id source)
        { w with generated := id :: w.generated } f := by
      have hassigned := h.assign hid source
      apply hassigned.grow
      · exact fun id hid => List.mem_cons_of_mem _ hid
      · exact fun _ he => he
      · intro id tr hmem
        obtain ⟨hknown, hof⟩ := hassigned.cached id tr hmem
        exact ⟨List.mem_cons_of_mem _ hknown, hof⟩
      · exact hassigned.current
    apply hgrown.put
    · intro id tr hput
      cases hendpoint.symm.trans hput
    · intro id' _ heq
      obtain rfl : id = id' := Option.some.inj heq
      refine ⟨List.mem_cons_self, ?_⟩
      intro source' hsource'
      have hsame : source = source' := by
        simp only [source, hsource']
      rw [Function.update_self, hsame]

variable {app : SendMoneyApp ν κ}

theorem Paid.move {l : Async.Label ι SendMoneyOp SendMoneyAnswer (SendMoneyJob ν κ)}
    (h : ∃ payer, Paid payer w f)
    (hmove : app.payments.Move (sendMoneyVisits app.guard) .received w f l w' f') :
    ∃ payer, Paid payer w' f' := by
  obtain ⟨payer, h⟩ := h
  cases hmove with
  | start job _ =>
    refine ⟨payer, h.put ?_ ?_⟩
    · intro id tr _ hread
      cases hread
    · intro id _ hid
      cases hid
  | @call _ _ i visit op a hi hallows hperform =>
    have hsame : Paid payer w (Function.update f i (some visit)) := by
      rw [← hi, Function.update_eq_self]
      exact h
    cases op with
    | outbound op =>
      obtain ⟨s, hperform, rfl⟩ := hperform
      exact ⟨payer, h.outbound hi hallows hperform⟩
    | ulid =>
      obtain ⟨hid, rfl⟩ := hperform
      exact h.generate hallows hid
    | access op =>
      obtain rfl := hperform
      cases op with
      | now => exact ⟨payer, h.put (fun id tr => h.read i visit id tr hi) fun id => h.posted i visit id hi⟩
      | reserve => exact ⟨payer, hsame⟩
    | _ =>
      obtain rfl := hperform
      exact ⟨payer, hsame⟩
  | crash hi _ => exact ⟨payer, h.remove _⟩
  | background hexpires =>
    obtain ⟨s, hexpires, rfl⟩ := hexpires
    refine ⟨payer, h.grow (fun _ hid => hid) (fun _ he => he) h.cached ?_⟩
    intro id tr htransfer
    exact h.current id tr (transfer_expires hexpires htransfer)

/-- Who pays what is cached is settled in every state that is reached. -/
theorem paid_of_reaches
    {c : Config ι SendMoneyOp SendMoneyAnswer JsError SendMoneyResponse (SendMoneyJob ν κ) Payments}
    (henabled : app.guard.policyEnabled = true)
    (h : app.payments.Reaches Async.System.Any (.initial .initial) c) :
    ∃ payer, Paid payer c.shared (c.records (sendMoneyVisits app.guard) .received) := by
  apply h.records_invariant (fun _ _ _ => True) (fun w f => ∃ payer, Paid payer w f)
    (fun job => handle_obeys henabled job)
  · exact ⟨fun _ => "", Paid.initial⟩
  · intro w f l w' f' hpaid _ hmove
    exact Paid.move hpaid hmove

/-- The participant that a request to the hub names as the one who pays. -/
def payerNamed : SendMoneyOp → Option String
  | .outbound (.postQuotes _ _ body) => (body.payer.bind (·.partyIdInfo)).bind (·.fspId)
  | .outbound (.postTransfers _ _ body) => body.payerFsp
  | _ => none

/-- The transfer that an audit message is about. -/
def audited : SendMoneyOp → Option String
  | .outbound (.publish message) => some message.content.correlationId
  | .publishParties message => some message.content.correlationId
  | _ => none

/-- The guard has let the request through as one of `source`. -/
def VerifiedSource (guard : AccessGuard ν κ)
    (p : Process SendMoneyOp SendMoneyAnswer JsError SendMoneyResponse (SendMoneyJob ν κ))
    (source : String) : Prop :=
  ∃ now, ⟨.access .now, now⟩ ∈ p.trace ∧ ∃ publicKey token,
    guard.PayloadSigned p.job.keys now p.job.request source publicKey token

theorem after_job (visit : SendMoneyVisit ν κ) (t : List (Event SendMoneyOp SendMoneyAnswer)) :
    ((sendMoneyVisits guard).after visit t).job = visit.job := by
  induction t generalizing visit with
  | nil => rfl
  | cons e t ih =>
    rw [Monitor.after_cons, ih]
    exact visit.next_job e.op e.answer

theorem after_checked {visit : SendMoneyVisit ν κ} {t : List (Event SendMoneyOp SendMoneyAnswer)}
    {now : Js.Date} (h : ((sendMoneyVisits guard).after visit t).checked = some now) :
    visit.checked = some now ∨ ⟨.access .now, now⟩ ∈ t := by
  induction t generalizing visit with
  | nil => exact .inl h
  | cons e t ih =>
    rcases ih h with hchecked | hmem
    · rcases visit.next_checked hchecked with hbefore | heq
      · exact .inl hbefore
      · exact .inr (heq ▸ List.mem_cons_self)
    · exact .inr (List.mem_cons_of_mem e hmem)

section Acts

variable {i : ι} {visit : SendMoneyVisit ν κ} {op : SendMoneyOp}

omit [DecidableEq ι] in
theorem Paid.names (h : Paid payer w f) (hi : f i = some visit) (hallows : visit.allows guard op)
    {source : String} (hnames : payerNamed op = some source) : visit.Verified guard source := by
  cases op with
  | outbound op =>
    unfold SendMoneyVisit.allows at hallows
    cases hendpoint : visit.job.endpoint with
    | post =>
      rw [hendpoint] at hallows
      cases op with
      | postQuotes => cases hallows
      | postTransfers => cases hallows
      | _ => cases hnames
    | put id =>
      rw [hendpoint] at hallows
      obtain ⟨source', hverified, hop⟩ := hallows
      cases op with
      | postQuotes url headers body =>
        obtain ⟨tr, ⟨hread, hpays⟩, hbody, -⟩ := hop
        have hof := (h.cached id tr (h.read i visit id tr hi hendpoint hread)).2
        have hsource : payer id = source' := Option.some.inj (hof.payerFsp.symm.trans hpays)
        have hnamed : payer id = source := by
          have hbodyPayer := hof.fspId
          rw [← hbody] at hbodyPayer
          exact Option.some.inj (hbodyPayer.symm.trans hnames)
        rwa [← hnamed, hsource]
      | postTransfers url headers body =>
        obtain ⟨-, -, hbody, -⟩ := hop
        obtain rfl : source' = source := Option.some.inj (hbody.symm.trans hnames)
        exact hverified
      | _ => cases hnames
  | _ => cases hnames

omit [DecidableEq ι] in
/-- A `PUT` does not touch what another participant pays. -/
theorem Paid.kept (h : Paid payer w f) (hi : f i = some visit) (hallows : visit.allows guard op)
    {path id : String} {tr : TransferRequest} (hput : visit.job.endpoint = .put path)
    (hmem : (id, tr) ∈ w.cached)
    (hother : ∀ payer, payerFsp tr = some payer →
      AccessGuard.requireHeader visit.job.request Names.fspiopSource ≠ .ok payer)
    {a : SendMoneyAnswer op} (hperform : w.performs op a w') :
    w'.shared.transfers id = w.shared.transfers id ∧ audited op ≠ some id := by
  unfold SendMoneyVisit.allows at hallows
  rw [hput] at hallows
  cases op with
  | outbound op =>
    obtain ⟨source, ⟨now, -, publicKey, token, hsigned⟩, hop⟩ := hallows
    have hforeign : ∀ t, Authority.Acts source visit.read t → id ≠ path := by
      rintro t ⟨hread, hpays⟩ rfl
      have hof := (h.cached id t (h.read i visit id t hi hput hread)).2.payerFsp
      have hof' := (h.cached id tr hmem).2.payerFsp
      exact hother source (hof'.trans (hof.symm.trans hpays)) hsigned.sourced
    obtain ⟨s, hperform, rfl⟩ := hperform
    constructor
    · rcases transfers_performs hperform with heq | ⟨key, value, px, rfl, heq⟩ | ⟨key, rfl, heq⟩
      · exact congrFun heq id
      · obtain ⟨rfl, t, hacts, -⟩ := hop
        exact (congrFun heq id).trans (Function.update_of_ne (hforeign t hacts) _ _)
      · obtain ⟨rfl, t, hacts⟩ := hop
        exact (congrFun heq id).trans (Function.update_of_ne (hforeign t hacts) _ _)
    · intro haudits
      cases op with
      | publish message =>
        obtain ⟨hid, t, hacts⟩ := hop
        exact hforeign t hacts ((Option.some.inj haudits).symm.trans hid)
      | _ => cases haudits
  | publishParties => cases hallows
  | ulid => cases hallows
  | _ =>
    obtain rfl := hperform
    exact ⟨rfl, fun haudits => by cases haudits⟩

variable {c c' : Config ι SendMoneyOp SendMoneyAnswer JsError SendMoneyResponse (SendMoneyJob ν κ)
    Payments} {e : Event SendMoneyOp SendMoneyAnswer}
  {p : Process SendMoneyOp SendMoneyAnswer JsError SendMoneyResponse (SendMoneyJob ν κ)}

/-- A request to the hub names the source that the guard has verified as the one who pays, and a
`PUT` of anyone but the payer of a transfer neither changes that transfer nor audits it. -/
theorem acts_for_payer (henabled : app.guard.policyEnabled = true)
    (h : app.payments.Reaches Async.System.Any (.initial .initial) c) (hp : c.process i = some p)
    (hstep : app.payments.Step c (.call i e) c') :
    (∀ payer, payerNamed e.op = some payer → VerifiedSource app.guard p payer) ∧
    ∀ id tr, (∃ path, p.job.endpoint = .put path) → (id, tr) ∈ c.shared.cached →
      (∀ payer, payerFsp tr = some payer →
        AccessGuard.requireHeader p.job.request Names.fspiopSource ≠ .ok payer) →
      c'.shared.shared.transfers id = c.shared.shared.transfers id ∧ audited e.op ≠ some id := by
  obtain ⟨payer, hpaid⟩ := paid_of_reaches henabled h
  cases hstep with
  | @call _ job t op resume a s hi hperform =>
    obtain rfl : p = ⟨job, t, .call op resume⟩ := Option.some.inj (hp.symm.trans hi)
    have hallows := h.allows (fun job => handle_obeys henabled job) hi
    have hrecord : c.records (sendMoneyVisits app.guard) .received i = _ := Config.records_eq hi
    have hjob : (Process.record (sendMoneyVisits app.guard) .received
      (ε := JsError) (α := SendMoneyResponse) ⟨job, t, .call op resume⟩).job = job := after_job _ t
    constructor
    · intro source hnames
      obtain ⟨now, hchecked, publicKey, token, hsigned⟩ := hpaid.names hrecord hallows hnames
      rcases after_checked hchecked with hnone | hmem
      · cases hnone
      · refine ⟨now, hmem, publicKey, token, ?_⟩
        rwa [hjob] at hsigned
    · rintro id tr ⟨path, hput⟩ hmem hother
      have hendpoint := (congrArg SendMoneyJob.endpoint hjob).trans hput
      refine hpaid.kept hrecord hallows hendpoint hmem ?_ hperform
      · intro payer hpays
        have hsource := hother payer hpays
        rwa [hjob]

end Acts

section Sample

/-- A token of the body, signed by the source. -/
def sampleConfirmation (source : String) (body : Value (List Char)) : Jwt.Token :=
  ⟨Jwt.encode "\x7b\"alg\":\"RS256\",\"typ\":\"JWT\"\x7d", Jwt.encode (body.stringify literals),
    source⟩

def sampleSigned (method url source : String) (body : Value (List Char)) : Request (List Char) where
  method := method
  url := url
  headers name :=
    if name = Names.fspiopSource then some source
    else if name = AccessGuard.authorizationHeaderName then
      some (sampleConfirmation source body).full
    else none
  body := some body

/-- The token of a request verifies with the key of its source. -/
theorem verifies_sampleSigned (method url : String) {source : String}
    {field : Units × Value (List Char)} {fields : List (Units × Value (List Char))} (now : Js.Date)
    (hne : source ≠ "") (hsource : source.toList.all Jwt.isPartChar = true)
    (hreread : (Value.object (field :: fields)).reread literals = .object (field :: fields)) :
    sampleAccessGuard.verifyPayloadSignature some now
      (sampleSigned method url source (.object (field :: fields))) = .ok () := by
  apply AccessGuard.verifyPayloadSignature_ok_iff.mpr
  have hcompact : (sampleConfirmation source (.object (field :: fields))).Compact := by
    constructor
    · exact Jwt.encode_ne_empty (by decide)
    · apply Jwt.encode_ne_empty
      intro hempty
      have hchars := congrArg String.toList hempty
      simp [Value.stringify, Value.chars] at hchars
    · exact Jwt.isPartChar_encode _
    · exact Jwt.isPartChar_encode _
    · exact hsource
  refine ⟨source, source, sampleConfirmation source (.object (field :: fields)), ?_, rfl, ?_, ?_,
    field :: fields, ?_, rfl⟩
  · have hsolid : ∀ c ∈ source.toList, isWhiteSpace c = false := by
      intro c hc
      have hchar := List.all_eq_true.mp hsource c hc
      rw [Jwt.isPartChar, Bool.and_eq_true, Bool.not_eq_true'] at hchar
      exact hchar.2
    have htrim : Js.trim source = source := by
      rw [Js.trim, trimChars_of_solid hsolid, String.ofList_toList]
    show (if Js.trim source = "" then _ else _) = _
    rw [htrim, if_neg hne]
    rfl
  · exact AccessGuard.carriedToken_full hcompact rfl
  · exact sampleAccessGuard_verifyToken hcompact now rfl hreread
  · exact AccessGuard.decodeTokenObject_encode _ hreread _

def sampleText (name text : String) : Units × Value (List Char) := (units name, .string (units text))

/-- The body of `sampleSendMoney`. -/
def samplePostBody : List (Units × Value (List Char)) :=
  [sampleText "homeTransactionId" "h",
    (units "from", .object [sampleText "idType" "MSISDN", sampleText "idValue" "1",
      sampleText "fspId" "a"]),
    (units "to", .object [sampleText "idType" "MSISDN", sampleText "idValue" "1"]),
    sampleText "amountType" "SEND", sampleText "currency" "USD", sampleText "amount" "1",
    sampleText "transactionType" "TRANSFER", sampleText "subScenario" "S"]

def samplePutBody : List (Units × Value (List Char)) :=
  [(units "acceptParty", .bool true), sampleText "amount" "1"]

theorem reread_samplePostBody :
    (Value.object samplePostBody).reread literals = .object samplePostBody := by
  simp only [samplePostBody, sampleText, Value.reread, Value.rereadFields]
  rw [Value.ofMembers_of_names, Value.ofMembers_of_names, Value.ofMembers_of_names]
  all_goals decide

theorem reread_samplePutBody :
    (Value.object samplePutBody).reread literals = .object samplePutBody := by
  simp only [samplePutBody, sampleText, Value.reread, Value.rereadFields]
  rw [Value.ofMembers_of_names (by decide) (by decide)]

def sampleApp : SendMoneyApp (List Char) String where
  guard := sampleAccessGuard
  settings := ⟨sampleSettings, "p", "hub"⟩
  validatePost _ := .ok sampleSendMoney
  validatePut _ := .ok ⟨some true, some "1", none, none, none⟩

def samplePost : SendMoneyJob (List Char) String where
  keys := some
  endpoint := .post
  request := sampleSigned "POST" "/secured/sendmoney" "a" (.object samplePostBody)

/-- The acceptance of the party. -/
def samplePut (id source : String) : SendMoneyJob (List Char) String where
  keys := some
  endpoint := .put id
  request := sampleSigned "PUT" ("/secured/sendmoney/" ++ id) source (.object samplePutBody)

/-- An identifier that is longer than all that were generated. -/
def sampleUlid (generated : List String) : String :=
  String.ofList ('x' :: generated.flatMap String.toList)

theorem sampleUlid_not_mem (generated : List String) : sampleUlid generated ∉ generated := by
  have hlength : ∀ id ∈ generated, id.toList.length ≤ (generated.flatMap String.toList).length := by
    intro id hid
    obtain ⟨before, after, rfl⟩ := List.append_of_mem hid
    simp only [List.flatMap_append, List.flatMap_cons, List.length_append]
    omega
  intro hmem
  have hle := hlength _ hmem
  rw [sampleUlid, String.toList_ofList, List.length_cons] at hle
  omega

/-- Every call succeeds. -/
def samplePolicy (w : Payments) : (op : SendMoneyOp) → SendMoneyAnswer op × Payments
  | .access .now => (0, w)
  | .access (.reserve _ _) => (.ok true, w)
  | .outbound op =>
    ((respond (fun _ => false) sampleQuote sampleCallback w.shared op).1,
      { w with
        shared := (respond (fun _ => false) sampleQuote sampleCallback w.shared op).2
        cached := w.cached ++ Payments.caches op })
  | .ulid => (sampleUlid w.generated, { w with generated := sampleUlid w.generated :: w.generated })
  | .publishParties _ => (.ok (), w)
  | .waitForParties _ _ _ => (.ok (), w)
  | .getParties _ _ _ _ _ => (.ok (), w)
  | .partiesCallback _ => (.ok ⟨sampleParty "b"⟩, w)

theorem performs_samplePolicy (w : Payments) (op : SendMoneyOp) :
    w.performs op (samplePolicy w op).1 (samplePolicy w op).2 := by
  cases op with
  | outbound op => exact ⟨_, performs_respond _ _ _ _ op, rfl⟩
  | ulid => exact ⟨sampleUlid_not_mem w.generated, rfl⟩
  | access op => cases op <;> rfl
  | _ => rfl

abbrev SampleConfig :=
  Config Bool SendMoneyOp SendMoneyAnswer JsError SendMoneyResponse
    (SendMoneyJob (List Char) String) Payments

/-- What a request that is let through has run. -/
def sampleServe (job : SendMoneyJob (List Char) String) : SendMoneyProgram SendMoneyResponse :=
  .call (.access .now) fun _ => sampleApp.serve job

def start (c : SampleConfig) (i : Bool) (job : SendMoneyJob (List Char) String) : SampleConfig :=
  c.put i (some ⟨job, [], sampleServe job⟩)

theorem reaches_start {c : SampleConfig}
    (h : sampleApp.payments.Reaches System.Any (.initial .initial) c) {i : Bool}
    (hi : c.process i = none) {job : SendMoneyJob (List Char) String}
    (hverifies : ∀ now, sampleAccessGuard.verifyPayloadSignature job.keys now job.request = .ok ()) :
    sampleApp.payments.Reaches System.Any (.initial .initial) (start c i job) := by
  have hhandle : sampleApp.handle job = sampleServe job := by
    rw [handle_eq rfl]
    apply congrArg (Async.Program.call (SendMoneyOp.access .now))
    funext now
    rw [show sampleApp.guard.verifyPayloadSignature job.keys now job.request = .ok () from
      hverifies now]
  have hstart := h.tail trivial (.start job hi)
  rwa [show sampleApp.payments.entry job = sampleServe job from hhandle] at hstart

/-- The transfer `x` has been posted. -/
def samplePosted : SampleConfig :=
  (start (.initial .initial) false samplePost).advance samplePolicy false 20

/-- Its payer is about to have the quote requested. -/
def sampleQuoting : SampleConfig :=
  (start samplePosted true (samplePut "x" "a")).advance samplePolicy true 8

theorem samplePost_verifies (now : Js.Date) :
    sampleAccessGuard.verifyPayloadSignature samplePost.keys now samplePost.request = .ok () :=
  verifies_sampleSigned _ _ now (by decide) (by decide) reread_samplePostBody

theorem samplePut_verifies (id : String) (now : Js.Date) :
    sampleAccessGuard.verifyPayloadSignature (samplePut id "a").keys now (samplePut id "a").request =
      .ok () :=
  verifies_sampleSigned _ _ now (by decide) (by decide) reread_samplePutBody

theorem reaches_samplePosted :
    sampleApp.payments.Reaches System.Any (.initial .initial) samplePosted := by
  have hstart := reaches_start .refl (i := false) rfl samplePost_verifies
  exact hstart.advance performs_samplePolicy false 20

theorem reaches_sampleQuoting :
    sampleApp.payments.Reaches System.Any (.initial .initial) sampleQuoting := by
  have hfree : samplePosted.process true = none :=
    Option.isNone_iff_eq_none.mp rfl
  have hstart := reaches_start reaches_samplePosted hfree (samplePut_verifies "x")
  exact hstart.advance performs_samplePolicy true 8

/-- The quote is requested for `a`, and the token was verified with the key of `a`. -/
theorem acts_for_payer_sample : ∃ (c c' : SampleConfig) (e : Event SendMoneyOp SendMoneyAnswer)
    (p : Process SendMoneyOp SendMoneyAnswer JsError SendMoneyResponse
      (SendMoneyJob (List Char) String)),
    c.process true = some p ∧ sampleApp.payments.Step c (.call true e) c' ∧
      payerNamed e.op = some "a" ∧ VerifiedSource sampleAccessGuard p "a" := by
  have hnamed : ((sampleQuoting.process true).bind fun p => p.program.awaits).bind payerNamed =
      some "a" := by
    decide +kernel
  obtain ⟨op, hawaits, hop⟩ := Option.bind_eq_some_iff.mp hnamed
  obtain ⟨p, hp, -⟩ := Option.bind_eq_some_iff.mp hawaits
  have hstep := System.step_advance (S := sampleApp.payments) performs_samplePolicy op hawaits
  exact ⟨_, _, _, p, hp, hstep, hop,
    (acts_for_payer rfl reaches_sampleQuoting hp hstep).1 "a" hop⟩

end Sample

end SendMoneyApp

end Outbound
