import Pivotal.Outbound.Payers

/-! Confirmations of a transfer. The token of one is of its body, which does not name the transfer:
it is for the same body that a token can be used again. -/
namespace Outbound
open Js Fspiop Fspiop.FspiopHeaders
open Async (Config Event Process System)
open Async.Program (lift)

/-- Whether a party or a quote is accepted or declined. -/
def PutSendMoneyRequest.confirms (request : PutSendMoneyRequest) : Bool :=
  request.acceptParty.isSome || request.acceptQuote.isSome

/-- A token that verifies with a key has been signed by its holder. -/
def AccessGuard.Unforgeable {ν κ : Type} (guard : AccessGuard ν κ) (signs : κ → String → Prop) :
    Prop :=
  ∀ now publicKey full value, guard.jwtVerify now publicKey full = some value → signs publicKey full

theorem AccessGuard.Unforgeable.signs {ν κ : Type} {guard : AccessGuard ν κ}
    {signs : κ → String → Prop} (h : guard.Unforgeable signs) {now : Js.Date} {publicKey : κ}
    {token : Jwt.Token} (hverified : guard.verifyToken now publicKey token = true) :
    signs publicKey token.full := by
  unfold AccessGuard.verifyToken at hverified
  split at hverified
  · next fields hverify => exact h now publicKey token.full _ hverify
  · cases hverified

theorem AccessGuard.resolvePayload_of_body {ν : Type} {request : Request ν}
    {field : Units × Value ν} {fields : List (Units × Value ν)}
    (h : request.body = some (.object (field :: fields))) :
    AccessGuard.resolvePayload request = field :: fields := by
  unfold AccessGuard.resolvePayload
  rw [h]

namespace SendMoneyApp

variable {ν κ : Type}

/-- What is confirmed is read from the body of a request. -/
def ReadsBody (app : SendMoneyApp ν κ) : Prop :=
  ∀ request body, app.validatePut request = .ok body → body.confirms = true →
    ∃ field fields, request.body = some (.object (field :: fields))

/-- Whether the handlers of a request have done anything. -/
def executes (t : List (Event SendMoneyOp SendMoneyAnswer)) : Bool :=
  t.any fun e => match e.op with
    | .outbound _ => true
    | _ => false

section Handling

variable {app : SendMoneyApp ν κ} {job : SendMoneyJob ν κ} {id : String}
  {t : List (Event SendMoneyOp SendMoneyAnswer)} {q : SendMoneyProgram SendMoneyResponse}

theorem not_executes_done {r : Except JsError SendMoneyResponse}
    (h : (Async.Program.done r : SendMoneyProgram SendMoneyResponse).Runs t q) :
    executes t = false := by
  cases h
  rfl

/-- What the handlers do follows from a body that confirms. -/
theorem serve_confirms (hput : job.endpoint = .put id) (h : (app.serve job).Runs t q)
    (hexecutes : executes t = true) :
    ∃ body, app.validatePut job.request = .ok body ∧ body.confirms = true := by
  unfold serve at h
  rw [hput] at h
  dsimp only at h
  cases hbody : app.validatePut job.request with
  | error e =>
    rw [hbody] at h
    exact absurd ((not_executes_done h).symm.trans hexecutes) (by decide)
  | ok body =>
    rw [hbody] at h
    refine ⟨body, rfl, ?_⟩
    by_contra hconfirms
    have hnone : body.acceptParty = none ∧ body.acceptQuote = none := by
      simpa [PutSendMoneyRequest.confirms] using hconfirms
    have hthrow : SendMoneyController.put app.settings.toOutboundSettings
        (job.request.headers Names.fspiopSource) id body = .done (.error (.fspiop (.ofExtensions
          FspiopErrors.missingMandatoryElement (some ⟨some [⟨some "",
            some "acceptParty or acceptQuote is required."⟩]⟩)))) := by
      unfold SendMoneyController.put
      rw [hnone.1, hnone.2]
      rfl
    have hdone : (ofOutbound (SendMoneyController.put app.settings.toOutboundSettings
        (job.request.headers Names.fspiopSource) id body)).Runs t q := h
    rw [hthrow] at hdone
    exact absurd ((not_executes_done hdone).symm.trans hexecutes) (by decide)

/-- The guard has let through whatever is executed. -/
theorem handle_confirms (henabled : app.guard.policyEnabled = true) (hput : job.endpoint = .put id)
    (h : (app.handle job).Runs t q) (hexecutes : executes t = true) :
    (∃ now source publicKey token,
      app.guard.PayloadSigned job.keys now job.request source publicKey token) ∧
    ∃ body, app.validatePut job.request = .ok body ∧ body.confirms = true := by
  rw [handle_eq henabled] at h
  cases h with
  | refl => cases hexecutes
  | @call _ _ t _ now h =>
    have hrest : executes t = true := hexecutes
    beta_reduce at h
    cases hverify : app.guard.verifyPayloadSignature job.keys now job.request with
    | error e =>
      rw [hverify] at h
      exact absurd ((not_executes_done h).symm.trans hrest) (by decide)
    | ok u =>
      rw [hverify] at h
      exact ⟨⟨now, AccessGuard.verifyPayloadSignature_ok_iff.mp hverify⟩,
        serve_confirms hput h hrest⟩

end Handling

/-- A `PUT` on a transfer of which something is executed. -/
def Confirms
    (p : Process SendMoneyOp SendMoneyAnswer JsError SendMoneyResponse (SendMoneyJob ν κ)) : Prop :=
  (∃ id, p.job.endpoint = .put id) ∧ executes p.trace = true

/-- The request carries a token that the holder of the key of its source has signed, and that says
what its body does. -/
structure SignedBody (guard : AccessGuard ν κ) (signs : κ → String → Prop) (job : SendMoneyJob ν κ)
    (token : Jwt.Token) (fields : List (Units × Value ν)) : Prop where
  carried : AccessGuard.carriedToken job.request = .ok token
  body : job.request.body = some (.object fields)
  signed : ∃ source publicKey,
    AccessGuard.requireHeader job.request Names.fspiopSource = .ok source ∧
      job.keys source = some publicKey ∧ signs publicKey token.full
  payload : ∃ payload, guard.decodePayload token = .ok payload ∧
    guard.toCanonicalJson fields = guard.toCanonicalJson payload

variable {ι : Type} [DecidableEq ι] {app : SendMoneyApp ν κ} {signs : κ → String → Prop}
  {w : Payments}
  {c : Config ι SendMoneyOp SendMoneyAnswer JsError SendMoneyResponse (SendMoneyJob ν κ) Payments}

theorem exists_signedBody (henabled : app.guard.policyEnabled = true) (hreads : app.ReadsBody)
    (hsigns : app.guard.Unforgeable signs)
    (h : app.payments.Reaches System.Any (.initial w) c) {i : ι}
    {p : Process SendMoneyOp SendMoneyAnswer JsError SendMoneyResponse (SendMoneyJob ν κ)}
    (hp : c.process i = some p) (hconfirms : Confirms p) :
    ∃ token fields, SignedBody app.guard signs p.job token fields := by
  obtain ⟨⟨id, hput⟩, hexecutes⟩ := hconfirms
  obtain ⟨⟨now, source, publicKey, token, hpayload⟩, body, hvalid, hbody⟩ :=
    handle_confirms henabled hput (h.process_runs hp) hexecutes
  obtain ⟨field, fields, hfields⟩ := hreads p.job.request body hvalid hbody
  obtain ⟨payload, hdecode, hcanonical⟩ := hpayload.matched
  rw [AccessGuard.resolvePayload_of_body hfields] at hcanonical
  exact ⟨token, field :: fields, hpayload.carried, hfields,
    ⟨source, publicKey, hpayload.sourced, hpayload.keyed, hsigns.signs hpayload.verified⟩,
    payload, hdecode, hcanonical⟩

/-- The holder of the key of the source has signed a token that holds what a confirmation says, and
another confirmation that carries that token says the same. -/
theorem confirmation_signed (henabled : app.guard.policyEnabled = true) (hreads : app.ReadsBody)
    (hsigns : app.guard.Unforgeable signs)
    (h : app.payments.Reaches System.Any (.initial w) c) {i : ι}
    {p : Process SendMoneyOp SendMoneyAnswer JsError SendMoneyResponse (SendMoneyJob ν κ)}
    (hp : c.process i = some p) (hconfirms : Confirms p) :
    ∃ token fields, SignedBody app.guard signs p.job token fields ∧
      ∀ j q, c.process j = some q → Confirms q →
        AccessGuard.carriedToken q.job.request = .ok token →
        ∃ fields', SignedBody app.guard signs q.job token fields' ∧
          app.guard.toCanonicalJson fields' = app.guard.toCanonicalJson fields := by
  obtain ⟨token, fields, hbody⟩ := exists_signedBody henabled hreads hsigns h hp hconfirms
  refine ⟨token, fields, hbody, ?_⟩
  intro j q hq hother hcarried
  obtain ⟨token', fields', hbody'⟩ := exists_signedBody henabled hreads hsigns h hq hother
  obtain rfl : token' = token := Except.ok.inj (hbody'.carried.symm.trans hcarried)
  refine ⟨fields', hbody', ?_⟩
  obtain ⟨payload, hpayload, hcanonical⟩ := hbody.payload
  obtain ⟨payload', hpayload', hcanonical'⟩ := hbody'.payload
  obtain rfl : payload' = payload := Except.ok.inj (hpayload'.symm.trans hpayload)
  exact hcanonical'.trans hcanonical.symm

section Sample

/-- The party is accepted wherever there is a body. -/
def sampleConfirmations : SendMoneyApp (List Char) String where
  guard := sampleAccessGuard
  settings := ⟨sampleSettings, "p", "hub"⟩
  validatePost _ := .ok sampleSendMoney
  validatePut request :=
    match request.body with
    | some (.object (_ :: _)) => .ok ⟨some true, some "1", none, none, none⟩
    | _ => .ok ⟨none, none, none, none, none⟩

theorem sampleConfirmations_readsBody : sampleConfirmations.ReadsBody := by
  intro request body hvalid hconfirms
  dsimp only [sampleConfirmations] at hvalid
  split at hvalid
  · next field fields hfields => exact ⟨field, fields, hfields⟩
  · cases hvalid
    cases hconfirms

/-- Two transfers that `a` pays. -/
def sampleBoth : Payments where
  shared := (Shared.initial "" none).setTransfer "x" (some (sampleTransfer none)) |>.setTransfer "y"
    (some (sampleTransfer none))
  generated := ["x", "y"]
  cached := [("x", sampleTransfer none), ("y", sampleTransfer none)]

def confirm (c : SampleConfig) (i : Bool) (id : String) : SampleConfig :=
  (c.put i (some ⟨samplePut id "a", [], .call (.access .now) fun _ =>
    sampleConfirmations.serve (samplePut id "a")⟩)).advance samplePolicy i 8

theorem reaches_confirm {w : Payments} {c : SampleConfig}
    (h : sampleConfirmations.payments.Reaches System.Any (.initial w) c) {i : Bool}
    (hi : c.process i = none) (id : String) :
    sampleConfirmations.payments.Reaches System.Any (.initial w) (confirm c i id) := by
  have hhandle : sampleConfirmations.handle (samplePut id "a") =
      .call (.access .now) fun _ => sampleConfirmations.serve (samplePut id "a") := by
    rw [handle_eq rfl]
    apply congrArg (Async.Program.call (SendMoneyOp.access .now))
    funext now
    rw [show sampleConfirmations.guard.verifyPayloadSignature (samplePut id "a").keys now
      (samplePut id "a").request = .ok () from samplePut_verifies id now]
  have hstart := h.tail trivial (.start (samplePut id "a") hi)
  rw [show sampleConfirmations.payments.entry (samplePut id "a") = _ from hhandle] at hstart
  exact hstart.advance performs_samplePolicy i 8

/-- Both are confirmed, with one token. -/
def sampleConfirmed : SampleConfig := confirm (confirm (.initial sampleBoth) true "x") false "y"

theorem reaches_sampleConfirmed :
    sampleConfirmations.payments.Reaches System.Any (.initial sampleBoth) sampleConfirmed := by
  have hfree : (confirm (.initial sampleBoth) true "x").process false = none :=
    Option.isNone_iff_eq_none.mp rfl
  exact reaches_confirm (reaches_confirm .refl rfl "x") hfree "y"

/-- Both are executed, and the hub is about to be told that `a` pays. -/
theorem sampleConfirmed_executes : ∀ i, (sampleConfirmed.process i).map (fun p =>
    (executes p.trace, p.program.awaits.bind payerNamed)) = some (true, some "a") := by
  decide +kernel

theorem sampleConfirmed_job (i : Bool) : (sampleConfirmed.process i).map Process.job =
    some (samplePut (if i then "x" else "y") "a") := by
  cases i <;> rfl

theorem exists_confirms (i : Bool) : ∃ p, sampleConfirmed.process i = some p ∧
    p.job = samplePut (if i then "x" else "y") "a" ∧ Confirms p := by
  obtain ⟨p, hp, hjob⟩ := Option.map_eq_some_iff.mp (sampleConfirmed_job i)
  obtain ⟨p', hp', hexecutes⟩ := Option.map_eq_some_iff.mp (sampleConfirmed_executes i)
  obtain rfl : p' = p := Option.some.inj (hp'.symm.trans hp)
  exact ⟨p', hp, hjob, ⟨_, congrArg SendMoneyJob.endpoint hjob⟩, congrArg Prod.fst hexecutes⟩

/-- The tokens that a key verifies. -/
def sampleSigns (publicKey full : String) : Prop :=
  ∃ now value, sampleJwtVerify now publicKey full = some value

theorem sampleSigns_unforgeable : sampleConfirmations.guard.Unforgeable sampleSigns :=
  fun now _ _ value hverify => ⟨now, value, hverify⟩

/-- The token of the confirmation of `x` is accepted with that of `y`, which says the same. -/
theorem confirmation_signed_sample : ∃ token fields fields',
    SignedBody sampleAccessGuard sampleSigns (samplePut "x" "a") token fields ∧
      SignedBody sampleAccessGuard sampleSigns (samplePut "y" "a") token fields' ∧
      sampleAccessGuard.toCanonicalJson fields' = sampleAccessGuard.toCanonicalJson fields := by
  obtain ⟨p, hp, hpx, hconfirms⟩ := exists_confirms true
  obtain ⟨q, hq, hqy, hother⟩ := exists_confirms false
  obtain ⟨token, fields, hbody, hsame⟩ := confirmation_signed rfl sampleConfirmations_readsBody
    sampleSigns_unforgeable reaches_sampleConfirmed hp hconfirms
  rw [hpx] at hbody
  have hcarried : AccessGuard.carriedToken q.job.request = .ok token := hqy ▸ hbody.carried
  obtain ⟨fields', hbody', hcanonical⟩ := hsame false q hq hother hcarried
  rw [hqy] at hbody'
  exact ⟨token, fields, fields', hbody, hbody', hcanonical⟩

/-- The holder of the key of `a` has signed for `x` alone, and `y` is confirmed. -/
theorem not_confirmation_signed : ¬ ∀ (app : SendMoneyApp (List Char) String)
    (signedFor : String → String → String → Prop), app.guard.policyEnabled = true →
    app.ReadsBody → app.guard.Unforgeable (fun publicKey full => ∃ id, signedFor publicKey id full) →
    ∀ (w : Payments) (c : SampleConfig), app.payments.Reaches System.Any (.initial w) c →
    ∀ i p id, c.process i = some p → p.job.endpoint = .put id → executes p.trace = true →
      ∃ source publicKey full, AccessGuard.requireHeader p.job.request Names.fspiopSource =
        .ok source ∧ p.job.keys source = some publicKey ∧ signedFor publicKey id full := by
  intro h
  obtain ⟨q, hq, hqy, -, hexecutes⟩ := exists_confirms false
  obtain ⟨_, _, _, -, -, hx, -⟩ := h sampleConfirmations
    (fun publicKey id full => id = "x" ∧ sampleSigns publicKey full) rfl
    sampleConfirmations_readsBody
    (fun now key full value hverify =>
      ⟨"x", rfl, sampleSigns_unforgeable now key full value hverify⟩) sampleBoth sampleConfirmed
    reaches_sampleConfirmed false q "y" hq (congrArg SendMoneyJob.endpoint hqy) hexecutes
  exact absurd hx (by decide)

end Sample

end SendMoneyApp
end Outbound
