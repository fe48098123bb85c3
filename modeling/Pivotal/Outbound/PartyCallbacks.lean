import Pivotal.Inbound.Parties
import Pivotal.Outbound.SendMoney
import Pivotal.Outbound.System

/-! The subjects under which a lookup waits, and those of the callbacks that answer it. -/
namespace Outbound
open Fspiop FspiopPubSubSubjects Async Async.Program
open Inbound (HandlePutPartiesInput HandlePutPartiesErrorInput)

/-- The subjects of a lookup of this payee, as `execute` registers them. -/
def waitFor (settings : SendMoneySettings) (source : String) (request : SendMoneyRequest) : WaitFor :=
  let payee := PostSendMoneyHandler.toOptionalValue request.toParty.fspId
  let partyIdType := request.toParty.idType.get request.payee_typed
  let subId := PostSendMoneyHandler.toSubId request.toParty.idSubValue
  { successSubject := Parties.forSuccess source payee partyIdType request.toParty.idValue subId
    errorSubject := Parties.forError source payee partyIdType request.toParty.idValue subId
    hubErrorSubject := some (Parties.forError source (some settings.switchId) partyIdType
      request.toParty.idValue subId)
    timeoutMs := FspiopResponseSubscriber.defaultTimeoutMs }

/-- The call does not wait, or waits as described. -/
def WaitsAs (w : WaitFor) : SendMoneyOp → Prop
  | .waitForParties successSubject errorSubject hubErrorSubject =>
    w.successSubject = successSubject ∧ w.errorSubject = errorSubject ∧
      w.hubErrorSubject = some hubErrorSubject
  | _ => True

section Waits

variable {w : WaitFor} {α : Type}

theorem ofOutbound_within (p : OutboundProgram α) : (ofOutbound p).Within (WaitsAs w) :=
  (within_of_forall (fun _ => trivial) p).embed

theorem publish_within (message : PartiesMessage) :
    (PostSendMoneyHandler.publish message).Within (WaitsAs w) :=
  ⟨trivial, fun _ => trivial⟩

theorem lookUp_within (settings : SendMoneySettings) (transferId source : String)
    (request : SendMoneyRequest) (headers : FspiopHeadersMap) (createdAt : Js.Date) :
    (PostSendMoneyHandler.lookUp settings transferId source
      (PostSendMoneyHandler.toOptionalValue request.toParty.fspId) request headers
      createdAt).Within (WaitsAs (waitFor settings source request)) := by
  unfold PostSendMoneyHandler.lookUp
  apply (publish_within _).bind
  intro _
  apply Within.answered
  · exact ⟨rfl, rfl, rfl⟩
  intro _
  apply Within.bind
  · apply Within.tryCatch
    · exact Within.bind ⟨trivial, fun _ => trivial⟩ fun _ => trivial
    · intro error
      exact Within.bind ⟨trivial, fun _ => trivial⟩ fun _ => trivial
  intro _
  apply Within.answered
  · trivial
  intro callback
  apply (within_lift _).bind
  rintro ⟨resolvedDestination, partyIdInfo, callback⟩
  cases Js.toISOString createdAt with
  | none => trivial
  | some initiatedTimestamp =>
    apply (ofOutbound_within _).bind
    intro _
    refine Within.bind ⟨trivial, fun _ => trivial⟩ ?_
    intro occurredAt
    exact (publish_within _).bind fun _ => trivial

theorem auditAndThrow_within (transferId source auditDestination : String)
    (request : SendMoneyRequest) (error : JsError) :
    (PostSendMoneyHandler.auditAndThrow transferId source auditDestination request error).Within
      (WaitsAs w) := by
  refine Within.bind ⟨trivial, fun _ => trivial⟩ ?_
  intro occurredAt
  apply Within.bind
  · apply (publish_within _).tryFinally
    apply (ofOutbound_within _).tryFinally
    trivial
  · intro _
    trivial

theorem execute_within (settings : SendMoneySettings) (transferId source : String)
    (request : SendMoneyRequest) :
    (PostSendMoneyHandler.execute settings transferId source request).Within
      (WaitsAs (waitFor settings source request)) := by
  unfold PostSendMoneyHandler.execute
  refine Within.bind ⟨trivial, fun _ => trivial⟩ ?_
  intro createdAt
  apply (within_lift _).bind
  intro _
  refine Within.bind ⟨trivial, fun _ => trivial⟩ ?_
  intro date
  apply Within.tryCatch
  · exact lookUp_within settings transferId source request _ createdAt
  · exact auditAndThrow_within transferId source _ request

end Waits

/-- The message finds the waiter under `matched`, which is its subject or that of any payee. -/
def Reaches (w : WaitFor) (subject matched : String) : Prop :=
  matched ∈ w.subjects ∧ (matched = subject ∨ Parties.toAnyPayeeSubject subject = some matched)

/-- The message finds the waiter, which takes it for a success exactly if it is one. -/
def Delivers (w : WaitFor) (subject : String) (success : Prop) : Prop :=
  (∃ matched, Reaches w subject matched) ∧
    ∀ matched, Reaches w subject matched → (matched = w.successSubject ↔ success)

section Callbacks

variable {w : WaitFor} {t u hub : PartyLookup} {subject matched : String}

/-- A subject that a success callback may be matched with. -/
def SuccessSubject (subject : String) : Prop := ∃ cs, subject.toList = Parties.successPrefix ++ cs

def ErrorSubject (subject : String) : Prop := ∃ cs, subject.toList = Parties.errorPrefix ++ cs

theorem SuccessSubject.not_error (h : SuccessSubject subject) : ¬ ErrorSubject subject := by
  rintro ⟨ds, herror⟩
  obtain ⟨cs, hsuccess⟩ := h
  exact Parties.successPrefix_append_ne cs ds (hsuccess.symm.trans herror)

theorem successSubject_of_matched
    (h : matched = t.forSuccess ∨ Parties.toAnyPayeeSubject t.forSuccess = some matched) :
    SuccessSubject matched := by
  rcases h with rfl | h
  · exact ⟨_, Parties.forSuccess_toList t⟩
  · rw [Parties.toAnyPayeeSubject_forSuccess] at h
    cases h
    exact ⟨_, String.toList_ofList⟩

theorem errorSubject_of_matched
    (h : matched = t.forError ∨ Parties.toAnyPayeeSubject t.forError = some matched) :
    ErrorSubject matched := by
  rcases h with rfl | h
  · exact ⟨_, Parties.forError_toList t⟩
  · rw [Parties.toAnyPayeeSubject_forError] at h
    cases h
    exact ⟨_, String.toList_ofList⟩

/-- The subjects of a waiter are those of a lookup and that of an error of the hub. -/
structure WaitsFor (w : WaitFor) (u hub : PartyLookup) : Prop where
  success : w.successSubject = u.forSuccess
  error : w.errorSubject = u.forError
  hubError : w.hubErrorSubject = some hub.forError

theorem WaitsFor.subjects (h : WaitsFor w u hub) :
    w.subjects = [u.forSuccess, u.forError, hub.forError] := by
  rw [WaitFor.subjects, h.success, h.error, h.hubError]
  rfl

/-- A lookup of a payee without colons, known or not, waits for what the payee answers. -/
theorem found_of_known (hpayer : ':' ∉ t.payer.toList)
    (hpayee : ':' ∉ (t.payee.getD Parties.anyPayee).toList)
    (hknown : u = t ∨ u = { t with payee := none }) :
    (u.forSuccess = t.forSuccess ∨ Parties.toAnyPayeeSubject t.forSuccess = some u.forSuccess) ∧
      (u.forError = t.forError ∨ Parties.toAnyPayeeSubject t.forError = some u.forError) := by
  obtain ⟨hsuccess, herror⟩ := PartyLookup.toAnyPayeeSubject_eq hpayer hpayee
  rcases hknown with rfl | rfl
  · exact ⟨.inl rfl, .inl rfl⟩
  · exact ⟨.inr hsuccess, .inr herror⟩

theorem delivers_success (h : WaitsFor w u hub)
    (hfound : u.forSuccess = t.forSuccess ∨
      Parties.toAnyPayeeSubject t.forSuccess = some u.forSuccess) :
    Delivers w t.forSuccess True := by
  constructor
  · refine ⟨u.forSuccess, ?_, hfound⟩
    simp [h.subjects]
  · rintro matched ⟨hmem, hmatched⟩
    have hsuccess := successSubject_of_matched hmatched
    rw [h.subjects] at hmem
    simp only [List.mem_cons, List.not_mem_nil, or_false] at hmem
    rcases hmem with rfl | rfl | rfl
    · simp [h.success]
    · exact absurd (errorSubject_of_matched (.inl rfl)) hsuccess.not_error
    · exact absurd (errorSubject_of_matched (.inl rfl)) hsuccess.not_error

theorem delivers_error (h : WaitsFor w u hub)
    (hfound : ∃ matched ∈ [u.forError, hub.forError],
      matched = t.forError ∨ Parties.toAnyPayeeSubject t.forError = some matched) :
    Delivers w t.forError False := by
  constructor
  · obtain ⟨matched, hmem, hmatched⟩ := hfound
    refine ⟨matched, ?_, hmatched⟩
    rw [h.subjects]
    exact List.mem_cons_of_mem _ hmem
  · rintro matched ⟨-, hmatched⟩
    have herror := errorSubject_of_matched hmatched
    rw [iff_false, h.success]
    rintro rfl
    exact (successSubject_of_matched (t := u) (.inl rfl)).not_error herror

end Callbacks

/-- The callbacks for what a `POST` looks up, of a payee that it knows or does not know, or of the
hub, are published with what they hold, if they hold anything, and reach the waiter that it
registers. Only the success callback is taken for a success. -/
theorem callbacks_reach_lookup (settings : SendMoneySettings) (transferId source payee : String)
    (request : SendMoneyRequest) (timeoutMs : ℕ) {t : List (Async.Event SendMoneyOp SendMoneyAnswer)}
    {p : SendMoneyProgram SendMoneyResponse} {e : Async.Event SendMoneyOp SendMoneyAnswer}
    {successSubject errorSubject hubErrorSubject : String}
    (hsource : ':' ∉ source.toList) (hpayee : ':' ∉ payee.toList)
    (hknown : ∀ fspId, PostSendMoneyHandler.toOptionalValue request.toParty.fspId = some fspId →
      fspId = payee)
    (hrun : (PostSendMoneyHandler.execute settings transferId source request).Runs t p) (he : e ∈ t)
    (hwaits : e.op = .waitForParties successSubject errorSubject hubErrorSubject) :
    let w : WaitFor := ⟨successSubject, errorSubject, some hubErrorSubject, timeoutMs⟩
    let lookup : PartyLookup := ⟨source, some payee, request.toParty.idType.get request.payee_typed,
      request.toParty.idValue, PostSendMoneyHandler.toSubId request.toParty.idSubValue⟩
    (∀ input : HandlePutPartiesInput, input.lookup = lookup →
      (Inbound.HandlePutPartiesHandler.execute input).map Prod.snd = input.content ∧
      ∀ published ∈ Inbound.HandlePutPartiesHandler.execute input, Delivers w published.1 True) ∧
    (∀ input : HandlePutPartiesErrorInput,
      input.lookup = lookup ∨ input.lookup = { lookup with payee := some settings.switchId } →
      (Inbound.HandlePutPartiesErrorHandler.execute input).map Prod.snd = input.content ∧
      ∀ published ∈ Inbound.HandlePutPartiesErrorHandler.execute input,
        Delivers w published.1 False) := by
  intro w lookup
  let asked : PartyLookup :=
    { lookup with payee := PostSendMoneyHandler.toOptionalValue request.toParty.fspId }
  let hub : PartyLookup := { lookup with payee := some settings.switchId }
  have hwait : WaitsFor w asked hub := by
    have hop := (execute_within settings transferId source request).of_runs hrun e he
    rw [hwaits] at hop
    obtain ⟨hsuccess, herror, hhub⟩ := hop
    exact ⟨hsuccess.symm, herror.symm, hhub.symm⟩
  have hasked : asked = lookup ∨ asked = { lookup with payee := none } := by
    cases hfsp : PostSendMoneyHandler.toOptionalValue request.toParty.fspId with
    | none =>
      right
      simp only [asked, hfsp]
    | some fspId =>
      left
      simp only [asked, lookup, hfsp, hknown fspId hfsp]
  obtain ⟨hsuccess, herror⟩ := found_of_known (t := lookup) hsource hpayee hasked
  constructor
  · intro input hinput
    refine ⟨Inbound.HandlePutPartiesHandler.map_snd_execute input, ?_⟩
    intro published hpublished
    obtain ⟨response, -, rfl⟩ := Option.mem_map.mp hpublished
    have hsubject : input.lookup.forSuccess = lookup.forSuccess := by
      rw [hinput]
    change Delivers w input.lookup.forSuccess True
    rw [hsubject]
    exact delivers_success hwait hsuccess
  · intro input hinput
    refine ⟨Inbound.HandlePutPartiesErrorHandler.map_snd_execute input, ?_⟩
    intro published hpublished
    obtain ⟨error, -, rfl⟩ := Option.mem_map.mp hpublished
    change Delivers w input.lookup.forError False
    rcases hinput with hinput | hinput
    · rw [hinput]
      exact delivers_error hwait ⟨asked.forError, by simp, herror⟩
    · rw [hinput]
      exact delivers_error hwait ⟨hub.forError, by simp, .inl rfl⟩

def sampleSendMoney : SendMoneyRequest where
  homeTransactionId := "h"
  fromParty := { sampleFspParty with fspId := some "a" }
  toParty := sampleFspParty
  amountType := .send
  currency := "USD"
  amount := "1"
  transactionType := .transfer
  subScenario := "S"
  note := none
  payer_identified := ⟨"a", rfl, by decide⟩
  payee_typed := rfl

/-- A lookup of an unknown payee, which `b` answers, or the hub. -/
theorem callbacks_reach_lookup_sample :
    let w : WaitFor := ⟨"pivotal.fspiop.response.parties:a:_any_:MSISDN:1",
      "pivotal.fspiop.response.parties-error:a:_any_:MSISDN:1",
      some "pivotal.fspiop.response.parties-error:a:hub:MSISDN:1", 30000⟩
    (∃ subject, Inbound.HandlePutPartiesHandler.execute
        ⟨none, "a", "b", .msisdn, "1", none, some ⟨sampleParty "b"⟩⟩ =
          some (subject, ⟨sampleParty "b"⟩) ∧ Delivers w subject True) ∧
      ∃ subject, Inbound.HandlePutPartiesErrorHandler.execute
        ⟨none, "a", "hub", .msisdn, "1", none, some ⟨none⟩⟩ = some (subject, ⟨none⟩) ∧
          Delivers w subject False := by
  intro w
  let settings : SendMoneySettings := ⟨sampleSettings, "p", "hub"⟩
  have hrun : ∃ p, (PostSendMoneyHandler.execute settings "x" "a" sampleSendMoney).Runs
      [⟨.outbound .now, 0⟩, ⟨.outbound .now, 0⟩, ⟨.publishParties (.ofRequest .parties .outbound
          (PostSendMoneyHandler.requestContent "x" "a" "" sampleSendMoney 0)), .ok ()⟩,
        ⟨.waitForParties w.successSubject w.errorSubject
          "pivotal.fspiop.response.parties-error:a:hub:MSISDN:1", .ok ()⟩] p :=
    ⟨_, .call _ (.call _ (.call _ (.call _ (.refl _))))⟩
  obtain ⟨p, hrun⟩ := hrun
  obtain ⟨hsuccess, herror⟩ := callbacks_reach_lookup settings "x" "a" "b" sampleSendMoney 30000
    (by decide) (by decide) (by intro fspId h; cases h) hrun
    (List.mem_cons_of_mem _ (List.mem_cons_of_mem _ (List.mem_cons_of_mem _ List.mem_cons_self))) rfl
  constructor
  · obtain ⟨hcontent, hdelivers⟩ :=
      hsuccess ⟨none, "a", "b", .msisdn, "1", none, some ⟨sampleParty "b"⟩⟩ (by decide)
    obtain ⟨⟨subject, response⟩, hpublished, rfl⟩ := Option.map_eq_some_iff.mp hcontent
    exact ⟨subject, hpublished, hdelivers _ hpublished⟩
  · obtain ⟨hcontent, hdelivers⟩ :=
      herror ⟨none, "a", "hub", .msisdn, "1", none, some ⟨none⟩⟩ (by decide)
    obtain ⟨⟨subject, response⟩, hpublished, rfl⟩ := Option.map_eq_some_iff.mp hcontent
    exact ⟨subject, hpublished, hdelivers _ hpublished⟩

end Outbound
