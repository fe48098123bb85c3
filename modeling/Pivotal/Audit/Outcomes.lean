import Pivotal.Audit.Published
import Pivotal.Outbound.Components

/-! What a transaction comes to: its state and its completion, which the last writer decides, and
the FSPs of its parties. -/
namespace Outbound.GetTransferStatusHandler
open Fspiop Audit

variable {J ν : Type}

def toCurrentState (record : Transaction J ν) : StateEnum :=
  if record.transferState = some .committed then .completed
  else if record.error then .aborted
  else if record.flow = some 2 ∧ record.quotes.respondedAt.isSome ∧
      record.transfers.requestedAt = none then .waitingForQuoteAcceptance
  else if record.flow = some 1 ∧ record.parties.respondedAt.isSome ∧
      record.quotes.requestedAt = none then .waitingForPartyAcceptance
  else .pending

theorem toCurrentState_eq_completed {record : Transaction J ν} :
    toCurrentState record = .completed ↔ record.transferState = some .committed := by
  unfold toCurrentState
  split
  · simp [*]
  · split
    · simp [*]
    · split
      · simp [*]
      · split <;> simp [*]

end Outbound.GetTransferStatusHandler

namespace Audit
open Fspiop Store Outbound

variable {J ν : Type} {numeric : Numeric ν} {correlationId : String}
  {events : List (AuditCommand J)}

theorem register_transferState : Register (J := J) (ν := ν) TransferState
    (fun t => t.transferState) fun input => input.transferState :=
  ⟨fun _ _ _ => rfl, fun _ _ => rfl⟩

theorem register_completedAt : Register (J := J) (ν := ν) Js.Date
    (fun t => t.transactionCompletedAt) fun input => input.transactionCompletedAt :=
  ⟨fun _ _ _ => rfl, fun _ _ => rfl⟩

/-- Whether an event has an input, a state and a completion does not depend on the clock. -/
theorem toInput_timeless (numeric : Numeric ν) (command : AuditCommand J) (now now' : Js.Date) :
    (command.toInput numeric now).toOption.map
      (fun input => (input.transferState, input.transactionCompletedAt.isSome)) =
    (command.toInput numeric now').toOption.map
      (fun input => (input.transferState, input.transactionCompletedAt.isSome)) := by
  open AuditTransactionMapper in
  cases command with
  | partiesRequest input => rfl
  | partiesResponse input => rfl
  | partiesError input => rfl
  | quotesRequest input =>
    simp only [AuditCommand.toInput, toQuotesRequestInput, toQuotesInput]
    cases toAmount input.request <;> rfl
  | quotesResponse input =>
    simp only [AuditCommand.toInput, toQuotesResponseInput, toQuotesInput]
    cases toAmount input.request <;> rfl
  | quotesError input =>
    simp only [AuditCommand.toInput, toQuotesErrorInput, toQuotesInput]
    cases toAmount input.request <;> rfl
  | transfersRequest input => rfl
  | transfersResponse input => rfl
  | transfersError input => rfl
  | patchRequest input => rfl
  | patchResponse input => rfl
  | patchError input => rfl

theorem toInput_at {command : AuditCommand J} {now : Js.Date} {input : UpsertInput J ν}
    (h : command.toInput numeric now = .ok input) (now' : Js.Date) :
    ∃ input', command.toInput numeric now' = .ok input' ∧
      input'.transferState = input.transferState ∧
      input'.transactionCompletedAt.isSome = input.transactionCompletedAt.isSome := by
  have htimeless := toInput_timeless numeric command now now'
  rw [h] at htimeless
  cases h' : command.toInput numeric now' with
  | error e => simp [h', Except.toOption] at htimeless
  | ok input' =>
    simp only [h', Except.toOption, Option.map_some, Option.some.injEq, Prod.mk.injEq]
      at htimeless
    exact ⟨input', rfl, htimeless.1.symm, htimeless.2.symm⟩

theorem carriedBy_isSome {α : Type} {carried : UpsertInput J ν → Option α}
    (hclock : ∀ (e : AuditCommand J) now now' input, e.toInput numeric now = .ok input →
      ∃ input', e.toInput numeric now' = .ok input' ∧
        (carried input').isSome = (carried input).isSome)
    {d d' : Delivery J} (hcommand : d.command = d'.command)
    (h : (carriedBy numeric carried d).isSome = true) :
    (carriedBy numeric carried d').isSome = true := by
  unfold carriedBy at h ⊢
  cases hinput : d.command.toInput numeric d.resolvedAt with
  | error e => simp [hinput, Except.toOption] at h
  | ok input =>
    obtain ⟨input', hinput', hsome⟩ := hclock _ _ d'.resolvedAt _ hinput
    rw [← hcommand, hinput']
    rw [hinput] at h
    exact hsome.trans h

/-- Lists of one and the same value, either both empty or neither, end alike. -/
theorem getLast?_eq_of_const {α : Type} {xs ys : List α} (h : ∀ x ∈ xs, ∀ y ∈ ys, x = y)
    (hempty : xs = [] ↔ ys = []) : xs.getLast? = ys.getLast? := by
  cases hxs : xs.getLast? with
  | none =>
    have hnil := hempty.mp (List.getLast?_eq_none_iff.mp hxs)
    simp [hnil]
  | some x =>
    cases hys : ys.getLast? with
    | none =>
      have hnil := hempty.mpr (List.getLast?_eq_none_iff.mp hys)
      simp [hnil] at hxs
    | some y => rw [h x (List.mem_of_getLast? hxs) y (List.mem_of_getLast? hys)]

/-- Every delivery of the events ends in the same value of the column, if they carry only one. -/
theorem Register.rowAfter_eq {α : Type} {column : Transaction J ν → Option α}
    {carried : UpsertInput J ν → Option α} (h : Register α column carried)
    (hclock : ∀ (e : AuditCommand J) now now' input, e.toInput numeric now = .ok input →
      ∃ input', e.toInput numeric now' = .ok input' ∧
        (carried input').isSome = (carried input).isSome)
    (hone : OfCorrelation numeric correlationId events)
    (hconst : ∀ e ∈ events, ∀ e' ∈ events, ∀ now now' input input',
      e.toInput numeric now = .ok input → e'.toInput numeric now' = .ok input' →
      ∀ a ∈ carried input, ∀ a' ∈ carried input', a = a')
    {ds ds' : List (Delivery J)} (hds : Delivers events ds) (hds' : Delivers events ds') :
    (Audit.rowAfter numeric correlationId ds).bind column =
      (Audit.rowAfter numeric correlationId ds').bind column := by
  have hnil : ∀ {ds ds' : List (Delivery J)}, Delivers events ds → Delivers events ds' →
      ds.filterMap (carriedBy numeric carried) = [] →
      ds'.filterMap (carriedBy numeric carried) = [] := by
    intro ds ds' hds hds' hnone
    rw [List.filterMap_eq_nil_iff] at hnone ⊢
    intro d' hd'
    obtain ⟨d, hd, hcommand⟩ := hds.2 d'.command (hds'.1 d' hd')
    by_contra hsome
    have hcarried := carriedBy_isSome hclock hcommand.symm (Option.isSome_iff_ne_none.mpr hsome)
    simp [hnone d hd] at hcarried
  rw [h.rowAfter hone hds.1, h.rowAfter hone hds'.1]
  apply getLast?_eq_of_const
  · intro a ha a' ha'
    obtain ⟨d, hd, hcarried⟩ := List.mem_filterMap.mp ha
    obtain ⟨d', hd', hcarried'⟩ := List.mem_filterMap.mp ha'
    unfold carriedBy at hcarried hcarried'
    cases hinput : d.command.toInput numeric d.resolvedAt with
    | error e => simp [hinput, Except.toOption] at hcarried
    | ok input =>
      cases hinput' : d'.command.toInput numeric d'.resolvedAt with
      | error e => simp [hinput', Except.toOption] at hcarried'
      | ok input' =>
        rw [hinput] at hcarried
        rw [hinput'] at hcarried'
        exact hconst _ (hds.1 d hd) _ (hds'.1 d' hd') _ _ _ _ hinput hinput' a hcarried a' hcarried'
  · exact ⟨hnil hds hds', hnil hds' hds⟩

section Committed

def outcome (row : Option (Transaction J ν)) : Option TransferState × Option Js.Date :=
  (row.bind (·.transferState), row.bind (·.transactionCompletedAt))

/-- Once committed, a transfer stays so and is reported so, and the order of the deliveries decides
nothing about its outcome. -/
structure StaysCommitted (numeric : Numeric ν) (correlationId : String)
    (events : List (AuditCommand J)) : Prop where
  state : ∀ ds₁ ds₂, DeliversOnly events (ds₁ ++ ds₂) →
    (rowAfter numeric correlationId ds₁).bind (·.transferState) = some .committed →
    (rowAfter numeric correlationId (ds₁ ++ ds₂)).bind (·.transferState) = some .committed
  status : ∀ ds₁ ds₂, DeliversOnly events (ds₁ ++ ds₂) →
    (rowAfter numeric correlationId ds₁).map GetTransferStatusHandler.toCurrentState =
      some .completed →
    (rowAfter numeric correlationId (ds₁ ++ ds₂)).map GetTransferStatusHandler.toCurrentState =
      some .completed
  order : ∀ ds ds', Delivers events ds → Delivers events ds' →
    outcome (rowAfter numeric correlationId ds) = outcome (rowAfter numeric correlationId ds')

/-- No event carries another state. -/
def OnlyCommitted (numeric : Numeric ν) (events : List (AuditCommand J)) : Prop :=
  ∀ e ∈ events, ∀ now input, e.toInput numeric now = .ok input →
    ∀ state ∈ input.transferState, state = .committed

/-- The events that complete the transaction do so at the same time. -/
def CompleteAtOnce (numeric : Numeric ν) (events : List (AuditCommand J)) : Prop :=
  ∀ e ∈ events, ∀ e' ∈ events, ∀ now now' input input',
    e.toInput numeric now = .ok input → e'.toInput numeric now' = .ok input' →
    ∀ t ∈ input.transactionCompletedAt, ∀ t' ∈ input'.transactionCompletedAt, t = t'

theorem state_of_onlyCommitted (hone : OfCorrelation numeric correlationId events)
    (honly : OnlyCommitted numeric events) {ds₁ ds₂ : List (Delivery J)}
    (hds : DeliversOnly events (ds₁ ++ ds₂))
    (h : (rowAfter numeric correlationId ds₁).bind (·.transferState) = some .committed) :
    (rowAfter numeric correlationId (ds₁ ++ ds₂)).bind (·.transferState) = some .committed := by
  rw [rowAfter_append]
  apply run_keeps (P := fun row => row.bind (·.transferState) = some .committed) hone
  · intro e he now input hinput row id updatedAt hrow
    rw [Option.bind_some, register_transferState.upsert, hrow]
    cases hstate : input.transferState with
    | none => simp
    | some state => rw [honly e he now input hinput state hstate, coalesce_some]
  · exact h
  · exact (deliversOnly_append.mp hds).2

theorem completed_iff {row : Option (Transaction J ν)} :
    row.map GetTransferStatusHandler.toCurrentState = some .completed ↔
      row.bind (·.transferState) = some .committed := by
  cases row with
  | none => simp
  | some t => simp [GetTransferStatusHandler.toCurrentState_eq_completed]

/-- Deliveries of all the events, of which one that is known comes last. -/
theorem delivers_with_last {e : AuditCommand J} (he : e ∈ events) (now : Js.Date) :
    Delivers events (events.map (fun e => ⟨e, 0, 0, 0⟩) ++ [⟨e, 0, now, 0⟩]) := by
  constructor
  · intro d hd
    rcases List.mem_append.mp hd with hd | hd
    · obtain ⟨e', he', rfl⟩ := List.mem_map.mp hd
      exact he'
    · rw [List.mem_singleton.mp hd]
      exact he
  · intro e' he'
    exact ⟨⟨e', 0, 0, 0⟩, List.mem_append_left _ (List.mem_map_of_mem he'), rfl⟩

theorem onlyCommitted_of_state (hone : OfCorrelation numeric correlationId events)
    (hcommitted : ∃ e ∈ events, ∃ now input, e.toInput numeric now = .ok input ∧
      input.transferState = some .committed)
    (hstays : StaysCommitted numeric correlationId events) : OnlyCommitted numeric events := by
  intro e he now input hinput state hstate
  obtain ⟨c, hc, nowc, inputc, hinputc, hstatec⟩ := hcommitted
  have honlyc : DeliversOnly events [⟨c, 0, nowc, 0⟩] := by simpa [DeliversOnly] using hc
  have honly : DeliversOnly events ([⟨c, 0, nowc, 0⟩] ++ [⟨e, 0, now, 0⟩]) := by
    simpa [DeliversOnly] using ⟨hc, he⟩
  have hfirst : (rowAfter numeric correlationId [⟨c, 0, nowc, 0⟩]).bind (·.transferState) =
      some .committed := by
    rw [register_transferState.rowAfter hone honlyc]
    simp [carriedBy, hinputc, hstatec, Except.toOption]
  have hlast := hstays.state _ _ honly hfirst
  rw [register_transferState.rowAfter hone honly] at hlast
  rw [Option.mem_def] at hstate
  simpa [carriedBy, hinputc, hinput, hstatec, hstate, Except.toOption] using hlast

theorem completeAtOnce_of_order (hone : OfCorrelation numeric correlationId events)
    (hstays : StaysCommitted numeric correlationId events) : CompleteAtOnce numeric events := by
  intro e he e' he' now now' input input' hinput hinput' t ht t' ht'
  have hds := delivers_with_last he now
  have hds' := delivers_with_last he' now'
  have horder := congrArg Prod.snd (hstays.order _ _ hds hds')
  simp only [outcome] at horder
  rw [register_completedAt.rowAfter hone hds.1, register_completedAt.rowAfter hone hds'.1]
    at horder
  rw [Option.mem_def] at ht ht'
  simpa [carriedBy, hinput, hinput', ht, ht', Except.toOption, List.filterMap_append] using horder

/-- A committed transfer stays committed, whatever the order, exactly if its events carry no other
state and all complete it at the same time. -/
theorem stays_committed_iff (numeric : Numeric ν) (correlationId : String)
    (events : List (AuditCommand J)) (hone : OfCorrelation numeric correlationId events)
    (hcommitted : ∃ e ∈ events, ∃ now input, e.toInput numeric now = .ok input ∧
      input.transferState = some .committed) :
    StaysCommitted numeric correlationId events ↔
      OnlyCommitted numeric events ∧ CompleteAtOnce numeric events := by
  constructor
  · intro hstays
    exact ⟨onlyCommitted_of_state hone hcommitted hstays, completeAtOnce_of_order hone hstays⟩
  · rintro ⟨honly, honce⟩
    constructor
    · intro ds₁ ds₂ hds h
      exact state_of_onlyCommitted hone honly hds h
    · intro ds₁ ds₂ hds h
      rw [completed_iff] at h ⊢
      exact state_of_onlyCommitted hone honly hds h
    · intro ds ds' hds hds'
      refine Prod.ext ?_ ?_
      · apply register_transferState.rowAfter_eq _ hone _ hds hds'
        · intro e now now' input hinput
          obtain ⟨input', hinput', hstate, -⟩ := toInput_at hinput now'
          exact ⟨input', hinput', congrArg Option.isSome hstate⟩
        · intro e he e' he' now now' input input' hinput hinput' state hstate state' hstate'
          rw [honly e he now input hinput state hstate,
            honly e' he' now' input' hinput' state' hstate']
      · apply register_completedAt.rowAfter_eq _ hone honce hds hds'
        intro e now now' input hinput
        obtain ⟨input', hinput', -, hcompleted⟩ := toInput_at hinput now'
        exact ⟨input', hinput', hcompleted⟩

def sampleTransfer : TransfersPostRequest where
  transferId := some "T"
  payeeFsp := some "payee"
  payerFsp := some "payer"
  amount := some ⟨"USD", "10"⟩
  ilpPacket := none
  condition := none
  expiration := none
  extensionList := none

/-- The payee's connector has reserved the transfer. -/
def reservedEvent : AuditCommand PublishedJson := .transfersResponse
  { correlationId := "T", payerFsp := "payer", payeeFsp := "payee", gateway := .connector
    occurredAt := some 10, request := some (.post sampleTransfer)
    response := some ⟨some "fulfilment", none, .reserved, none⟩ }

/-- The hub has committed it. -/
def committedEvent : AuditCommand PublishedJson := .transfersResponse
  { correlationId := "T", payerFsp := "payer", payeeFsp := "payee", gateway := .outbound
    occurredAt := some 20, request := some (.post sampleTransfer)
    response := some ⟨some "fulfilment", none, .committed, none⟩ }

theorem isPublished_reservedEvent : IsPublished reservedEvent :=
  .connector (.ofResponse .transfers .connector
    { correlationId := "T", payerFsp := "payer", payeeFsp := "payee", occurredAt := 10
      request := some (.transfers sampleTransfer)
      response := some (.transfers ⟨some "fulfilment", none, .reserved, none⟩) }) rfl

theorem isPublished_committedEvent : IsPublished committedEvent :=
  .outbound (.ofResponse .transfers .outbound
    { correlationId := "T", payerFsp := "payer", payeeFsp := "payee", occurredAt := 20
      request := some (.transfers sampleTransfer)
      response := some (.transfers ⟨some "fulfilment", none, .committed, none⟩) }) rfl

theorem ofCorrelation_sample {event : AuditCommand PublishedJson}
    (h : event = reservedEvent ∨ event = committedEvent) :
    OfCorrelation sampleNumeric "T" [event] := by
  intro e he now input hinput
  rw [List.mem_singleton.mp he] at hinput
  rcases h with rfl | rfl
  · cases hinput
    rfl
  · cases hinput
    rfl

/-- The request of the transfer, before it is answered. -/
def requestedEvent : AuditCommand PublishedJson := .transfersRequest
  { correlationId := "T", payerFsp := "payer", payeeFsp := "payee", gateway := .outbound
    occurredAt := some 10, request := some (.post sampleTransfer) }

/-- The request may be delivered again after the answer. -/
theorem stays_committed_sample :
    StaysCommitted sampleNumeric "T" [requestedEvent, committedEvent] := by
  have hinputs : ∀ e ∈ [requestedEvent, committedEvent], ∀ now input,
      e.toInput sampleNumeric now = .ok input → input.correlationId = "T" ∧
        (∀ state ∈ input.transferState, state = .committed) ∧
        ∀ t ∈ input.transactionCompletedAt, t = 20 := by
    intro e he now input hinput
    simp only [List.mem_cons, List.not_mem_nil, or_false] at he
    rcases he with rfl | rfl <;> cases hinput <;> refine ⟨rfl, ?_, ?_⟩ <;> rintro _ ⟨⟩ <;> rfl
  refine (stays_committed_iff sampleNumeric "T" _ ?_ ?_).mpr ⟨?_, ?_⟩
  · exact fun e he now input hinput => (hinputs e he now input hinput).1
  · exact ⟨committedEvent, by simp, 0, _, rfl, rfl⟩
  · exact fun e he now input hinput => (hinputs e he now input hinput).2.1
  · intro e he e' he' now now' input input' hinput hinput' t ht t' ht'
    rw [(hinputs e he now input hinput).2.2 t ht, (hinputs e' he' now' input' hinput').2.2 t' ht']

/-- The connector's event is delivered again after the hub has committed the transfer: it is
reserved again, and pending for whoever asks. -/
theorem not_stays_committed : ¬ ∀ events : List (AuditCommand PublishedJson),
    (∀ e ∈ events, IsPublished e) → OfCorrelation sampleNumeric "T" events →
    (∃ e ∈ events, ∃ now input, e.toInput sampleNumeric now = .ok input ∧
      input.transferState = some .committed) →
    StaysCommitted sampleNumeric "T" events := by
  intro h
  have hpublished : ∀ e ∈ [reservedEvent, committedEvent], IsPublished e := by
    simp [isPublished_reservedEvent, isPublished_committedEvent]
  have hone : OfCorrelation sampleNumeric "T" [reservedEvent, committedEvent] := by
    intro e he
    rcases List.mem_cons.mp he with rfl | he
    · exact ofCorrelation_sample (Or.inl rfl) _ (List.mem_singleton.mpr rfl)
    · exact ofCorrelation_sample (Or.inr rfl) _ he
  have hstays := h _ hpublished hone ⟨committedEvent, by simp, 0, _, rfl, rfl⟩
  have honly : DeliversOnly [reservedEvent, committedEvent]
      ([⟨reservedEvent, 1, 11, 11⟩, ⟨committedEvent, 2, 21, 21⟩] ++ [⟨reservedEvent, 3, 31, 31⟩]) := by
    simp [DeliversOnly]
  have hstatus := hstays.status _ _ honly (by decide)
  exact absurd hstatus (by decide)

end Committed

section Parties

/-- The columns of the payer or of the payee. -/
def TransactionColumns.party (t : TransactionColumns J ν) : TransactionInitiator → PartyColumns
  | .payer => t.payer
  | .payee => t.payee

def PartyColumns.isKnown (c : PartyColumns) : Bool := !Js.blank (some c.fsp)

/-- Once a party's FSP is known, it stays known. -/
def StaysKnown (numeric : Numeric ν) (correlationId : String) (events : List (AuditCommand J)) :
    Prop :=
  ∀ role ds₁ ds₂, DeliversOnly events (ds₁ ++ ds₂) →
    (∃ t ∈ rowAfter numeric correlationId ds₁, (t.party role).isKnown = true) →
    ∃ t ∈ rowAfter numeric correlationId (ds₁ ++ ds₂), (t.party role).isKnown = true

/-- Where one event names the FSP and another leaves it blank, the first carries an identifier of
the party and the second does not. -/
def BlankWithoutId (numeric : Numeric ν) (events : List (AuditCommand J)) : Prop :=
  ∀ role, ∀ e ∈ events, ∀ e' ∈ events, ∀ now now' input input',
    e.toInput numeric now = .ok input → e'.toInput numeric now' = .ok input' →
    (input.party role).isKnown = true → (input'.party role).isKnown = false →
    (input.party role).id.isSome = true ∧ (input'.party role).id = none

theorem party_merge (old values : Transaction J ν) (role : TransactionInitiator) :
    (old.merge values).party role = (old.party role).merge (values.party role) := by
  cases role <;> rfl

/-- A known FSP is kept, or replaced by another, unless the event leaves it blank and either names
the party or meets a row that does not. -/
theorem PartyColumns.isKnown_merge {old : PartyColumns} (values : PartyColumns) (hold : old.isKnown = true) :
    (old.merge values).isKnown = true ↔
      values.isKnown = true ∨ (old.id.isSome = true ∧ values.id = none) := by
  have hfsp : (old.merge values).isKnown =
      if old.id.isSome && values.id.isNone then old.isKnown else values.isKnown := by
    simp only [merge, mergeFsp, isKnown]
    split <;> rfl
  rw [hfsp]
  cases hid : old.id.isSome <;> cases hvalues : values.id <;> simp [hold]

/-- A row whose FSP is known names the party, if some event of the run leaves the FSP blank. -/
def NamesParty (numeric : Numeric ν) (events : List (AuditCommand J)) (role : TransactionInitiator)
    (row : Option (Transaction J ν)) : Prop :=
  ∀ t ∈ row, (t.party role).isKnown = true →
    ∀ e ∈ events, ∀ now input, e.toInput numeric now = .ok input →
      (input.party role).isKnown = false →
      (t.party role).id.isSome = true ∧ (input.party role).id = none

theorem namesParty_upsert (hblank : BlankWithoutId numeric events) {role : TransactionInitiator}
    {e : AuditCommand J} (he : e ∈ events) {now : Js.Date} {input : UpsertInput J ν}
    (hinput : e.toInput numeric now = .ok input) {row : Option (Transaction J ν)}
    (hrow : NamesParty numeric events role row) (id : ℕ) (updatedAt : Js.Date) :
    NamesParty numeric events role (some (TransactionRepository.upsert row input id updatedAt)) := by
  intro t ht hknown e' he' now' input' hinput' hunknown
  rw [Option.mem_def, Option.some.injEq] at ht
  subst ht
  have hnamed : (input.party role).isKnown = true →
      (input.party role).id.isSome = true ∧ (input'.party role).id = none := fun h =>
    hblank role e he e' he' now now' input input' hinput hinput' h hunknown
  cases row with
  | none =>
    have hvalues : (TransactionRepository.upsert none input id updatedAt).party role =
        input.party role := by cases role <;> rfl
    rw [hvalues] at hknown ⊢
    exact hnamed hknown
  | some old =>
    have hmerge : (TransactionRepository.upsert (some old) input id updatedAt).party role =
        (old.party role).merge (input.party role) := party_merge old _ role
    rw [hmerge] at hknown ⊢
    by_cases hinputKnown : (input.party role).isKnown = true
    · obtain ⟨hid, hnone⟩ := hnamed hinputKnown
      refine ⟨?_, hnone⟩
      simp only [PartyColumns.merge, coalesce]
      cases h : (input.party role).id <;> simp_all
    · have hkept : ((old.party role).id.isSome && (input.party role).id.isNone) = true := by
        by_contra hreplaced
        simp only [PartyColumns.isKnown, PartyColumns.merge, PartyColumns.mergeFsp, hreplaced]
          at hknown
        exact hinputKnown hknown
      have holdKnown : (old.party role).isKnown = true := by
        simpa only [PartyColumns.isKnown, PartyColumns.merge, PartyColumns.mergeFsp, hkept, if_true]
          using hknown
      obtain ⟨hid, hnone⟩ := hrow old rfl holdKnown e' he' now' input' hinput' hunknown
      refine ⟨?_, hnone⟩
      simp only [PartyColumns.merge, coalesce]
      cases (input.party role).id <;> simp [hid]

/-- The FSPs of the parties are never forgotten, exactly if an event that leaves one blank carries
no identifier of the party while every event that names it does. -/
theorem stays_known_iff (numeric : Numeric ν) (correlationId : String)
    (events : List (AuditCommand J)) (hone : OfCorrelation numeric correlationId events) :
    StaysKnown numeric correlationId events ↔ BlankWithoutId numeric events := by
  constructor
  · intro hstays role e he e' he' now now' input input' hinput hinput' hknown hunknown
    have honly : DeliversOnly events ([⟨e, 0, now, 0⟩] ++ [⟨e', 1, now', 0⟩]) := by
      simpa [DeliversOnly] using ⟨he, he'⟩
    have hfirst : rowAfter numeric correlationId [⟨e, 0, now, 0⟩] =
        some (input.values 0 0) := by
      rw [rowAfter, List.foldl_cons, List.foldl_nil, ingest_of_correlation hone he, hinput]
      rfl
    have hboth : rowAfter numeric correlationId ([⟨e, 0, now, 0⟩] ++ [⟨e', 1, now', 0⟩]) =
        some ((input.values 0 0).merge (input'.values 1 0)) := by
      rw [rowAfter_append, List.foldl_cons, List.foldl_nil, ingest_of_correlation hone he', hinput']
      exact congrArg (fun row => some (TransactionRepository.upsert row input' 1 0)) hfirst
    obtain ⟨t, ht, hstill⟩ := hstays role _ _ honly ⟨_, hfirst, by cases role <;> exact hknown⟩
    rw [hboth, Option.mem_def, Option.some.injEq] at ht
    subst ht
    have hkept := (PartyColumns.isKnown_merge (input'.party role) hknown).mp
      (by cases role <;> exact hstill)
    rcases hkept with h | h
    · simp [hunknown] at h
    · exact h
  · intro hblank role ds₁ ds₂ hds h
    obtain ⟨honly₁, honly₂⟩ := deliversOnly_append.mp hds
    have hnames : NamesParty numeric events role (rowAfter numeric correlationId ds₁) := by
      apply run_keeps hone _ _ honly₁
      · intro e he now input hinput row id updatedAt hrow
        exact namesParty_upsert hblank he hinput hrow id updatedAt
      · simp [NamesParty]
    rw [rowAfter_append]
    refine (run_keeps (P := fun row => (∃ t ∈ row, (t.party role).isKnown = true) ∧
      NamesParty numeric events role row) hone ?_ ⟨h, hnames⟩ honly₂).1
    rintro e he now input hinput row id updatedAt ⟨⟨t, ht, hknown⟩, hrow⟩
    refine ⟨⟨_, rfl, ?_⟩, namesParty_upsert hblank he hinput hrow id updatedAt⟩
    rw [Option.mem_def] at ht
    subst ht
    have hmerge : (TransactionRepository.upsert (some t) input id updatedAt).party role =
        (t.party role).merge (input.party role) := party_merge t _ role
    rw [hmerge, PartyColumns.isKnown_merge _ hknown]
    by_cases hinputKnown : (input.party role).isKnown = true
    · exact Or.inl hinputKnown
    · right
      exact hrow t rfl hknown e he now input hinput (by simpa using hinputKnown)

/-- The payer asks for a payee whose FSP it does not know. -/
def sampleSendMoney : SendMoneyRequest where
  homeTransactionId := "home"
  fromParty := ⟨none, some .msisdn, "1", none, none, none, none, none, none, none, some "payer", none⟩
  toParty := ⟨none, some .msisdn, "2", none, none, none, none, none, none, none, none, none⟩
  amountType := .send
  currency := "USD"
  amount := "10"
  transactionType := .transfer
  subScenario := "sub"
  note := none
  payer_identified := ⟨"payer", rfl, by decide⟩
  payee_typed := rfl

/-- The lookup, as its request is audited. -/
def lookupEvent : AuditCommand PublishedJson := .partiesRequest
  { correlationId := "T", payerFsp := "payer", payeeFsp := "", gateway := .outbound
    occurredAt := some 10, payerIdType := some .msisdn, payerId := some "1", payerSubId := none
    payeeIdType := some .msisdn, payeeId := some "2", payeeSubId := none
    transactionType := some .transfer, subScenario := some "sub"
    request := some (.partiesRequest ⟨.msisdn, "2", none⟩)
    payerHomeTransactionId := some "home", quotingCurrency := some "USD"
    quotingAmount := some "10", amountType := some .send }

/-- The same lookup, as its answer is audited. -/
def foundEvent : AuditCommand PublishedJson := .partiesResponse
  { correlationId := "T", payerFsp := "payer", payeeFsp := "payee", gateway := .outbound
    occurredAt := some 20, payerIdType := some .msisdn, payerId := some "1", payerSubId := none
    payeeIdType := some .msisdn, payeeId := some "2", payeeSubId := none
    response := some ⟨⟨some ⟨some .msisdn, "2", none, some "payee", none⟩, none, none, none, none⟩⟩ }

theorem isPublished_lookupEvent : IsPublished lookupEvent :=
  .parties (.ofRequest .parties .outbound
    (PostSendMoneyHandler.requestContent "T" "payer" "" sampleSendMoney 10)) (by decide)

theorem isPublished_foundEvent : IsPublished foundEvent :=
  .parties (.ofResponse .parties .outbound
    { PostSendMoneyHandler.auditContent "T" "payer" "payee" sampleSendMoney 20 with
      response := some
        ⟨⟨some ⟨some .msisdn, "2", none, some "payee", none⟩, none, none, none, none⟩⟩ }) (by decide)

/-- The connector asks for the patch of a payee that it does not name. -/
def unnamedEvent : AuditCommand PublishedJson := .patchRequest
  { correlationId := "T", payerFsp := "payer", payeeFsp := "", gateway := .connector
    occurredAt := some 30 }

/-- An event that leaves the payee blank has no identifier of it. -/
theorem stays_known_sample : StaysKnown sampleNumeric "T" [foundEvent, unnamedEvent] := by
  refine (stays_known_iff sampleNumeric "T" _ ?_).mpr ?_
  · intro e he now input hinput
    simp only [List.mem_cons, List.not_mem_nil, or_false] at he
    rcases he with rfl | rfl <;> cases hinput <;> rfl
  · have hnow : ∀ e ∈ [foundEvent, unnamedEvent], ∀ now,
        e.toInput sampleNumeric now = e.toInput sampleNumeric 0 := by
      intro e he now
      apply AuditCommand.toInput_congr
      simp only [List.mem_cons, List.not_mem_nil, or_false] at he
      rcases he with rfl | rfl <;> rfl
    intro role e he e' he' now now' input input' hinput hinput' hknown hunknown
    rw [hnow e he] at hinput
    rw [hnow e' he'] at hinput'
    simp only [List.mem_cons, List.not_mem_nil, or_false] at he he'
    rcases he with rfl | rfl <;> rcases he' with rfl | rfl <;> cases hinput <;> cases hinput' <;>
      cases role <;> revert hknown hunknown <;> decide

/-- The request of the lookup is delivered again after its answer: the payee's FSP is blank. -/
theorem not_stays_known : ¬ ∀ events : List (AuditCommand PublishedJson),
    (∀ e ∈ events, IsPublished e) → OfCorrelation sampleNumeric "T" events →
    StaysKnown sampleNumeric "T" events := by
  intro h
  have hpublished : ∀ e ∈ [lookupEvent, foundEvent], IsPublished e := by
    simp [isPublished_lookupEvent, isPublished_foundEvent]
  have hone : OfCorrelation sampleNumeric "T" [lookupEvent, foundEvent] := by
    intro e he now input hinput
    simp only [List.mem_cons, List.not_mem_nil, or_false] at he
    rcases he with rfl | rfl
    · cases hinput
      rfl
    · cases hinput
      rfl
  have honly : DeliversOnly [lookupEvent, foundEvent]
      ([⟨lookupEvent, 1, 11, 11⟩, ⟨foundEvent, 2, 21, 21⟩] ++ [⟨lookupEvent, 3, 31, 31⟩]) := by
    simp [DeliversOnly]
  have hstill := h _ hpublished hone .payee _ _ honly (by decide)
  exact absurd hstill (by decide)

end Parties

end Audit
