import Mathlib
import Pivotal.Audit.Mapper

/-! Deliveries of audit events to `transactions`. A stream delivers at least once and in any
order; the columns that are merged by a join do not notice. -/
namespace Audit
open Fspiop Store

variable {J ν : Type}

/-- One delivery of an event: the clock that the mapper and the upsert read, and the `id` that the
database would allocate. -/
structure Delivery (J : Type) where
  command : AuditCommand J
  id : ℕ
  resolvedAt : Js.Date
  updatedAt : Js.Date

/-- The rows, by their unique `correlation_id`. -/
abbrev Transactions (J ν : Type) : Type := String → Option (Transaction J ν)

/-- A command whose input cannot be made upserts nothing. -/
def ingest (numeric : Numeric ν) (table : Transactions J ν) (d : Delivery J) :
    Transactions J ν :=
  match d.command.toInput numeric d.resolvedAt with
  | .error _ => table
  | .ok input =>
    let row := TransactionRepository.upsert (table input.correlationId) input d.id d.updatedAt
    Function.update table input.correlationId (some row)

/-- The columns that are merged by a join, each in the order in which it only grows. -/
abbrev MergedColumns : Type :=
  Bool × Bool × WithBot ℕ × Js.Dateᵒᵈ × Js.Dateᵒᵈ ×
    (InvocationPhase → Option InvocationGateway → WithBot Js.Dateᵒᵈ) ×
    (InvocationPhase → Option InvocationGateway → WithBot Js.Date)

namespace Transaction

def merged (t : Transaction J ν) : MergedColumns :=
  (t.error, t.possibleDispute, latest t.flow, OrderDual.toDual t.transactionStartedAt,
    OrderDual.toDual t.createdAt, fun phase gateway => earliest (t.requestedAt phase gateway),
    fun phase gateway => latest (t.respondedAt phase gateway))

/-- Two rows with the same values in these columns. -/
structure SameMerged (t t' : Transaction J ν) : Prop where
  error : t.error = t'.error
  possibleDispute : t.possibleDispute = t'.possibleDispute
  flow : t.flow = t'.flow
  transactionStartedAt : t.transactionStartedAt = t'.transactionStartedAt
  createdAt : t.createdAt = t'.createdAt
  requestedAt : ∀ phase gateway, t.requestedAt phase gateway = t'.requestedAt phase gateway
  respondedAt : ∀ phase gateway, t.respondedAt phase gateway = t'.respondedAt phase gateway

theorem sameMerged_of_merged {t t' : Transaction J ν} (h : t.merged = t'.merged) :
    t.SameMerged t' := by
  simp only [merged, Prod.mk.injEq] at h
  obtain ⟨herror, hdispute, hflow, hstarted, hcreated, hrequested, hresponded⟩ := h
  constructor
  · exact herror
  · exact hdispute
  · exact latest_injective hflow
  · exact OrderDual.toDual.injective hstarted
  · exact OrderDual.toDual.injective hcreated
  · intro phase gateway
    exact earliest_injective (congrFun (congrFun hrequested phase) gateway)
  · intro phase gateway
    exact latest_injective (congrFun (congrFun hresponded phase) gateway)

theorem merged_merge (old values : Transaction J ν) :
    (old.merge values).merged = old.merged ⊔ values.merged := by
  have hrequested : (fun phase gateway => earliest ((old.merge values).requestedAt phase gateway)) =
      (fun phase gateway => earliest (old.requestedAt phase gateway)) ⊔
        fun phase gateway => earliest (values.requestedAt phase gateway) := by
    funext phase gateway
    rw [requestedAt_merge, earliest_least]
    rfl
  have hresponded : (fun phase gateway => latest ((old.merge values).respondedAt phase gateway)) =
      (fun phase gateway => latest (old.respondedAt phase gateway)) ⊔
        fun phase gateway => latest (values.respondedAt phase gateway) := by
    funext phase gateway
    rw [respondedAt_merge, latest_greatest]
    rfl
  have hflow : latest (old.merge values).flow = latest old.flow ⊔ latest values.flow :=
    latest_greatest old.flow values.flow
  simp only [merged, hrequested, hresponded, hflow]
  rfl

end Transaction

/-- The merged columns of a row, below all of which is the absence of the row. -/
def mergedAt (table : Transactions J ν) (correlationId : String) : WithBot MergedColumns :=
  (table correlationId).map Transaction.merged

/-- What a delivery brings to the row of a correlation. -/
def brings (numeric : Numeric ν) (correlationId : String) (d : Delivery J) :
    WithBot MergedColumns :=
  match d.command.toInput numeric d.resolvedAt with
  | .error _ => ⊥
  | .ok input =>
    if input.correlationId = correlationId then (input.values d.id d.updatedAt).merged else ⊥

theorem mergedAt_ingest (numeric : Numeric ν) (correlationId : String) (table : Transactions J ν)
    (d : Delivery J) : mergedAt (ingest numeric table d) correlationId =
      mergedAt table correlationId ⊔ brings numeric correlationId d := by
  unfold ingest brings
  cases d.command.toInput numeric d.resolvedAt with
  | error e => simp
  | ok input =>
    by_cases hid : input.correlationId = correlationId
    · subst hid
      cases hrow : table input.correlationId with
      | none =>
        simp only [mergedAt, hrow, TransactionRepository.upsert, Function.update_self, if_true]
        exact (sup_eq_right.mpr bot_le).symm
      | some old =>
        simp only [mergedAt, hrow, TransactionRepository.upsert, Function.update_self, if_true]
        exact congrArg some (Transaction.merged_merge old (input.values d.id d.updatedAt))
    · simp only [mergedAt, hid, Function.update_of_ne (Ne.symm hid), if_false]
      exact (sup_eq_left.mpr bot_le).symm

theorem brings_congr (numeric : Numeric ν) (correlationId : String) {d d' : Delivery J}
    (hcommand : d.command = d'.command) (hoccurred : d.command.occurredAt.isSome = true) :
    brings numeric correlationId d = brings numeric correlationId d' := by
  have hinput := AuditCommand.toInput_congr (ν := ν) numeric hoccurred d.resolvedAt d'.resolvedAt
  unfold brings
  rw [← hcommand, hinput]
  rfl

/-- However often and in whatever order the events are delivered, among events of other
correlations or alone, the columns merged by a join end up the same. -/
theorem merge_confluent (numeric : Numeric ν) (table : Transactions J ν)
    (deliveries deliveries' : List (Delivery J))
    (hoccurred : ∀ d ∈ deliveries, d.command.occurredAt.isSome = true)
    (hsame : ∀ command, command ∈ deliveries.map (·.command) ↔
      command ∈ deliveries'.map (·.command)) (correlationId : String) :
    Option.Rel Transaction.SameMerged (deliveries.foldl (ingest numeric) table correlationId)
      (deliveries'.foldl (ingest numeric) table correlationId) := by
  have hsub : ∀ d ∈ deliveries, ∃ d' ∈ deliveries',
      brings numeric correlationId d = brings numeric correlationId d' := by
    intro d hd
    obtain ⟨d', hd', hcommand⟩ := List.mem_map.mp ((hsame _).mp (List.mem_map_of_mem hd))
    exact ⟨d', hd', brings_congr numeric correlationId hcommand.symm (hoccurred d hd)⟩
  have hsub' : ∀ d' ∈ deliveries', ∃ d ∈ deliveries,
      brings numeric correlationId d' = brings numeric correlationId d := by
    intro d' hd'
    obtain ⟨d, hd, hcommand⟩ := List.mem_map.mp ((hsame _).mpr (List.mem_map_of_mem hd'))
    exact ⟨d, hd, (brings_congr numeric correlationId hcommand (hoccurred d hd)).symm⟩
  have hmerged := foldl_eq_of_brings (fun t => mergedAt t correlationId)
    (mergedAt_ingest numeric correlationId) (rfl : mergedAt table correlationId = _) hsub hsub'
  simp only [mergedAt] at hmerged
  cases hrow : deliveries.foldl (ingest numeric) table correlationId with
  | none =>
    cases hrow' : deliveries'.foldl (ingest numeric) table correlationId with
    | none => exact Option.Rel.none
    | some t' => simp [hrow, hrow'] at hmerged
  | some t =>
    cases hrow' : deliveries'.foldl (ingest numeric) table correlationId with
    | none => simp [hrow, hrow'] at hmerged
    | some t' =>
      rw [hrow, hrow'] at hmerged
      exact Option.Rel.some (Transaction.sameMerged_of_merged (Option.some.inj hmerged))

def sampleNumeric : Numeric ℤ where
  number text := (Js.parseBigInt text).getD 0
  isFinite _ := true

theorem merge_confluent_sample :
    let request : AuditCommand String := .patchRequest
      { correlationId := "T", payerFsp := "payer", payeeFsp := "payee", gateway := .connector
        occurredAt := some 5 }
    let error : AuditCommand String := .patchError
      { correlationId := "T", payerFsp := "payer", payeeFsp := "payee", gateway := .connector
        occurredAt := some 9, error := some "down" }
    Option.Rel Transaction.SameMerged
      ([⟨request, 1, 10, 11⟩, ⟨error, 2, 12, 13⟩].foldl (ingest sampleNumeric) (fun _ => none) "T")
      ([⟨error, 1, 20, 21⟩, ⟨request, 2, 22, 23⟩, ⟨error, 3, 24, 25⟩].foldl (ingest sampleNumeric)
        (fun _ => none) "T") := by
  intro request error
  apply merge_confluent
  · simp [request, error, AuditCommand.occurredAt]
  · intro command
    simp only [List.map_cons, List.map_nil, List.mem_cons, List.not_mem_nil, or_false]
    tauto

section Runs

/-- The row of a correlation after deliveries to an empty table. -/
def rowAfter (numeric : Numeric ν) (correlationId : String) (ds : List (Delivery J)) :
    Option (Transaction J ν) :=
  ds.foldl (ingest numeric) (fun _ => none) correlationId

/-- Every event is of this correlation. -/
def OfCorrelation (numeric : Numeric ν) (correlationId : String) (events : List (AuditCommand J)) :
    Prop :=
  ∀ e ∈ events, ∀ now input, e.toInput numeric now = .ok input →
    input.correlationId = correlationId

/-- No other events are delivered. -/
def DeliversOnly (events : List (AuditCommand J)) (ds : List (Delivery J)) : Prop :=
  ∀ d ∈ ds, d.command ∈ events

/-- Each of these events, and no other, is delivered at least once. -/
def Delivers (events : List (AuditCommand J)) (ds : List (Delivery J)) : Prop :=
  DeliversOnly events ds ∧ ∀ e ∈ events, ∃ d ∈ ds, d.command = e

variable {numeric : Numeric ν} {correlationId : String} {events : List (AuditCommand J)}

theorem ingest_of_correlation (hone : OfCorrelation numeric correlationId events) {d : Delivery J}
    (hd : d.command ∈ events) (table : Transactions J ν) :
    ingest numeric table d correlationId =
      match d.command.toInput numeric d.resolvedAt with
      | .error _ => table correlationId
      | .ok input =>
        some (TransactionRepository.upsert (table correlationId) input d.id d.updatedAt) := by
  unfold ingest
  cases hinput : d.command.toInput numeric d.resolvedAt with
  | error e => rfl
  | ok input =>
    have hid := hone d.command hd d.resolvedAt input hinput
    subst hid
    simp

/-- What every upsert of the events keeps, a run of them keeps. -/
theorem run_keeps (hone : OfCorrelation numeric correlationId events)
    {P : Option (Transaction J ν) → Prop}
    (hstep : ∀ e ∈ events, ∀ now input, e.toInput numeric now = .ok input →
      ∀ row id updatedAt, P row → P (some (TransactionRepository.upsert row input id updatedAt)))
    {table : Transactions J ν} (h : P (table correlationId)) {ds : List (Delivery J)}
    (hds : DeliversOnly events ds) : P (ds.foldl (ingest numeric) table correlationId) := by
  induction ds generalizing table with
  | nil => exact h
  | cons d ds ih =>
    have hd : d.command ∈ events := hds d List.mem_cons_self
    refine ih ?_ fun d' hd' => hds d' (List.mem_cons_of_mem _ hd')
    rw [ingest_of_correlation hone hd]
    cases hinput : d.command.toInput numeric d.resolvedAt with
    | error e => exact h
    | ok input => exact hstep _ hd _ _ hinput _ _ _ h

theorem rowAfter_append (ds₁ ds₂ : List (Delivery J)) :
    rowAfter numeric correlationId (ds₁ ++ ds₂) =
      ds₂.foldl (ingest numeric) (ds₁.foldl (ingest numeric) fun _ => none) correlationId :=
  congrFun List.foldl_append correlationId

theorem deliversOnly_append {ds₁ ds₂ : List (Delivery J)} :
    DeliversOnly events (ds₁ ++ ds₂) ↔ DeliversOnly events ds₁ ∧ DeliversOnly events ds₂ := by
  simp only [DeliversOnly, List.mem_append, or_imp, forall_and]

/-- A column that keeps the last value that is not `NULL`. -/
structure Register (α : Type) (column : Transaction J ν → Option α)
    (carried : UpsertInput J ν → Option α) : Prop where
  values : ∀ input id now, column (UpsertInput.values input id now) = carried input
  merge : ∀ old values, column (Transaction.merge old values) =
    coalesce (column values) (column old)

variable {α : Type} {column : Transaction J ν → Option α} {carried : UpsertInput J ν → Option α}

/-- What a delivery carries for the column. -/
def carriedBy (numeric : Numeric ν) (carried : UpsertInput J ν → Option α) (d : Delivery J) :
    Option α :=
  (d.command.toInput numeric d.resolvedAt).toOption.bind carried

theorem Register.upsert (h : Register α column carried) (row : Option (Transaction J ν))
    (input : UpsertInput J ν) (id : ℕ) (now : Js.Date) :
    column (TransactionRepository.upsert row input id now) =
      coalesce (carried input) (row.bind column) := by
  cases row with
  | none => simp [TransactionRepository.upsert, h.values, coalesce]
  | some old => simp [TransactionRepository.upsert, h.values, h.merge]

theorem Register.rowAfter (h : Register α column carried)
    (hone : OfCorrelation numeric correlationId events) {ds : List (Delivery J)}
    (hds : DeliversOnly events ds) : (Audit.rowAfter numeric correlationId ds).bind column =
      (ds.filterMap (carriedBy numeric carried)).getLast? := by
  induction ds using List.reverseRecOn with
  | nil => rfl
  | append_singleton ds d ih =>
    obtain ⟨hbefore, hlast⟩ := deliversOnly_append.mp hds
    have hd : d.command ∈ events := hlast d List.mem_cons_self
    rw [rowAfter_append, List.foldl_cons, List.foldl_nil, ingest_of_correlation hone hd,
      List.filterMap_append]
    have hrow := ih hbefore
    rw [Audit.rowAfter] at hrow
    cases hinput : d.command.toInput numeric d.resolvedAt with
    | error e => simp [carriedBy, hinput, hrow, Except.toOption]
    | ok input =>
      rw [Option.bind_some, h.upsert, hrow]
      cases hcarried : carried input <;> simp [carriedBy, hinput, hcarried, Except.toOption]

end Runs

end Audit
