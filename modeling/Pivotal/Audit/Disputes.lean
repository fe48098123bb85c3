import Pivotal.Audit.Ingestion

/-! Disputes are raised by hand and by failed notifications, and resolved by hand, while events go
on being ingested. -/
namespace Audit
open Fspiop Store

variable {J ν : Type}

/-- The statements on a row that commit at once. -/
inductive Write (J ν : Type) where
  | upsert (input : UpsertInput J ν) (id : ℕ) (now : Js.Date)
  | resolveDispute (occurredAt now : Js.Date)

def Write.run (row : Option (Transaction J ν)) : Write J ν → Option (Transaction J ν)
  | .upsert input id now => some (TransactionRepository.upsert row input id now)
  | .resolveDispute occurredAt now => TransactionRepository.resolveDispute row occurredAt now

namespace TransactionRepository

/-- The end of `dispute`, with what it read at its beginning. The ORM's `save` writes every column
in which the entity differs from the row, and so makes the row the entity. -/
def saveDisputed (read row : Option (Transaction J ν)) (now : Js.Date) :
    Option (Transaction J ν) :=
  match read with
  | none => row
  | some existing => some (disputed existing now)

/-- `dispute`, with nothing between its read and its write. -/
def dispute (row : Option (Transaction J ν)) (now : Js.Date) : Option (Transaction J ν) :=
  saveDisputed row row now

end TransactionRepository

section Interleaving

open TransactionRepository

/-- `dispute` reads after the writes `earlier` and saves after the writes `between`. -/
def interleaved (row : Option (Transaction J ν)) (earlier between later : List (Write J ν))
    (now : Js.Date) : Option (Transaction J ν) :=
  let read := earlier.foldl Write.run row
  later.foldl Write.run (saveDisputed read (between.foldl Write.run read) now)

/-- The same as one of the operations, in some order. -/
def serial (row : Option (Transaction J ν)) (before after : List (Write J ν)) (now : Js.Date) :
    Option (Transaction J ν) :=
  after.foldl Write.run (dispute (before.foldl Write.run row) now)

/-- Two rows that differ at most in what `dispute` means to change. -/
structure SameButDispute (t t' : Transaction J ν) : Prop where
  columns : t.toTransactionColumns = t'.toTransactionColumns
  id : t.id = t'.id
  disputeResolvedAt : t.disputeResolvedAt = t'.disputeResolvedAt
  createdAt : t.createdAt = t'.createdAt

theorem SameButDispute.disputed {t t' : Transaction J ν} (h : SameButDispute t t')
    (now : Js.Date) : disputed t now = disputed t' now := by
  cases t
  cases t'
  cases h
  simp_all [TransactionRepository.disputed]

/-- The update is not lost in either direction: whatever is written later, the row ends as in a
serial order, and the save leaves what others wrote. -/
structure LosesNothing (row : Option (Transaction J ν)) (earlier between : List (Write J ν))
    (now : Js.Date) : Prop where
  serial : ∀ later, ∃ before after, before ++ after = earlier ++ (between ++ later) ∧
    interleaved row earlier between later now = serial row before after now
  kept : ∀ current ∈ (earlier ++ between).foldl Write.run row,
    ∀ saved ∈ interleaved row earlier between [] now, SameButDispute current saved

/-- `dispute` saves over a row that is still as it was read. -/
def StillAsRead (row : Option (Transaction J ν)) (earlier between : List (Write J ν)) : Prop :=
  ∀ existing ∈ earlier.foldl Write.run row,
    ∀ current ∈ (earlier ++ between).foldl Write.run row, SameButDispute existing current

theorem Write.run_isSome {row : Option (Transaction J ν)} (h : row.isSome = true) (w : Write J ν) :
    (w.run row).isSome = true := by
  cases w with
  | upsert input id now => rfl
  | resolveDispute occurredAt now => simpa [Write.run, TransactionRepository.resolveDispute] using h

theorem foldl_run_isSome {row : Option (Transaction J ν)} (h : row.isSome = true)
    (ws : List (Write J ν)) : (ws.foldl Write.run row).isSome = true := by
  induction ws generalizing row with
  | nil => exact h
  | cons w ws ih => exact ih (Write.run_isSome h w)

theorem saveDisputed_of_stillAsRead {row : Option (Transaction J ν)}
    {earlier between : List (Write J ν)} (h : StillAsRead row earlier between) (now : Js.Date) :
    saveDisputed (earlier.foldl Write.run row)
      (between.foldl Write.run (earlier.foldl Write.run row)) now =
    serial row (if (earlier.foldl Write.run row).isSome then earlier ++ between else earlier)
      (if (earlier.foldl Write.run row).isSome then [] else between) now := by
  cases hread : earlier.foldl Write.run row with
  | none => simp [serial, hread, dispute, saveDisputed]
  | some existing =>
    have hsome : (between.foldl Write.run (some existing)).isSome = true :=
      foldl_run_isSome rfl between
    obtain ⟨current, hcurrent⟩ := Option.isSome_iff_exists.mp hsome
    have hall : (earlier ++ between).foldl Write.run row = some current := by
      rw [List.foldl_append, hread, hcurrent]
    have hsame := h existing hread current hall
    simp only [serial, Option.isSome_some, if_true, List.foldl_nil, hall, dispute, saveDisputed]
    rw [hsame.disputed now]

/-- Nothing is lost between `dispute` and the writes of others, exactly if those that come between
its read and its save leave the row as it was read. -/
theorem loses_nothing_iff (row : Option (Transaction J ν)) (earlier between : List (Write J ν))
    (now : Js.Date) :
    LosesNothing row earlier between now ↔ StillAsRead row earlier between := by
  constructor
  · rintro ⟨-, hkept⟩ existing hexisting current hcurrent
    rw [Option.mem_def] at hexisting
    have hsaved : disputed existing now ∈ interleaved row earlier between [] now := by
      simp [interleaved, hexisting, saveDisputed]
    have hsame := hkept current hcurrent _ hsaved
    exact ⟨hsame.columns.symm, hsame.id.symm, hsame.disputeResolvedAt.symm, hsame.createdAt.symm⟩
  · intro h
    have hsave := saveDisputed_of_stillAsRead h now
    constructor
    · intro later
      by_cases hread : (earlier.foldl Write.run row).isSome = true
      · refine ⟨earlier ++ between, later, List.append_assoc _ _ _, ?_⟩
        simp only [hread, if_true] at hsave
        rw [interleaved, hsave]
        rfl
      · refine ⟨earlier, between ++ later, rfl, ?_⟩
        simp only [hread, Bool.false_eq_true, if_false] at hsave
        rw [interleaved, hsave, serial, serial, List.foldl_append]
    · intro current hcurrent saved hsaved
      rw [Option.mem_def] at hcurrent hsaved
      cases hread : earlier.foldl Write.run row with
      | none =>
        rw [List.foldl_append, hread] at hcurrent
        simp only [interleaved, hread, saveDisputed, List.foldl_nil, hcurrent,
          Option.some.injEq] at hsaved
        rw [hsaved]
        exact ⟨rfl, rfl, rfl, rfl⟩
      | some existing =>
        have hsame := h existing hread current hcurrent
        simp only [interleaved, hread, saveDisputed, List.foldl_nil, Option.some.injEq] at hsaved
        rw [← hsaved]
        exact ⟨hsame.columns.symm, hsame.id.symm, hsame.disputeResolvedAt.symm,
          hsame.createdAt.symm⟩

def sampleInput : UpsertInput String ℤ where
  correlationId := "T"
  payer := { fsp := "payer" }
  payee := { fsp := "payee" }
  transactionStartedAt := 0
  error := false

/-- The transfer is committed while `dispute` is under way, and no longer is when that ends. -/
theorem not_loses_nothing : ¬ ∀ (row : Option (Transaction String ℤ)) earlier between now,
    LosesNothing row earlier between now := by
  intro h
  let committed : UpsertInput String ℤ := { sampleInput with transferState := some .committed }
  have hkept := (h none [.upsert sampleInput 1 0] [.upsert committed 2 5] 6).kept
    ((sampleInput.values 1 0).merge (committed.values 2 5)) rfl
    (disputed (sampleInput.values 1 0) 6) rfl
  have hstate := congrArg TransactionColumns.transferState hkept.columns
  simp [committed, sampleInput, UpsertInput.values, Transaction.merge, TransactionColumns.merge,
    disputed] at hstate

end Interleaving

section Resolution

variable (numeric : Numeric ν) (correlationId : String)

/-- What can happen to the row of a transaction. -/
inductive DisputeStep (J : Type) where
  | deliver (d : Delivery J)
  | dispute (now : Js.Date)
  | resolve (occurredAt now : Js.Date)

def DisputeStep.run (table : Transactions J ν) : DisputeStep J → Transactions J ν
  | .deliver d => ingest numeric table d
  | .dispute now => Function.update table correlationId
      (TransactionRepository.dispute (table correlationId) now)
  | .resolve occurredAt now => Function.update table correlationId
      (TransactionRepository.resolveDispute (table correlationId) occurredAt now)

/-- The rows after a run that ends in a resolution. -/
def resolvedAfter (table : Transactions J ν) (steps : List (DisputeStep J))
    (occurredAt now : Js.Date) : Transactions J ν :=
  DisputeStep.run numeric correlationId (steps.foldl (DisputeStep.run numeric correlationId) table)
    (.resolve occurredAt now)

inductive DisputeLabel where
  | resolved | dispute | noDispute
  deriving DecidableEq

/-- What the portal displays. -/
def disputeLabel (t : Transaction J ν) : DisputeLabel :=
  if t.disputeResolvedAt.isSome then .resolved
  else if t.possibleDispute then .dispute
  else .noDispute

/-- What is known of the dispute. -/
def disputeStatus (row : Option (Transaction J ν)) : Option (Bool × DisputeLabel) :=
  row.map fun t => (t.possibleDispute, disputeLabel t)

/-- The event reports that the notification of this transaction failed. -/
def AuditCommand.reportsFailure : AuditCommand J → Bool
  | .patchError input => input.error.isSome && input.correlationId = correlationId
  | _ => false

variable {numeric correlationId}

theorem reportsFailure_iff {e : AuditCommand J} {now : Js.Date} {input : UpsertInput J ν}
    (h : e.toInput numeric now = .ok input) : e.reportsFailure correlationId =
      (input.possibleDispute.getD false && input.correlationId = correlationId) := by
  open AuditTransactionMapper in
  cases e with
  | quotesRequest command =>
    simp only [AuditCommand.toInput, toQuotesRequestInput, toQuotesInput] at h
    cases hamount : toAmount command.request with
    | error e => cases hamount ▸ h
    | ok amount =>
      cases hamount ▸ h
      rfl
  | quotesResponse command =>
    simp only [AuditCommand.toInput, toQuotesResponseInput, toQuotesInput] at h
    cases hamount : toAmount command.request with
    | error e => cases hamount ▸ h
    | ok amount =>
      cases hamount ▸ h
      rfl
  | quotesError command =>
    simp only [AuditCommand.toInput, toQuotesErrorInput, toQuotesInput] at h
    cases hamount : toAmount command.request with
    | error e => cases hamount ▸ h
    | ok amount =>
      cases hamount ▸ h
      rfl
  | _ =>
    cases h
    rfl

theorem disputeStatus_ingest (numeric : Numeric ν) (d : Delivery J) {table : Transactions J ν} {t : Transaction J ν}
    (h : table correlationId = some t) :
    ∃ t', ingest numeric table d correlationId = some t' ∧
      t'.possibleDispute = (t.possibleDispute || d.command.reportsFailure correlationId) ∧
      t'.disputeResolvedAt = t.disputeResolvedAt := by
  unfold ingest
  cases hinput : d.command.toInput numeric d.resolvedAt with
  | error e =>
    have hquiet : d.command.reportsFailure correlationId = false := by
      cases hcommand : d.command with
      | patchError command =>
        rw [hcommand] at hinput
        cases hinput
      | _ => rfl
    exact ⟨t, h, by simp [hquiet], rfl⟩
  | ok input =>
    rw [reportsFailure_iff hinput]
    by_cases hid : input.correlationId = correlationId
    · subst hid
      simp only [Function.update_self, TransactionRepository.upsert, h]
      exact ⟨_, rfl, by simp [Transaction.merge, UpsertInput.values], rfl⟩
    · simp only [Function.update_of_ne (Ne.symm hid), hid, decide_false, Bool.and_false,
        Bool.or_false]
      exact ⟨t, h, rfl, rfl⟩

theorem disputeStatus_redelivered (numeric : Numeric ν) (ds : List (Delivery J)) {table : Transactions J ν}
    {t : Transaction J ν} (h : table correlationId = some t) :
    ∃ t', ds.foldl (ingest numeric) table correlationId = some t' ∧
      t'.possibleDispute = (t.possibleDispute ||
        ds.any fun d => d.command.reportsFailure correlationId) ∧
      t'.disputeResolvedAt = t.disputeResolvedAt := by
  induction ds generalizing table t with
  | nil => exact ⟨t, h, by simp, rfl⟩
  | cons d ds ih =>
    obtain ⟨t₁, hrow, hdispute, hresolved⟩ := disputeStatus_ingest numeric d h
    obtain ⟨t₂, hrow₂, hdispute₂, hresolved₂⟩ := ih hrow
    refine ⟨t₂, hrow₂, ?_, hresolved₂.trans hresolved⟩
    rw [hdispute₂, hdispute, List.any_cons, Bool.or_assoc]

/-- After any run in which the row came to exist, a resolution stands through redeliveries exactly
if none of them reports a failed notification. -/
theorem resolution_stands_iff (numeric : Numeric ν) (correlationId : String)
    (table : Transactions J ν) (steps : List (DisputeStep J)) (occurredAt now : Js.Date)
    (redelivered : List (Delivery J))
    (hrow : (steps.foldl (DisputeStep.run numeric correlationId) table correlationId).isSome = true) :
    let resolved := resolvedAfter numeric correlationId table steps occurredAt now
    disputeStatus (redelivered.foldl (ingest numeric) resolved correlationId) =
        disputeStatus (resolved correlationId) ↔
      ∀ d ∈ redelivered, d.command.reportsFailure correlationId = false := by
  intro resolved
  obtain ⟨t, ht⟩ := Option.isSome_iff_exists.mp hrow
  have hresolved : resolved correlationId = some { t with
      possibleDispute := false, disputeResolvedAt := some occurredAt, updatedAt := now } := by
    simp [resolved, resolvedAfter, DisputeStep.run, ht, TransactionRepository.resolveDispute]
  obtain ⟨t', hrow', hdispute, hlabel⟩ :=
    disputeStatus_redelivered numeric redelivered hresolved
  rw [hrow', hresolved]
  simp only [disputeStatus, disputeLabel, Option.map_some, hlabel, hdispute, Bool.false_or,
    Option.isSome_some, if_true, Option.some.injEq, Prod.mk.injEq, and_true]
  rw [List.any_eq_false]
  simp

/-- The event of a failed notification. -/
def failureEvent : AuditCommand String := .patchError
  { correlationId := "T", payerFsp := "payer", payeeFsp := "payee", gateway := .connector
    occurredAt := some 10, error := some "down" }

theorem resolution_stands_sample :
    let resolved := resolvedAfter sampleNumeric "T" (fun _ => none)
      [.deliver ⟨failureEvent, 1, 11, 11⟩] 20 21
    disputeStatus ([⟨failureEvent, 2, 31, 31⟩].foldl (ingest sampleNumeric) resolved "T") =
        disputeStatus (resolved "T") ↔
      ∀ d ∈ [(⟨failureEvent, 2, 31, 31⟩ : Delivery String)],
        d.command.reportsFailure "T" = false :=
  resolution_stands_iff sampleNumeric "T" (fun _ => none) [.deliver ⟨failureEvent, 1, 11, 11⟩] 20 21
    [⟨failureEvent, 2, 31, 31⟩] rfl

/-- The event is delivered again after the resolution, and raises the dispute again. -/
theorem not_resolution_stands : ¬ ∀ (steps : List (DisputeStep String)) occurredAt now
    (redelivered : List (Delivery String)),
    (∀ d ∈ redelivered, ∃ d', .deliver d' ∈ steps ∧ d'.command = d.command) →
    let resolved := resolvedAfter sampleNumeric "T" (fun _ => none) steps occurredAt now
    disputeStatus (redelivered.foldl (ingest sampleNumeric) resolved "T") =
      disputeStatus (resolved "T") := by
  intro h
  have hstatus := h [.deliver ⟨failureEvent, 1, 11, 11⟩] 20 21 [⟨failureEvent, 2, 31, 31⟩]
    (by simp)
  exact absurd hstatus (by decide)

end Resolution
end Audit
