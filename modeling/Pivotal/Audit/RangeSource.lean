import Mathlib.Algebra.Group.Prod
import Pivotal.Audit.RollupTotals

/-! The source of the dashboard's queries: whole hours are read of the roll-up, and what is left of
the hours at the ends of a range of the transactions themselves. -/
namespace Audit
open Fspiop Store

namespace TransactionRollupRepository

variable {J ν : Type} (collate : String → String)

/-- What a query is restricted to: a scope, and participants where they are given. -/
structure Selection where
  scope : Scope
  payerFsp : Option String
  payeeFsp : Option String
  deriving DecidableEq

/-- `participantFilterClause(payerFsp, payeeFsp)` -/
def participantFilterClause (filterPayer filterPayee : Option String) (payerFsp payeeFsp : String) :
    Bool :=
  filterPayer.all (fun fspId => collate payerFsp = collate fspId) &&
    filterPayee.all fun fspId => collate payeeFsp = collate fspId

/-- The clauses that each part of a source repeats. -/
def Selection.clause (selection : Selection) (payerFsp payeeFsp : String) : Bool :=
  scopeClause collate selection.scope payerFsp payeeFsp &&
    participantFilterClause collate selection.payerFsp selection.payeeFsp payerFsp payeeFsp

/-- A part of a source, with the times from which and up to which it reads. -/
inductive Select where
  | rollup (start stop : Js.Date)
  | raw (start stop : Js.Date)
  deriving DecidableEq

/-- The first whole hour from a time on. -/
def ceilHour (date : Js.Date) : Js.Date := -bucketHour (-date)

def rangeSelects (fromDate toDate : Js.Date) : List Select :=
  let fullStart := ceilHour fromDate
  let fullEnd := bucketHour toDate
  let rollups := if fullStart < fullEnd then [Select.rollup fullStart fullEnd] else []
  let edges := if fullStart < fullEnd then [(fromDate, fullStart), (fullEnd, toDate)]
    else [(fromDate, toDate)]
  rollups ++ (edges.filter fun e => e.1 < e.2).map fun e => .raw e.1 e.2

variable [AddCommMonoid ν]

/-- A transaction as a row of the source; it begins no earlier than the part that it is read by. -/
def rawRow (start : Js.Date) (t : Transaction J ν) : RollupRow ν where
  bucketHour := max (bucketHour t.transactionStartedAt) start
  payerFsp := t.payer.fsp
  payeeFsp := t.payee.fsp
  currency := currency t
  subScenario := subScenario collate t
  txnCount := 1
  errorCount := if t.error then 1 else 0
  disputeCount := if t.possibleDispute then 1 else 0
  partiesErrorCount := if t.parties.error.isSome then 1 else 0
  quotesErrorCount := if t.quotes.error.isSome then 1 else 0
  transfersErrorCount := if t.transfers.error.isSome then 1 else 0
  patchErrorCount := if t.patch.error.isSome then 1 else 0
  committedAmount := if isCommitted t then t.transferAmount.getD 0 else 0
  committedCount := if isCommitted t then 1 else 0
  latencyCount := if t.transactionCompletedAt.isSome then 1 else 0
  sumLatencyMs := t.latencyMs

/-- What a part selects, of the roll-up or of the transactions. -/
def Select.rows (selection : Selection) (rollup : List (RollupRow ν))
    (transactions : List (Transaction J ν)) : Select → List (RollupRow ν)
  | .rollup start stop => rollup.filter fun r =>
      bucketWithin start stop r && selection.clause collate r.payerFsp r.payeeFsp
  | .raw start stop => (transactions.filter fun t =>
      startsWithin start stop t && selection.clause collate t.payer.fsp t.payee.fsp).map
        (rawRow collate start)

/-- Parts joined by `UNION ALL`; with no part there is no statement. -/
def unionAll {ρ : Type} : List (List ρ) → Option (List ρ)
  | [] => none
  | parts => some parts.flatten

def rangeSource (selection : Selection) (rollup : List (RollupRow ν))
    (transactions : List (Transaction J ν)) (fromDate toDate : Js.Date) :
    Option (List (RollupRow ν)) :=
  unionAll ((rangeSelects fromDate toDate).map (Select.rows collate selection rollup transactions))

/-- The aggregate of all transactions by the hour. -/
def hourlyAggregate (transactions : List (Transaction J ν)) : List (RollupRow ν) :=
  (groups (groupKey collate) transactions).map fun g => rollupRow collate g.1 g.2

/-- What is counted of a row. -/
inductive Counter where
  | txn | error | dispute | partiesError | quotesError | transfersError | patchError | committed
  | latency
  deriving DecidableEq

/-- What the queries sum: the counts, the amount, and the latencies where there are some. -/
abbrev Sums (ν : Type) := (Counter → ℤ) × ν × WithZero ℤ

def RollupRow.count (r : RollupRow ν) : Counter → ℤ
  | .txn => r.txnCount
  | .error => r.errorCount
  | .dispute => r.disputeCount
  | .partiesError => r.partiesErrorCount
  | .quotesError => r.quotesErrorCount
  | .transfersError => r.transfersErrorCount
  | .patchError => r.patchErrorCount
  | .committed => r.committedCount
  | .latency => r.latencyCount

/-- A value that `SUM` passes over if it is `NULL`. -/
def summand (x : Option ℤ) : WithZero ℤ := x

def RollupRow.sums (r : RollupRow ν) : Sums ν :=
  (r.count, r.committedAmount, summand r.sumLatencyMs)

variable {collate}

omit [AddCommMonoid ν]

theorem bucketHour_le (date : Js.Date) : bucketHour date ≤ date :=
  Int.ediv_mul_le date (by decide)

theorem le_ceilHour (date : Js.Date) : date ≤ ceilHour date := le_neg.mp (bucketHour_le (-date))

theorem onTheHour_bucketHour (date : Js.Date) : OnTheHour (bucketHour date) := dvd_mul_left _ _

theorem onTheHour_ceilHour (date : Js.Date) : OnTheHour (ceilHour date) :=
  Int.dvd_neg.mpr (onTheHour_bucketHour (-date))

theorem summand_sumOf (xs : List (Option ℤ)) : summand (sumOf xs) = (xs.map summand).sum := by
  induction xs with
  | nil => rfl
  | cons x xs ih =>
    rw [List.map_cons, List.sum_cons, ← ih]
    cases x with
    | none =>
      have hnone : sumOf (none :: xs) = sumOf xs := by simp [sumOf]
      rw [hnone]
      exact (zero_add _).symm
    | some x =>
      have hsome : sumOf (some x :: xs) = some (x + (sumOf xs).getD 0) := by
        rw [sumOf_getD]
        simp [sumOf]
      rw [hsome]
      cases sumOf xs with
      | none => 
        rw [Option.getD_none, add_zero]
        exact (add_zero _).symm
      | some y => rfl

/-- A row of the roll-up sums what its transactions do as rows of the source. -/
theorem sums_rollupRow [AddCommMonoid ν] (t : Transaction J ν) (group : List (Transaction J ν))
    (start : Js.Date) :
    (rollupRow collate t group).sums = (group.map fun t => (rawRow collate start t).sums).sum := by
  induction group with
  | nil => 
    refine Prod.ext ?_ (Prod.ext rfl rfl)
    funext counter
    cases counter <;> rfl
  | cons a group ih =>
    rw [List.map_cons, List.sum_cons, ← ih]
    refine Prod.ext ?_ (Prod.ext ?_ ?_)
    · funext counter
      cases counter <;> simp [RollupRow.sums, RollupRow.count, rollupRow, rawRow, add_comm]
    · simp [RollupRow.sums, rollupRow, rawRow]
    · simp [RollupRow.sums, rollupRow, rawRow, summand_sumOf]

/-- The bucket of a transaction that is read from a time on. -/
def labelOf (fromDate : Js.Date) (t : Transaction J ν) : Js.Date :=
  max (bucketHour t.transactionStartedAt) fromDate

/-- The key of a transaction as a row of the source, up to the collation. -/
def labelledKey (collate : String → String) (fromDate : Js.Date) (t : Transaction J ν) : BucketKey :=
  { storedKey collate t with bucketHour := labelOf fromDate t }

theorem labelOf_of_onTheHour {fromDate start : Js.Date} (hle : fromDate ≤ start) (h : OnTheHour start)
    {t : Transaction J ν} (ht : start ≤ t.transactionStartedAt) :
    labelOf start t = bucketHour t.transactionStartedAt ∧
      labelOf fromDate t = bucketHour t.transactionStartedAt := by
  have hstart := (bucketHour_le_iff h).mpr ht
  exact ⟨max_eq_left hstart, max_eq_left (hle.trans hstart)⟩

section Parts

variable {κ : Type} [DecidableEq κ] (key : BucketKey → κ) (selection : Selection)
  {rollup : List (RollupRow ν)} {transactions : List (Transaction J ν)} {fromDate : Js.Date}

/-- The transactions that are read between two times. -/
def selected (collate : String → String) (selection : Selection)
    (transactions : List (Transaction J ν)) (start stop : Js.Date) : List (Transaction J ν) :=
  transactions.filter fun t =>
    startsWithin start stop t && selection.clause collate t.payer.fsp t.payee.fsp

theorem startsWithin_of_selected {start stop : Js.Date} {t : Transaction J ν}
    (h : t ∈ selected collate selection transactions start stop) :
    start ≤ t.transactionStartedAt ∧ t.transactionStartedAt < stop := by
  have hclauses := (List.mem_filter.mp h).2
  rw [Bool.and_eq_true] at hclauses
  exact startsWithin_iff.mp hclauses.1

variable [AddCommMonoid ν]

/-- A part of transactions is aggregated as those transactions, whose buckets begin no earlier than
the whole range. -/
theorem aggregate_raw {start stop : Js.Date}
    (h : start = fromDate ∨ fromDate ≤ start ∧ OnTheHour start) (k : κ) :
    aggregate (fun r => key (r.toBucketKey.collated collate)) RollupRow.sums
        ((Select.raw start stop).rows collate selection rollup transactions) k =
      aggregate (fun t => key (labelledKey collate fromDate t))
        (fun t => (rawRow collate fromDate t).sums)
        (selected collate selection transactions start stop) k := by
  refine aggregate_map ?_ (fun _ _ => rfl) k
  intro t ht
  have hlabel : labelOf start t = labelOf fromDate t := by
    rcases h with rfl | ⟨hle, hhour⟩
    · rfl
    · have hlabels := labelOf_of_onTheHour hle hhour (startsWithin_of_selected selection ht).1
      rw [hlabels.1, hlabels.2]
  show key { storedKey collate t with bucketHour := labelOf start t } = _
  rw [hlabel]
  rfl

omit [AddCommMonoid ν] in
theorem startsWithin_eq {start stop : Js.Date} (hstart : OnTheHour start) (hstop : OnTheHour stop)
    (t : Transaction J ν) : startsWithin start stop t =
      (decide (start ≤ bucketHour t.transactionStartedAt) &&
        decide (bucketHour t.transactionStartedAt < stop)) := by
  simp only [startsWithin, bucketHour_le_iff hstart, bucketHour_lt_iff hstop]

omit [AddCommMonoid ν] in
theorem clause_congr {t t' : Transaction J ν} (h : groupKey collate t = groupKey collate t') :
    selection.clause collate t.payer.fsp t.payee.fsp =
      selection.clause collate t'.payer.fsp t'.payee.fsp := by
  have hscope := scopeClause_congr selection.scope h
  simp only [groupKey, Prod.mk.injEq] at h
  rw [Selection.clause, Selection.clause, hscope, participantFilterClause, participantFilterClause,
    h.2.1, h.2.2.1]

/-- A part of the roll-up is aggregated as the transactions of its hours. -/
theorem aggregate_rollup (hrollup : rollup.Perm (hourlyAggregate collate transactions))
    {start stop : Js.Date} (hstart : OnTheHour start) (hstop : OnTheHour stop)
    (hle : fromDate ≤ start) (k : κ) :
    aggregate (fun r => key (r.toBucketKey.collated collate)) RollupRow.sums
        ((Select.rollup start stop).rows collate selection rollup transactions) k =
      aggregate (fun t => key (labelledKey collate fromDate t))
        (fun t => (rawRow collate fromDate t).sums)
        (selected collate selection transactions start stop) k := by
  have hgroups : (hourlyAggregate collate transactions).filter (fun r =>
        bucketWithin start stop r && selection.clause collate r.payerFsp r.payeeFsp) =
      (groups (groupKey collate) (selected collate selection transactions start stop)).map
        fun g => rollupRow collate g.1 g.2 := by
    have hkey : ∀ t t' : Transaction J ν, groupKey collate t = groupKey collate t' →
        (startsWithin start stop t && selection.clause collate t.payer.fsp t.payee.fsp) =
          (startsWithin start stop t' && selection.clause collate t'.payer.fsp t'.payee.fsp) := by
      intro t t' h
      have hclause := clause_congr selection h
      simp only [groupKey, Prod.mk.injEq] at h
      rw [startsWithin_eq hstart hstop, startsWithin_eq hstart hstop, h.1, hclause]
    rw [selected, hourlyAggregate, List.filter_map, groups_filter hkey]
    congr 1
    apply List.filter_congr
    intro g _
    rw [← bucketWithin_rollupRow hstart hstop g.1 g.2]
    rfl
  have hstored : ∀ t t' : Transaction J ν, groupKey collate t = groupKey collate t' →
      key (storedKey collate t) = key (storedKey collate t') := fun t t' h => by
    rw [storedKey_eq h]
  have hlabelled : ∀ t ∈ selected collate selection transactions start stop,
      key (labelledKey collate fromDate t) = key (storedKey collate t) := by
    intro t ht
    have hlabel := (labelOf_of_onTheHour hle hstart (startsWithin_of_selected selection ht).1).2
    rw [labelledKey, hlabel]
    rfl
  show aggregate _ _ (rollup.filter _) k = _
  rw [aggregate_perm (hrollup.filter _), hgroups]
  have hstoredKeys : aggregate (fun r : RollupRow ν => key (r.toBucketKey.collated collate))
        RollupRow.sums ((groups (groupKey collate)
          (selected collate selection transactions start stop)).map fun g => rollupRow collate g.1 g.2) k =
      aggregate (fun t => key (storedKey collate t)) (fun t => (rawRow collate fromDate t).sums)
        (selected collate selection transactions start stop) k :=
    aggregate_groups (s := fun g : Transaction J ν × List (Transaction J ν) =>
      rollupRow collate g.1 g.2) hstored (fun _ => rfl) (fun e => sums_rollupRow e.1 e.2 fromDate) k
  rw [hstoredKeys]
  exact (aggregate_congr hlabelled (fun _ _ => rfl) k).symm

omit [DecidableEq κ] [AddCommMonoid ν] in
/-- The transactions of a range, divided at a time. -/
theorem selected_perm {start middle stop : Js.Date} (h : start ≤ middle) (h' : middle ≤ stop) :
    (selected collate selection transactions start stop).Perm
      (selected collate selection transactions start middle ++
        selected collate selection transactions middle stop) := by
  have hperm := List.filter_append_perm (fun t : Transaction J ν => t.transactionStartedAt < middle)
    (selected collate selection transactions start stop)
  refine hperm.symm.trans (List.Perm.of_eq ?_)
  unfold selected
  rw [List.filter_filter, List.filter_filter]
  congr 1
  · apply List.filter_congr
    intro t _
    rw [Bool.eq_iff_iff]
    simp only [Bool.and_eq_true, decide_eq_true_eq, startsWithin_iff]
    constructor
    · exact fun ht => ⟨⟨ht.2.1.1, ht.1⟩, ht.2.2⟩
    · exact fun ht => ⟨ht.1.2, ⟨ht.1.1, ht.1.2.trans_le h'⟩, ht.2⟩
  · apply List.filter_congr
    intro t _
    rw [Bool.eq_iff_iff]
    simp only [Bool.and_eq_true, Bool.not_eq_true', decide_eq_false_iff_not, not_lt, startsWithin_iff]
    constructor
    · exact fun ht => ⟨⟨ht.1, ht.2.1.2⟩, ht.2.2⟩
    · exact fun ht => ⟨ht.1.1, ⟨h.trans ht.1.1, ht.1.2⟩, ht.2⟩

omit [DecidableEq κ] [AddCommMonoid ν] in
theorem selected_eq_nil {start stop : Js.Date} (h : stop ≤ start) :
    selected collate selection transactions start stop = [] := by
  rw [List.eq_nil_iff_forall_not_mem]
  intro t ht
  have hrange := startsWithin_of_selected selection ht
  exact absurd (hrange.1.trans_lt hrange.2) (not_lt.mpr h)

/-- The parts of transactions, of which the empty ones are left out. -/
theorem aggregate_edges {edges : List (Js.Date × Js.Date)}
    (h : ∀ e ∈ edges, e.1 = fromDate ∨ fromDate ≤ e.1 ∧ OnTheHour e.1) (k : κ) :
    aggregate (fun r => key (r.toBucketKey.collated collate)) RollupRow.sums
        ((((edges.filter fun e => e.1 < e.2).map fun e => Select.raw e.1 e.2).map
          (Select.rows collate selection rollup transactions)).flatten) k =
      aggregate (fun t => key (labelledKey collate fromDate t))
        (fun t => (rawRow collate fromDate t).sums)
        (edges.flatMap fun e => selected collate selection transactions e.1 e.2) k := by
  induction edges with
  | nil => rfl
  | cons e edges ih =>
    obtain ⟨hfirst, hrest⟩ := List.forall_mem_cons.mp h
    rw [List.flatMap_cons, aggregate_append, ← ih hrest, ← aggregate_raw key selection hfirst]
    by_cases hlt : e.1 < e.2
    · rw [List.filter_cons_of_pos (by simpa using hlt), List.map_cons, List.map_cons,
        List.flatten_cons, aggregate_append]
    · have hnone : (Select.raw e.1 e.2).rows collate selection rollup transactions = [] := by
        show (selected collate selection transactions e.1 e.2).map _ = []
        rw [selected_eq_nil selection (not_lt.mp hlt), List.map_nil]
      rw [List.filter_cons_of_neg (by simpa using hlt), hnone]
      exact (zero_add _).symm

/-- The source of a range is aggregated as the transactions of the range. -/
theorem exists_rangeSource (hrollup : rollup.Perm (hourlyAggregate collate transactions))
    {toDate : Js.Date} (h : fromDate < toDate) : ∃ source,
      rangeSource collate selection rollup transactions fromDate toDate = some source ∧
      ∀ k, aggregate (fun r => key (r.toBucketKey.collated collate)) RollupRow.sums source k =
        aggregate (fun t => key (labelledKey collate fromDate t))
          (fun t => (rawRow collate fromDate t).sums)
          (selected collate selection transactions fromDate toDate) k := by
  have hunion : ∀ parts : List (List (RollupRow ν)), parts ≠ [] →
      unionAll parts = some parts.flatten := by
    intro parts hne
    obtain ⟨part, rest, rfl⟩ := List.exists_cons_of_ne_nil hne
    rfl
  have hfrom := le_ceilHour fromDate
  have hto := bucketHour_le toDate
  by_cases hfull : ceilHour fromDate < bucketHour toDate
  · have hselects : rangeSelects fromDate toDate =
        .rollup (ceilHour fromDate) (bucketHour toDate) ::
          ([(fromDate, ceilHour fromDate), (bucketHour toDate, toDate)].filter fun e => e.1 < e.2).map
            fun e => .raw e.1 e.2 := by
      unfold rangeSelects
      simp only [if_pos hfull]
      rfl
    refine ⟨_, hunion _ (by simp [hselects]), ?_⟩
    intro k
    have hedges : ∀ e ∈ [(fromDate, ceilHour fromDate), (bucketHour toDate, toDate)],
        e.1 = fromDate ∨ fromDate ≤ e.1 ∧ OnTheHour e.1 := by
      simp only [List.forall_mem_cons, List.not_mem_nil, false_implies, implies_true, and_true]
      exact ⟨.inl trivial, .inr ⟨hfrom.trans hfull.le, onTheHour_bucketHour toDate⟩⟩
    -- The whole hours lie between the two edges.
    have hperm : (selected collate selection transactions fromDate toDate).Perm _ :=
      (selected_perm selection hfrom (hfull.le.trans hto)).trans
        ((selected_perm selection hfull.le hto).append_left _)
    rw [hselects, List.map_cons, List.flatten_cons, aggregate_append, aggregate_edges key selection hedges,
      aggregate_rollup key selection hrollup (onTheHour_ceilHour fromDate)
        (onTheHour_bucketHour toDate) hfrom, aggregate_perm hperm]
    simp only [List.flatMap_cons, List.flatMap_nil, List.append_nil, aggregate_append]
    exact add_left_comm _ _ _
  · have hselects : rangeSelects fromDate toDate =
        ([(fromDate, toDate)].filter fun e => e.1 < e.2).map fun e => .raw e.1 e.2 := by
      unfold rangeSelects
      simp only [if_neg hfull]
      rfl
    refine ⟨_, hunion _ (by simp [hselects, h]), ?_⟩
    intro k
    have hedges : ∀ e ∈ [(fromDate, toDate)], e.1 = fromDate ∨ fromDate ≤ e.1 ∧ OnTheHour e.1 := by
      simp
    rw [hselects, aggregate_edges key selection hedges]
    simp

end Parts

/-- A transaction before the whole hour of the range, and one in it. -/
def sampleEdges : List (Transaction String ℤ) :=
  [{ sampleTransaction none with transactionStartedAt := -1 }, sampleTransaction none]

end TransactionRollupRepository
end Audit
