import Pivotal.Audit.Rollup

/-! The totals of the roll-up against what the transactions count for one by one. -/
namespace Audit
open Fspiop Store

namespace TransactionRollupRepository

variable {J ν : Type} {collate : String → String}

def counts (t : Transaction J ν) : LiveVector :=
  classify (liveClassification t).toLiveClassificationRow

@[simp] theorem countOf_nil (p : Transaction J ν → Bool) : countOf p [] = 0 := rfl

@[simp] theorem countOf_cons (p : Transaction J ν → Bool) (t : Transaction J ν)
    (rows : List (Transaction J ν)) :
    countOf p (t :: rows) = (if p t then 1 else 0) + countOf p rows := by
  simp [countOf]

theorem sumOf_getD (xs : List (Option ℤ)) :
    (sumOf xs).getD 0 = (xs.map fun x => x.getD 0).sum := by
  rw [sumOf]
  split_ifs with h
  · rfl
  · have hzero : ∀ x ∈ xs.map (fun x => x.getD 0), x = 0 := by
      intro x hx
      obtain ⟨y, hy, rfl⟩ := List.mem_map.mp hx
      cases y with
      | none => rfl
      | some y => exact absurd (List.any_eq_true.mpr ⟨some y, hy, rfl⟩) h
    rw [List.sum_eq_zero hzero, Option.getD_none]

variable [AddCommMonoid ν]

/-- A bucket is worth what its transactions count for. -/
theorem measure_rollupRow (t : Transaction J ν) (group : List (Transaction J ν)) :
    (rollupRow collate t group).measure = (group.map counts).sum := by
  funext field
  induction group with
  | nil => cases field <;> simp [RollupRow.measure, rollupRow, sumOf]
  | cons a group ih =>
    rw [List.map_cons, List.sum_cons, Pi.add_apply, ← ih]
    simp only [counts, liveClassification]
    cases field with
    | txn =>
      simp [RollupRow.measure, rollupRow, classify]
      omega
    | success =>
      simp only [RollupRow.measure, rollupRow, classify, countOf_cons, List.length_cons]
      push_cast
      split_ifs <;> omega
    | latencyCount => simp [RollupRow.measure, rollupRow, classify, Transaction.latencyMs]
    | sumLatencyMs => simp [RollupRow.measure, rollupRow, classify, sumOf_getD]
    | _ =>
      simp only [RollupRow.measure, rollupRow, classify, countOf_cons]

/-- Windows begin and end with an hour. -/
def OnTheHour (date : Js.Date) : Prop := msPerHour ∣ date

theorem bucketHour_le_iff {date start : Js.Date} (h : OnTheHour start) :
    start ≤ bucketHour date ↔ start ≤ date := by
  obtain ⟨hour, rfl⟩ := h
  have hpos : 0 < msPerHour := by decide
  rw [bucketHour, mul_comm, mul_le_mul_iff_left₀ hpos, Int.le_ediv_iff_mul_le hpos]

theorem bucketHour_lt_iff {date stop : Js.Date} (h : OnTheHour stop) :
    bucketHour date < stop ↔ date < stop := by
  rw [← not_le, ← not_le, bucketHour_le_iff h]

section Window

variable {table table' : RollupTable collate ν} {rows : List (Transaction J ν)}
  {windowStart windowEnd : Js.Date}

theorem bucketWithin_rollupRow (hstart : OnTheHour windowStart) (hend : OnTheHour windowEnd)
    (t : Transaction J ν) (group : List (Transaction J ν)) :
    bucketWithin windowStart windowEnd (rollupRow collate t group) =
      startsWithin windowStart windowEnd t := by
  simp only [bucketWithin, startsWithin, rollupRow, bucketKey, bucketHour_le_iff hstart,
    bucketHour_lt_iff hend]

theorem bucketWithin_of_mem (hstart : OnTheHour windowStart) (hend : OnTheHour windowEnd)
    {r : RollupRow ν} (hr : r ∈ aggregateWindow collate rows windowStart windowEnd) :
    bucketWithin windowStart windowEnd r = true := by
  obtain ⟨g, hg, rfl⟩ := List.mem_map.mp hr
  rw [bucketWithin_rollupRow hstart hend]
  exact (List.mem_filter.mp (mem_groups hg).1).2

/-- The index's key of a transaction's bucket. -/
def storedKey (collate : String → String) (t : Transaction J ν) : BucketKey :=
  (bucketKey collate t).collated collate

omit [AddCommMonoid ν] in
/-- Transactions of one group are of one bucket. -/
theorem storedKey_eq {t t' : Transaction J ν} (h : groupKey collate t = groupKey collate t') :
    storedKey collate t = storedKey collate t' := by
  simp only [groupKey, Prod.mk.injEq] at h
  obtain ⟨hhour, hpayer, hpayee, hcurrency, hsub⟩ := h
  have hstored : collate (subScenario collate t) = collate (subScenario collate t') := by
    simp only [subScenario]
    cases hs : t.subScenario with
    | none =>
      cases hs' : t'.subScenario with
      | none => rfl
      | some s' => simp [hs, hs'] at hsub
    | some s =>
      cases hs' : t'.subScenario with
      | none => simp [hs, hs'] at hsub
      | some s' =>
        simp only [hs, hs', Option.map_some, Option.some.injEq] at hsub
        by_cases hempty : collate s' = collate ""
        · simp [Option.filter_some, hsub, hempty]
        · simp [Option.filter_some, hsub, hempty]
  simp [storedKey, bucketKey, BucketKey.collated, hhour, hpayer, hpayee, hcurrency, hstored]

/-- No bucket is divided between groups. -/
def Undivided (collate : String → String) (rows : List (Transaction J ν)) : Prop :=
  ∀ t ∈ rows, ∀ t' ∈ rows, storedKey collate t = storedKey collate t' →
    groupKey collate t = groupKey collate t'

theorem keys_aggregateWindow : (aggregateWindow collate rows windowStart windowEnd).map
      (fun r => r.toBucketKey.collated collate) =
    (firsts (groupKey collate) (rows.filter (startsWithin windowStart windowEnd))).map
      (storedKey collate) := by
  rw [aggregateWindow, groups, List.map_map, List.map_map]
  rfl

/-- A window is replaced exactly if none of its buckets is divided. -/
theorem reaggregateWindow_isSome_iff (hstart : OnTheHour windowStart) (hend : OnTheHour windowEnd) :
    (reaggregateWindow table rows windowStart windowEnd).isSome ↔
      Undivided collate (rows.filter (startsWithin windowStart windowEnd)) := by
  rw [Undivided, ← nodup_firsts_iff fun t t' => storedKey_eq, ← keys_aggregateWindow]
  simp only [reaggregateWindow, replaceWindow, Table.insertAll, Option.isSome_dite, List.map_append,
    List.nodup_append]
  constructor
  · intro h
    exact h.2.1
  · intro h
    refine ⟨(table.deleteWhere _).distinct, h, ?_⟩
    intro k hk k' hk'
    obtain ⟨r, hr, rfl⟩ := List.mem_map.mp hk
    obtain ⟨r', hr', rfl⟩ := List.mem_map.mp hk'
    have hout : bucketWithin windowStart windowEnd r = false := (Table.mem_deleteWhere.mp hr).2
    have hin : bucketWithin windowStart windowEnd r' = true := bucketWithin_of_mem hstart hend hr'
    intro heq
    have hhour : (r.toBucketKey.collated collate).bucketHour =
        (r'.toBucketKey.collated collate).bucketHour := congrArg BucketKey.bucketHour heq
    simp only [BucketKey.collated] at hhour
    rw [bucketWithin, hhour] at hout
    rw [bucketWithin, hout] at hin
    cases hin

theorem rows_reaggregateWindow
    (h : reaggregateWindow table rows windowStart windowEnd = some table') :
    table'.rows = table.rows.filter (fun r => !bucketWithin windowStart windowEnd r) ++
      aggregateWindow collate rows windowStart windowEnd := by
  simp only [reaggregateWindow, replaceWindow, Table.insertAll] at h
  split at h
  · cases h
    rfl
  · cases h

omit [AddCommMonoid ν] in
theorem scopeClause_congr (scope : Scope) {t t' : Transaction J ν}
    (h : groupKey collate t = groupKey collate t') :
    scopeClause collate scope t.payer.fsp t.payee.fsp =
      scopeClause collate scope t'.payer.fsp t'.payee.fsp := by
  simp only [groupKey, Prod.mk.injEq] at h
  cases scope with
  | hub => rfl
  | fsp fspId => simp only [scopeClause, h.2.1, h.2.2.1]

/-- The totals after a window was replaced are what the window's transactions count for. -/
theorem getLiveTotals_reaggregateWindow (hstart : OnTheHour windowStart)
    (hend : OnTheHour windowEnd) (scope : Scope)
    (h : reaggregateWindow table rows windowStart windowEnd = some table') :
    getLiveTotals table' scope windowStart windowEnd =
      (((rows.filter (startsWithin windowStart windowEnd)).filter fun t =>
        scopeClause collate scope t.payer.fsp t.payee.fsp).map counts).sum := by
  have hkept : (table.rows.filter fun r => !bucketWithin windowStart windowEnd r).filter
      (fun r => bucketWithin windowStart windowEnd r &&
        scopeClause collate scope r.payerFsp r.payeeFsp) = [] := by
    rw [List.filter_filter, List.filter_eq_nil_iff]
    intro r _
    cases bucketWithin windowStart windowEnd r <;> simp
  have hwithin : (aggregateWindow collate rows windowStart windowEnd).filter
      (fun r => bucketWithin windowStart windowEnd r &&
        scopeClause collate scope r.payerFsp r.payeeFsp) =
      (aggregateWindow collate rows windowStart windowEnd).filter
        fun r => scopeClause collate scope r.payerFsp r.payeeFsp := by
    apply List.filter_congr
    intro r hr
    rw [bucketWithin_of_mem hstart hend hr, Bool.true_and]
  have hgroups : (aggregateWindow collate rows windowStart windowEnd).filter
      (fun r => scopeClause collate scope r.payerFsp r.payeeFsp) =
      (groups (groupKey collate) ((rows.filter (startsWithin windowStart windowEnd)).filter
        fun t => scopeClause collate scope t.payer.fsp t.payee.fsp)).map
          fun g => rollupRow collate g.1 g.2 := by
    rw [aggregateWindow, List.filter_map, groups_filter fun t t' => scopeClause_congr scope]
    rfl
  rw [getLiveTotals, rows_reaggregateWindow h, List.filter_append, hkept, List.nil_append, hwithin,
    hgroups, List.map_map]
  have hmeasure : (RollupRow.measure ∘ fun g : Transaction J ν × List (Transaction J ν) =>
      rollupRow collate g.1 g.2) = fun g => (g.2.map counts).sum := by
    funext g
    exact measure_rollupRow g.1 g.2
  rw [hmeasure, sum_groups]

end Window

def startOfHour (hour : ℤ) : Js.Date := hour * msPerHour

theorem onTheHour_startOfHour (hour : ℤ) : OnTheHour (startOfHour hour) := dvd_mul_left _ _

omit [AddCommMonoid ν] in
/-- The scopes that the writer counts a transaction in are among those it is selected for. -/
theorem scopeClause_of_mem {scope : Scope} {payerFsp payeeFsp : String}
    (h : scope ∈ LiveStatsWriter.scopesFor payerFsp payeeFsp) :
    scopeClause collate scope payerFsp payeeFsp = true := by
  cases scope with
  | hub => rfl
  | fsp fspId =>
    rcases LiveStatsWriter.fsp_mem_scopesFor.mp h with rfl | rfl
    · simp [scopeClause]
    · simp [scopeClause]

/-- The transactions of a scope in a window, counted one by one. -/
def liveTotals (rows : List (Transaction J ν)) (scope : Scope) (fromDate toDate : Js.Date) :
    LiveVector :=
  (((rows.filter (startsWithin fromDate toDate)).filter fun t =>
    scope ∈ LiveStatsWriter.scopesFor t.payer.fsp t.payee.fsp).map counts).sum

/-- The window is replaced, and its totals are what its transactions count for. -/
def TotalsAgree (table : RollupTable collate ν) (rows : List (Transaction J ν)) (scope : Scope)
    (fromDate toDate : Js.Date) : Prop :=
  ∃ table' : RollupTable collate ν, reaggregateWindow table rows fromDate toDate = some table' ∧
    getLiveTotals table' scope fromDate toDate = liveTotals rows scope fromDate toDate

/-- Whoever is selected for a scope has the very text that the scope is of. -/
def SpeltAlike (collate : String → String) (scope : Scope) (rows : List (Transaction J ν)) : Prop :=
  ∀ t ∈ rows, scopeClause collate scope t.payer.fsp t.payee.fsp = true →
    scope ∈ LiveStatsWriter.scopesFor t.payer.fsp t.payee.fsp

omit [AddCommMonoid ν] in
theorem counts_txn (rows : List (Transaction J ν)) : (rows.map counts).sum .txn = rows.length := by
  induction rows with
  | nil => rfl
  | cons t rows ih =>
    rw [List.map_cons, List.sum_cons, Pi.add_apply, ih]
    simp [counts, classify]
    omega

omit [AddCommMonoid ν] in
/-- What the writer counts, as part of what is selected. -/
theorem filter_scopesFor (collate : String → String) (scope : Scope) (rows : List (Transaction J ν)) :
    rows.filter (fun t => scope ∈ LiveStatsWriter.scopesFor t.payer.fsp t.payee.fsp) =
      (rows.filter fun t => scopeClause collate scope t.payer.fsp t.payee.fsp).filter
        fun t => scope ∈ LiveStatsWriter.scopesFor t.payer.fsp t.payee.fsp := by
  rw [List.filter_filter]
  apply List.filter_congr
  intro t _
  by_cases h : scope ∈ LiveStatsWriter.scopesFor t.payer.fsp t.payee.fsp
  · simp [h, scopeClause_of_mem h]
  · simp [h]

omit [AddCommMonoid ν] in
theorem sums_agree_iff (scope : Scope) (rows : List (Transaction J ν)) :
    ((rows.filter fun t => scopeClause collate scope t.payer.fsp t.payee.fsp).map counts).sum =
      ((rows.filter fun t => scope ∈ LiveStatsWriter.scopesFor t.payer.fsp t.payee.fsp).map
        counts).sum ↔ SpeltAlike collate scope rows := by
  rw [filter_scopesFor collate]
  constructor
  · intro h t ht hscope
    have htxn := congrFun h .txn
    rw [counts_txn, counts_txn, Nat.cast_inj] at htxn
    have hall := List.length_filter_eq_length_iff.mp htxn.symm
    simpa using hall t (List.mem_filter.mpr ⟨ht, hscope⟩)
  · intro h
    have hall : ∀ t ∈ rows.filter (fun t => scopeClause collate scope t.payer.fsp t.payee.fsp),
        decide (scope ∈ LiveStatsWriter.scopesFor t.payer.fsp t.payee.fsp) = true := by
      intro t ht
      obtain ⟨ht, hscope⟩ := List.mem_filter.mp ht
      simpa using h t ht hscope
    rw [List.filter_eq_self.mpr hall]

/-- The dashboard's numbers of whole hours stay the same when they are read of the roll-up, exactly
if no bucket is divided between groups and the database and the writer mean the same scope. -/
theorem totals_agree_iff (table : RollupTable collate ν) (rows : List (Transaction J ν))
    (scope : Scope) (fromHour toHour : ℤ) :
    TotalsAgree table rows scope (startOfHour fromHour) (startOfHour toHour) ↔
      Undivided collate (rows.filter (startsWithin (startOfHour fromHour) (startOfHour toHour))) ∧
        SpeltAlike collate scope
          (rows.filter (startsWithin (startOfHour fromHour) (startOfHour toHour))) := by
  have hstart := onTheHour_startOfHour fromHour
  have hend := onTheHour_startOfHour toHour
  have hsome : (reaggregateWindow table rows (startOfHour fromHour) (startOfHour toHour)).isSome ↔
      _ := reaggregateWindow_isSome_iff hstart hend
  rw [← hsome, Option.isSome_iff_exists]
  constructor
  · rintro ⟨table', htable, hagree⟩
    rw [getLiveTotals_reaggregateWindow hstart hend scope htable, liveTotals] at hagree
    exact ⟨⟨table', htable⟩, (sums_agree_iff scope _).mp hagree⟩
  · rintro ⟨⟨table', htable⟩, hspelt⟩
    use table', htable
    rw [getLiveTotals_reaggregateWindow hstart hend scope htable, liveTotals]
    exact (sums_agree_iff scope _).mpr hspelt

def sampleColumns : TransactionColumns String ℤ where
  correlationId := "T"
  payer := { fsp := "payer" }
  payee := { fsp := "payee" }
  transactionStartedAt := 0
  error := false

/-- A transaction of the first hour. -/
def sampleTransaction (subScenario : Option String) : Transaction String ℤ where
  toTransactionColumns := { sampleColumns with subScenario := subScenario }
  id := 1
  possibleDispute := false
  disputeResolvedAt := none
  createdAt := 0
  updatedAt := 0

/-- Two transactions of an hour, one with no sub-scenario and one with that of its bucket. -/
theorem not_totals_agree : ¬ ∀ (table : RollupTable id ℤ) (rows : List (Transaction String ℤ))
    (scope : Scope) (day : ℤ),
      TotalsAgree table rows scope (startOfHour (24 * day)) (startOfHour (24 * day + 24)) := by
  intro h
  obtain ⟨table', htable, -⟩ := h Table.empty
    [sampleTransaction none, sampleTransaction (some "UNSPECIFIED")] .hub 0
  have hundivided := (reaggregateWindow_isSome_iff (onTheHour_startOfHour _)
    (onTheHour_startOfHour _)).mp (Option.isSome_iff_exists.mpr ⟨table', htable⟩)
  have hgroup := hundivided (sampleTransaction none) (by decide)
    (sampleTransaction (some "UNSPECIFIED")) (by decide) (by decide)
  exact absurd hgroup (by decide)

end TransactionRollupRepository
end Audit
