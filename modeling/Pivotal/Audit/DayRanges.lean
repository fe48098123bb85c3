import Mathlib.Data.List.Sort
import Pivotal.Audit.RangeSource
import Pivotal.Numeric.Steps

/-! The dashboard's time buckets: the hours of a range, divided where the local date changes. -/
namespace Audit
open Fspiop Numeric.Steps Store

namespace TransactionRollupRepository

section Ranges

variable {δ : Type} [DecidableEq δ] (localDate : Js.Date → δ)

/-- The loop of `localDayRanges` from `cursor` on, whose date is at hand throughout. What it adds to
`starts` are the dates' changes that no whole hour separates. -/
def dayStarts (lastMs cursor : ℤ) : List ℤ :=
  if cursor < lastMs then
    let next := min (cursor + msPerHour) lastMs
    if localDate cursor ≠ localDate next then
      let upper := bisect (fun middle => localDate middle = localDate cursor) cursor next
      if upper.tmod msPerHour ≠ 0 then upper :: dayStarts lastMs next else dayStarts lastMs next
    else dayStarts lastMs next
  else []
termination_by (lastMs - cursor).toNat
decreasing_by all_goals simp only [msPerHour]; omega

def localDayRanges (fromDate toDate : Js.Date) : List (Js.Date × Js.Date) :=
  intervalsOf (fromDate :: dayStarts localDate (toDate - 1) fromDate) toDate

variable {localDate}

theorem lt_next {lastMs cursor : ℤ} (h : cursor < lastMs) :
    cursor < min (cursor + msPerHour) lastMs := by
  simp only [msPerHour]
  omega

/-- What the loop adds are changes of the date that no whole hour separates. -/
theorem mem_dayStarts {lastMs cursor u : ℤ} (h : u ∈ dayStarts localDate lastMs cursor) :
    cursor < u ∧ u ≤ lastMs ∧ ChangesAt localDate u ∧ ¬ OnTheHour u := by
  fun_induction dayStarts localDate lastMs cursor with
  | case1 cursor hlt next hne upper hhour ih =>
    have hnext : cursor < next := lt_next hlt
    rcases List.mem_cons.mp h with rfl | hmem
    · obtain ⟨hlow, hup, hchange⟩ := changesAt_bisect hnext hne
      refine ⟨hlow, hup.trans (min_le_right _ _), hchange, ?_⟩
      rwa [OnTheHour, Int.dvd_iff_tmod_eq_zero]
    · have hrest := ih hmem
      exact ⟨hnext.trans hrest.1, hrest.2⟩
  | case2 cursor hlt next hne upper hhour ih =>
    have hrest := ih h
    exact ⟨(lt_next hlt).trans hrest.1, hrest.2⟩
  | case3 cursor hlt next heq ih =>
    have hrest := ih h
    exact ⟨(lt_next hlt).trans hrest.1, hrest.2⟩
  | case4 => cases h

theorem pairwise_dayStarts (lastMs cursor : ℤ) :
    (dayStarts localDate lastMs cursor).Pairwise (· < ·) := by
  fun_induction dayStarts localDate lastMs cursor with
  | case1 cursor hlt next hne upper hhour ih =>
    rw [List.pairwise_cons]
    constructor
    · intro u hu
      exact (changesAt_bisect (lt_next hlt) hne).2.1.trans_lt (mem_dayStarts hu).1
    · exact ih
  | case2 cursor hlt next hne upper hhour ih => exact ih
  | case3 cursor hlt next heq ih => exact ih
  | case4 => exact List.Pairwise.nil

theorem pairwise_starts (fromDate toDate : Js.Date) :
    (fromDate :: dayStarts localDate (toDate - 1) fromDate).Pairwise (· < ·) := by
  rw [List.pairwise_cons]
  exact ⟨fun u hu => (mem_dayStarts hu).1, pairwise_dayStarts _ _⟩

/-- Whatever the zone, the ranges follow each other and cover the whole. -/
theorem consecutive_localDayRanges {fromDate toDate : Js.Date} (h : fromDate < toDate) :
    Consecutive fromDate toDate (localDayRanges localDate fromDate toDate) := by
  apply consecutive_intervalsOf (pairwise_starts fromDate toDate)
  intro u hu
  rcases List.mem_cons.mp hu with rfl | hu
  · exact h
  · exact Int.lt_of_le_sub_one (mem_dayStarts hu).2.1

/-- The zone's date does not change twice within an hour. -/
def OnceAnHour (localDate : Js.Date → δ) : Prop :=
  ∀ c c', ChangesAt localDate c → ChangesAt localDate c' → c < c' → msPerHour ≤ c' - c

omit [DecidableEq δ] in
theorem OnceAnHour.eq (hzone : OnceAnHour localDate) {c c' : ℤ} (hc : ChangesAt localDate c)
    (hc' : ChangesAt localDate c') (hnear : c - c' < msPerHour) (hnear' : c' - c < msPerHour) :
    c = c' := by
  rcases lt_trichotomy c c' with hlt | heq | hlt
  · exact absurd (hzone c c' hc hc' hlt) (not_le.mpr hnear')
  · exact heq
  · exact absurd (hzone c' c hc' hc hlt) (not_le.mpr hnear)

/-- The loop misses no change that it has to add. -/
theorem mem_dayStarts_of_changesAt (hzone : OnceAnHour localDate) {lastMs cursor c : ℤ}
    (hcursor : cursor < c) (hlast : c ≤ lastMs) (hc : ChangesAt localDate c)
    (hhour : ¬ OnTheHour c) : c ∈ dayStarts localDate lastMs cursor := by
  have hpos : 0 < msPerHour := by decide
  -- A change in the first step is the one that bisection finds, as there is no other.
  have hfirst : ∀ cursor, cursor < lastMs → cursor < c → c ≤ min (cursor + msPerHour) lastMs →
      localDate cursor ≠ localDate (min (cursor + msPerHour) lastMs) ∧
        bisect (fun middle => localDate middle = localDate cursor) cursor
          (min (cursor + msPerHour) lastMs) = c := by
    intro cursor hlt hcursor hle
    have hend : min (cursor + msPerHour) lastMs ≤ cursor + msPerHour := min_le_left _ _
    have hbefore : localDate cursor = localDate (c - 1) := by
      apply eq_of_not_changesAt (by omega)
      intro x hx hx' hchange
      have heq := hzone.eq hchange hc (by omega) (by omega)
      omega
    have hafter : localDate c = localDate (min (cursor + msPerHour) lastMs) := by
      apply eq_of_not_changesAt hle
      intro x hx hx' hchange
      have heq := hzone.eq hchange hc (by omega) (by omega)
      omega
    have hne : localDate cursor ≠ localDate (min (cursor + msPerHour) lastMs) := by
      rw [hbefore, ← hafter]
      exact hc
    obtain ⟨hlow, hup, hchange⟩ := changesAt_bisect (lt_next hlt) hne
    exact ⟨hne, hzone.eq hchange hc (by omega) (by omega)⟩
  fun_induction dayStarts localDate lastMs cursor with
  | case1 cursor hlt next hne upper htmod ih =>
    rcases lt_or_ge next c with hnext | hnext
    · exact List.mem_cons_of_mem _ (ih hnext)
    · have heq : upper = c := (hfirst cursor hlt hcursor hnext).2
      rw [heq]
      exact List.mem_cons_self
  | case2 cursor hlt next hne upper htmod ih =>
    rcases lt_or_ge next c with hnext | hnext
    · exact ih hnext
    · have heq : upper = c := (hfirst cursor hlt hcursor hnext).2
      rw [heq, not_not, ← Int.dvd_iff_tmod_eq_zero] at htmod
      exact absurd htmod hhour
  | case3 cursor hlt next heq ih =>
    rcases lt_or_ge next c with hnext | hnext
    · exact ih hnext
    · exact absurd (hfirst cursor hlt hcursor hnext).1 heq
  | case4 cursor hlt => omega

section Range

variable {fromDate toDate : Js.Date} {r : Js.Date × Js.Date}

/-- The date changes where one range ends and another begins. -/
theorem changesAt_fst (hr : r ∈ localDayRanges localDate fromDate toDate) (hfrom : r.1 ≠ fromDate) :
    ChangesAt localDate r.1 := by
  rcases List.mem_cons.mp (fst_mem_of_mem_intervalsOf hr) with heq | hmem
  · exact absurd heq hfrom
  · exact (mem_dayStarts hmem).2.2.1

variable (hzone : OnceAnHour localDate) (h : fromDate < toDate)
include hzone h

theorem onTheHour_of_changesAt (hr : r ∈ localDayRanges localDate fromDate toDate) {c : Js.Date}
    (hfirst : r.1 < c) (hsecond : c < r.2) (hc : ChangesAt localDate c) : OnTheHour c := by
  by_contra hhour
  have hbounds := (consecutive_localDayRanges h).bounds r hr
  have hmem : c ∈ dayStarts localDate (toDate - 1) fromDate :=
    mem_dayStarts_of_changesAt hzone (hbounds.1.trans_lt hfirst)
      (Int.le_sub_one_of_lt (hsecond.trans_le hbounds.2.2)) hc hhour
  exact not_mem_inside (pairwise_starts fromDate toDate) hr (List.mem_cons_of_mem _ hmem)
    ⟨hfirst, hsecond⟩

/-- The part of an hour that lies in a range has one date: that of its beginning. -/
theorem localDate_bucket (hr : r ∈ localDayRanges localDate fromDate toDate) {x : Js.Date}
    (hx : r.1 ≤ x ∧ x < r.2) : localDate (max (bucketHour x) r.1) = localDate x := by
  apply eq_of_not_changesAt (max_le (bucketHour_le x) hx.1)
  intro c hlow hup hc
  obtain ⟨hbucket, hfirst⟩ := max_lt_iff.mp hlow
  have hhour := onTheHour_of_changesAt hzone h hr hfirst (hup.trans_lt hx.2) hc
  exact absurd ((bucketHour_le_iff hhour).mpr hup) (not_le.mpr hbucket)

end Range

end Ranges

structure TimeBucket where
  bucketHour : Js.Date
  count : ℤ
  errorCount : ℤ
  disputeCount : ℤ
  sumLatencyMs : Option ℤ
  latencyCount : ℤ
  deriving DecidableEq

variable {J ν δ : Type}

/-- The row of a group of the buckets' hour. -/
def timeBucket (g : RollupRow ν × List (RollupRow ν)) : TimeBucket where
  bucketHour := g.1.bucketHour
  count := (g.2.map fun r => r.txnCount).sum
  errorCount := (g.2.map fun r => r.errorCount).sum
  disputeCount := (g.2.map fun r => r.disputeCount).sum
  sumLatencyMs := sumOf (g.2.map fun r => r.sumLatencyMs)
  latencyCount := (g.2.map fun r => r.latencyCount).sum

/-- `GROUP BY bucket_hour ORDER BY bucket_hour ASC` -/
def timeBuckets (rows : List (RollupRow ν)) : List TimeBucket :=
  ((groups (fun r => r.bucketHour) rows).map timeBucket).insertionSort
    fun b b' => b.bucketHour ≤ b'.bucketHour

variable [AddCommMonoid ν] [DecidableEq δ]

def getTimeBuckets (collate : String → String) (localDate : Js.Date → δ) (selection : Selection)
    (rollup : List (RollupRow ν)) (transactions : List (Transaction J ν))
    (fromDate toDate : Js.Date) : Option (List TimeBucket) := do
  let sources ← (localDayRanges localDate fromDate toDate).mapM fun range =>
    rangeSource collate selection rollup transactions range.1 range.2
  let rows ← unionAll sources
  return timeBuckets rows

variable {collate : String → String} {localDate : Js.Date → δ} (selection : Selection)
  {rollup : List (RollupRow ν)} {transactions : List (Transaction J ν)} {fromDate toDate : Js.Date}

omit [AddCommMonoid ν] [DecidableEq δ] in
/-- The transactions of the whole are those of its parts. -/
theorem selected_perm_flatMap {ranges : List (Js.Date × Js.Date)}
    (h : Consecutive fromDate toDate ranges) :
    (selected collate selection transactions fromDate toDate).Perm
      (ranges.flatMap fun r => selected collate selection transactions r.1 r.2) := by
  induction h with
  | last hlt =>
    rw [List.flatMap_cons, List.flatMap_nil, List.append_nil]
  | cons hlt hrest ih =>
    rw [List.flatMap_cons]
    exact (selected_perm selection hlt.le hrest.lt.le).trans (ih.append_left _)

section Parts

variable {κ M : Type} [DecidableEq κ] [AddCommMonoid M]

omit [DecidableEq δ] in
/-- The sources of the ranges are aggregated as their transactions, each of which is labelled by the
range that it is read in. -/
theorem exists_sources (key : BucketKey → κ)
    (hrollup : rollup.Perm (hourlyAggregate collate transactions))
    {ranges : List (Js.Date × Js.Date)} (h : ∀ r ∈ ranges, r.1 < r.2) : ∃ sources,
      (ranges.mapM fun r => rangeSource collate selection rollup transactions r.1 r.2) =
        some sources ∧ sources.length = ranges.length ∧
      ∀ k, aggregate (fun r => key (r.toBucketKey.collated collate)) RollupRow.sums
          sources.flatten k =
        (ranges.map fun r => aggregate (fun t => key (labelledKey collate r.1 t))
          (fun t => (rawRow collate r.1 t).sums)
          (selected collate selection transactions r.1 r.2) k).sum := by
  induction ranges with
  | nil => exact ⟨[], rfl, rfl, fun _ => rfl⟩
  | cons r ranges ih =>
    obtain ⟨hlt, hrest⟩ := List.forall_mem_cons.mp h
    obtain ⟨source, hsource, haggregate⟩ := exists_rangeSource key selection hrollup hlt
    obtain ⟨sources, hsources, hlength, haggregates⟩ := ih hrest
    use source :: sources
    refine ⟨?_, ?_, ?_⟩
    · rw [List.mapM_cons, hsource, hsources]
      rfl
    · rw [List.length_cons, List.length_cons, hlength]
    · intro k
      rw [List.flatten_cons, aggregate_append, haggregate, haggregates, List.map_cons,
        List.sum_cons]

omit [DecidableEq δ] [AddCommMonoid ν] in
/-- The ranges put together, where the transactions are labelled as they start. -/
theorem sum_ranges {keyOf : Js.Date → κ} {ranges : List (Js.Date × Js.Date)}
    (h : Consecutive fromDate toDate ranges)
    (hlabel : ∀ r ∈ ranges, ∀ t ∈ selected collate selection transactions r.1 r.2,
      keyOf (labelOf r.1 t) = keyOf t.transactionStartedAt) (f : Transaction J ν → M) (k : κ) :
    (ranges.map fun r => (((selected collate selection transactions r.1 r.2).filter
        fun t => keyOf (labelOf r.1 t) = k).map f).sum).sum =
      (((selected collate selection transactions fromDate toDate).filter
        fun t => keyOf t.transactionStartedAt = k).map f).sum := by
  have hfilter : ∀ r ∈ ranges,
      (((selected collate selection transactions r.1 r.2).filter
        fun t => keyOf (labelOf r.1 t) = k).map f).sum =
      (((selected collate selection transactions r.1 r.2).filter
        fun t => keyOf t.transactionStartedAt = k).map f).sum := by
    intro r hr
    congr 2
    apply List.filter_congr
    intro t ht
    rw [hlabel r hr t ht]
  rw [List.map_congr_left hfilter,
    (((selected_perm_flatMap selection h).filter _).map f).sum_eq, List.filter_flatMap,
    List.map_flatMap, List.flatMap_def, List.sum_flatten, List.map_map]
  rfl

/-- A value of the buckets that adds up over their rows. -/
def Additive (measure : TimeBucket → M) (φ : Sums ν →+ M) : Prop :=
  ∀ g : RollupRow ν × List (RollupRow ν),
    measure (timeBucket g) = (g.2.map fun r => φ r.sums).sum

variable (keyOf : Js.Date → κ) {φ : Sums ν →+ M} {measure : TimeBucket → M}

omit [DecidableEq δ] in
theorem sum_timeBuckets (hmeasure : Additive measure φ) (rows : List (RollupRow ν)) (k : κ) :
    (((timeBuckets rows).filter fun b => keyOf b.bucketHour = k).map measure).sum =
      WithZero.lift (φ : Sums ν →ₙ+ M)
        (aggregate (fun r => keyOf r.bucketHour) RollupRow.sums rows k) := by
  have hgroups : ((groups (fun r : RollupRow ν => r.bucketHour) rows).filter
        fun g => keyOf (timeBucket g).bucketHour = k) =
      groups (fun r : RollupRow ν => r.bucketHour)
        (rows.filter fun r => keyOf r.bucketHour = k) := by
    have hkey : ∀ r r' : RollupRow ν, r.bucketHour = r'.bucketHour →
        decide (keyOf r.bucketHour = k) = decide (keyOf r'.bucketHour = k) := by
      intro r r' heq
      rw [heq]
    exact (groups_filter hkey).symm
  have hmeasures : ∀ rows : List (RollupRow ν),
      ((groups (fun r : RollupRow ν => r.bucketHour) rows).map fun g => measure (timeBucket g)) =
        (groups (fun r : RollupRow ν => r.bucketHour) rows).map
          fun g => (g.2.map fun r => φ r.sums).sum :=
    fun rows => List.map_congr_left fun g _ => hmeasure g
  have hsums := sum_groups (fun r : RollupRow ν => r.bucketHour) (fun r => φ r.sums)
    (rows.filter fun r => keyOf r.bucketHour = k)
  rw [← sum_filter_eq_lift φ k, ← hsums, ← hmeasures, ← hgroups, timeBuckets,
    (((List.perm_insertionSort _ _).filter _).map measure).sum_eq, List.filter_map, List.map_map]
  rfl

variable (localDate) in
/-- What the buckets add up to, by whatever their hours are grouped by. -/
theorem exists_getTimeBuckets (hmeasure : Additive measure φ)
    (hrollup : rollup.Perm (hourlyAggregate collate transactions)) (h : fromDate < toDate) :
    ∃ buckets, getTimeBuckets collate localDate selection rollup transactions fromDate toDate =
        some buckets ∧
      ∀ k, ((buckets.filter fun b => keyOf b.bucketHour = k).map measure).sum =
        ((localDayRanges localDate fromDate toDate).map fun r =>
          (((selected collate selection transactions r.1 r.2).filter
            fun t => keyOf (labelOf r.1 t) = k).map
              fun t => φ (rawRow collate fromDate t).sums).sum).sum := by
  have hconsecutive : Consecutive fromDate toDate (localDayRanges localDate fromDate toDate) :=
    consecutive_localDayRanges h
  obtain ⟨sources, hsources, hlength, haggregate⟩ :=
    exists_sources selection (fun k => keyOf k.bucketHour) hrollup
      fun r hr => (hconsecutive.bounds r hr).2.1
  have hne : sources ≠ [] := by
    intro hnil
    rw [hnil] at hlength
    have hranges := List.eq_nil_of_length_eq_zero hlength.symm
    rw [hranges] at hconsecutive
    cases hconsecutive
  have hunion : unionAll sources = some sources.flatten := by
    obtain ⟨source, rest, rfl⟩ := List.exists_cons_of_ne_nil hne
    rfl
  use timeBuckets sources.flatten
  constructor
  · rw [getTimeBuckets, hsources, Option.bind_eq_bind, Option.bind_some, hunion]
    rfl
  · intro k
    have hparts := congrArg (WithZero.lift (φ : Sums ν →ₙ+ M)) (haggregate k)
    rw [map_list_sum, List.map_map] at hparts
    rw [sum_timeBuckets keyOf hmeasure]
    refine hparts.trans ?_
    congr 1
    apply List.map_congr_left
    intro r _
    exact (sum_filter_eq_lift φ k).symm

end Parts

end TransactionRollupRepository
end Audit
