import Mathlib.Tactic.Ring
import Pivotal.Audit.DayRanges
import Pivotal.Js.Map

/-! The dashboard's series of counts by the local date and by the local hour. -/
namespace Audit
open Fspiop Numeric.Steps Store TransactionRollupRepository

namespace GetDashboardHandler

def msPerHour : ℤ := 60 * 60 * 1000

def msPerDay : ℤ := 24 * msPerHour

structure DailyCount (δ : Type) where
  date : δ
  count : ℤ
  errorCount : ℤ
  disputeCount : ℤ
  deriving DecidableEq

section Daily

variable {δ : Type} [DecidableEq δ] (localDate : Js.Date → δ)

/-- `entry`, which is new if the date is not in the map. -/
def entryAt (byDate : Js.Map δ (DailyCount δ)) (date : δ) : DailyCount δ :=
  (byDate.get date).getD ⟨date, 0, 0, 0⟩

/-- One step of the loop over the buckets. -/
def addBucket (byDate : Js.Map δ (DailyCount δ)) (bucket : TimeBucket) : Js.Map δ (DailyCount δ) :=
  let date := localDate bucket.bucketHour
  let entry := entryAt byDate date
  byDate.set date
    { entry with
      count := entry.count + bucket.count
      errorCount := entry.errorCount + bucket.errorCount
      disputeCount := entry.disputeCount + bucket.disputeCount }

/-- The map before the first bucket. -/
def newEntries (dayKeys : List δ) : Js.Map δ (DailyCount δ) :=
  dayKeys.foldl (fun byDate date => byDate.set date ⟨date, 0, 0, 0⟩) Js.Map.empty

def dailyTrend (buckets : List TimeBucket) (dayKeys : List δ) : List (DailyCount δ) :=
  (buckets.foldl (addBucket localDate) (newEntries dayKeys)).entries.map Prod.snd

/-- `keys.add(key)` -/
def addKey (keys : List δ) (key : δ) : List δ := if key ∈ keys then keys else keys ++ [key]

/-- The loop of `dayKeys` from `cursor` on. -/
def hourKeys (toMs cursor : ℤ) (keys : List δ) : List δ :=
  if cursor < toMs then hourKeys toMs (cursor + msPerHour) (addKey keys (localDate cursor)) else keys
termination_by (toMs - cursor).toNat
decreasing_by simp only [msPerHour]; omega

def dayKeys (fromDate toDate : Js.Date) : List δ :=
  addKey (hourKeys localDate toDate fromDate []) (localDate (toDate - 1))

/-- What is counted of a day. -/
def DailyCount.counts (e : DailyCount δ) : ℤ × ℤ × ℤ := (e.count, e.errorCount, e.disputeCount)

def bucketCounts (bucket : TimeBucket) : ℤ × ℤ × ℤ :=
  (bucket.count, bucket.errorCount, bucket.disputeCount)

/-- Every entry is that of its date. -/
def Dated (byDate : Js.Map δ (DailyCount δ)) : Prop :=
  ∀ date e, byDate.get date = some e → e.date = date

variable {byDate : Js.Map δ (DailyCount δ)}

theorem get_newEntries (dayKeys : List δ) (date : δ) :
    (newEntries dayKeys).get date = if date ∈ dayKeys then some ⟨date, 0, 0, 0⟩ else none :=
  Js.Map.get_foldl_set ..

theorem dated_newEntries (dayKeys : List δ) : Dated (newEntries dayKeys) := by
  intro date e hget
  rw [get_newEntries] at hget
  split_ifs at hget
  rw [← Option.some.inj hget]

theorem entryAt_newEntries (dayKeys : List δ) (date : δ) :
    entryAt (newEntries dayKeys) date = ⟨date, 0, 0, 0⟩ := by
  rw [entryAt, get_newEntries]
  split_ifs <;> rfl

theorem Dated.entryAt (h : Dated byDate) (date : δ) : (entryAt byDate date).date = date := by
  rw [GetDashboardHandler.entryAt]
  cases hget : byDate.get date with
  | none => rfl
  | some e => exact h date e hget

theorem Dated.set (h : Dated byDate) {date : δ} {e : DailyCount δ} (he : e.date = date) :
    Dated (byDate.set date e) := by
  intro date' e' hget
  rw [Js.Map.get_set] at hget
  split_ifs at hget with heq
  · rw [← Option.some.inj hget, he, heq]
  · exact h date' e' hget

theorem Dated.foldl_addBucket (h : Dated byDate) (buckets : List TimeBucket) :
    Dated (buckets.foldl (addBucket localDate) byDate) := by
  induction buckets generalizing byDate with
  | nil => exact h
  | cons bucket buckets ih => exact ih (h.set (h.entryAt _))

theorem counts_addBucket (byDate : Js.Map δ (DailyCount δ)) (bucket : TimeBucket) (date : δ) :
    (entryAt (addBucket localDate byDate bucket) date).counts =
      (entryAt byDate date).counts +
        if localDate bucket.bucketHour = date then bucketCounts bucket else 0 := by
  rw [entryAt, addBucket, Js.Map.get_set]
  by_cases heq : localDate bucket.bucketHour = date
  · rw [if_pos heq.symm, if_pos heq, heq]
    rfl
  · rw [if_neg (Ne.symm heq), if_neg heq, add_zero, entryAt]

theorem counts_foldl_addBucket (byDate : Js.Map δ (DailyCount δ)) (buckets : List TimeBucket) (date : δ) :
    (entryAt (buckets.foldl (addBucket localDate) byDate) date).counts =
      (entryAt byDate date).counts +
        ((buckets.filter fun b => localDate b.bucketHour = date).map bucketCounts).sum := by
  induction buckets generalizing byDate with
  | nil => exact (add_zero _).symm
  | cons bucket buckets ih =>
    rw [List.foldl_cons, ih, counts_addBucket, add_assoc]
    by_cases heq : localDate bucket.bucketHour = date <;> simp [heq]

/-- Dates that are in the map stay there. -/
theorem isSome_foldl_addBucket {date : δ} (h : (byDate.get date).isSome)
    (buckets : List TimeBucket) :
    ((buckets.foldl (addBucket localDate) byDate).get date).isSome := by
  induction buckets generalizing byDate with
  | nil => exact h
  | cons bucket buckets ih =>
    apply ih
    rw [addBucket, Js.Map.get_set]
    split_ifs
    · rfl
    · exact h

variable {localDate}

theorem counts_dailyTrend {buckets : List TimeBucket} {dayKeys : List δ} {e : DailyCount δ}
    (he : e ∈ dailyTrend localDate buckets dayKeys) :
    e.counts = ((buckets.filter fun b => localDate b.bucketHour = e.date).map bucketCounts).sum := by
  obtain ⟨⟨date, e'⟩, hentry, rfl⟩ := List.mem_map.mp he
  have hget := Js.Map.mem_entries.mp hentry
  have hdate : e'.date = date := (dated_newEntries dayKeys).foldl_addBucket localDate buckets date e' hget
  have hcounts := counts_foldl_addBucket localDate (newEntries dayKeys) buckets date
  rw [entryAt_newEntries, entryAt, hget] at hcounts
  rw [hdate]
  exact hcounts.trans (zero_add _)

theorem dates_dailyTrend (buckets : List TimeBucket) (dayKeys : List δ) :
    ((dailyTrend localDate buckets dayKeys).map DailyCount.date).Nodup := by
  have hdated := (dated_newEntries dayKeys).foldl_addBucket localDate buckets
  have hdates : (dailyTrend localDate buckets dayKeys).map DailyCount.date =
      (buckets.foldl (addBucket localDate) (newEntries dayKeys)).entries.map Prod.fst := by
    rw [dailyTrend, List.map_map]
    apply List.map_congr_left
    intro e he
    exact hdated e.1 e.2 (Js.Map.mem_entries.mp he)
  rw [hdates]
  exact Js.Map.nodup _

theorem mem_dates_dailyTrend (buckets : List TimeBucket) {dayKeys : List δ} {date : δ}
    (h : date ∈ dayKeys) : date ∈ (dailyTrend localDate buckets dayKeys).map DailyCount.date := by
  have hsome : ((newEntries dayKeys).get date).isSome := by
    rw [get_newEntries, if_pos h]
    rfl
  obtain ⟨e, he⟩ := Option.isSome_iff_exists.mp
    (isSome_foldl_addBucket localDate hsome buckets)
  have hdate := (dated_newEntries dayKeys).foldl_addBucket localDate buckets date e he
  rw [← hdate]
  exact List.mem_map_of_mem (List.mem_map_of_mem (Js.Map.mem_entries.mpr he))

theorem mem_addKey {keys : List δ} {key key' : δ} : key' ∈ addKey keys key ↔ key' ∈ keys ∨ key' = key := by
  rw [addKey]
  split_ifs with h
  · constructor
    · exact Or.inl
    · rintro (hmem | rfl)
      · exact hmem
      · exact h
  · simp

theorem add_succ_steps (cursor : ℤ) (n : ℕ) :
    cursor + (n + 1 : ℕ) * msPerHour = cursor + msPerHour + n * msPerHour := by
  push_cast
  ring

theorem mem_hourKeys {toMs cursor : ℤ} {keys : List δ} {key : δ} :
    key ∈ hourKeys localDate toMs cursor keys ↔ key ∈ keys ∨
      ∃ n : ℕ, cursor + n * msPerHour < toMs ∧ key = localDate (cursor + n * msPerHour) := by
  fun_induction hourKeys localDate toMs cursor keys with
  | case1 cursor keys hlt ih =>
    rw [ih, mem_addKey, or_assoc]
    apply or_congr_right
    constructor
    · rintro (heq | ⟨n, hn, heq⟩)
      · exact ⟨0, by simpa using hlt, by simpa using heq⟩
      · use n + 1
        rw [add_succ_steps]
        exact ⟨hn, heq⟩
    · rintro ⟨n, hn, heq⟩
      cases n with
      | zero => exact .inl (by simpa using heq)
      | succ n =>
        right
        use n
        rw [add_succ_steps] at hn heq
        exact ⟨hn, heq⟩
  | case2 cursor keys hlt =>
    constructor
    · exact Or.inl
    · rintro (hmem | ⟨n, hn, -⟩)
      · exact hmem
      · have hpos : 0 ≤ (n : ℤ) * msPerHour := mul_nonneg (Int.natCast_nonneg n) (by decide)
        omega

/-- A date that lasts an hour is met by some step of the loop. -/
theorem mem_dayKeys (hzone : OnceAnHour localDate) {fromDate toDate x : ℤ}
    (hx : fromDate ≤ x ∧ x < toDate) : localDate x ∈ dayKeys localDate fromDate toDate := by
  have hpos : 0 < msPerHour := by decide
  obtain ⟨hfrom, hto⟩ := hx
  -- `c` is the step before the instant, and `e` the one after it.
  obtain ⟨n, hn⟩ : ∃ n : ℕ, (n : ℤ) = (x - fromDate) / msPerHour :=
    ⟨_, Int.toNat_of_nonneg (Int.ediv_nonneg (by omega) hpos.le)⟩
  have hfloor := Int.ediv_mul_le (x - fromDate) hpos.ne'
  have hceil := Int.lt_ediv_add_one_mul_self (x - fromDate) hpos
  rw [← hn] at hfloor hceil
  rw [add_mul, one_mul] at hceil
  set c := fromDate + n * msPerHour with hc
  have hstep : ∀ k : ℕ, fromDate + k * msPerHour < toDate →
      localDate (fromDate + k * msPerHour) ∈ dayKeys localDate fromDate toDate := by
    intro k hk
    rw [dayKeys, mem_addKey, mem_hourKeys]
    exact .inl (.inr ⟨k, hk, rfl⟩)
  have hlast : localDate (toDate - 1) ∈ dayKeys localDate fromDate toDate := by
    rw [dayKeys, mem_addKey]
    exact .inr rfl
  have hnext : localDate (min (c + msPerHour) (toDate - 1)) ∈
      dayKeys localDate fromDate toDate := by
    rcases lt_or_ge (c + msPerHour) toDate with hlt | hge
    · have hsucc : fromDate + (n + 1 : ℕ) * msPerHour = c + msPerHour :=
        (add_succ_steps fromDate n).trans (add_right_comm _ _ _)
      have hmem := hstep (n + 1) (hsucc.trans_lt hlt)
      rw [hsucc] at hmem
      rwa [min_eq_left (Int.le_sub_one_of_lt hlt)]
    · rwa [min_eq_right ((sub_one_lt toDate).le.trans hge)]
  by_cases hbefore : localDate c = localDate x
  · rw [← hbefore]
    exact hstep n (by omega)
  · by_cases hafter : localDate x = localDate (min (c + msPerHour) (toDate - 1))
    · rw [hafter]
      exact hnext
    · obtain ⟨y, hcy, hyx, hy⟩ := exists_changesAt (by omega) hbefore
      obtain ⟨z, hxz, hze, hz⟩ := exists_changesAt (by omega) hafter
      have htwice := hzone y z hy hz (by omega)
      have hhour : TransactionRollupRepository.msPerHour = msPerHour := rfl
      omega

end Daily

section Trend

variable {J ν δ : Type} [AddCommMonoid ν] [DecidableEq δ] {collate : String → String}
  {localDate : Js.Date → δ} (selection : Selection) {rollup : List (RollupRow ν)}
  {transactions : List (Transaction J ν)} {fromDate toDate : Js.Date}

/-- What a day counts of what is summed. -/
def dayTotals : Sums ν →+ ℤ × ℤ × ℤ where
  toFun s := (s.1 .txn, s.1 .error, s.1 .dispute)
  map_zero' := rfl
  map_add' _ _ := rfl

theorem additive_bucketCounts : Additive bucketCounts (dayTotals (ν := ν)) := by
  intro g
  have hsums : ∀ rows : List (RollupRow ν), (rows.map fun r => dayTotals r.sums).sum =
      ((rows.map fun r => r.txnCount).sum, (rows.map fun r => r.errorCount).sum,
        (rows.map fun r => r.disputeCount).sum) := by
    intro rows
    induction rows with
    | nil => rfl
    | cons r rows ih =>
      simp only [List.map_cons, List.sum_cons, ih]
      rfl
  exact (hsums g.2).symm

variable (collate) in
theorem sum_dayTotals (start : Js.Date) (rows : List (Transaction J ν)) :
    (rows.map fun t => dayTotals (rawRow collate start t).sums).sum =
      ((rows.length : ℤ), countOf (fun t => t.error) rows,
        countOf (fun t => t.possibleDispute) rows) := by
  induction rows with
  | nil => rfl
  | cons t rows ih =>
    rw [List.map_cons, List.sum_cons, ih, countOf_cons, countOf_cons, List.length_cons,
      Nat.cast_succ, add_comm (rows.length : ℤ)]
    rfl

/-- The ranges divide the interval where the date changes within an hour, so every part of an hour
has one date, and the trend counts every transaction once and under its date. -/
theorem dailyTrend_counts (hzone : OnceAnHour localDate)
    (hrollup : rollup.Perm (hourlyAggregate collate transactions)) (h : fromDate < toDate) :
    Consecutive fromDate toDate (localDayRanges localDate fromDate toDate) ∧
    (∀ x, fromDate ≤ x → x < toDate →
      ∃! r, r ∈ localDayRanges localDate fromDate toDate ∧ r.1 ≤ x ∧ x < r.2) ∧
    (∀ r ∈ localDayRanges localDate fromDate toDate,
      (∀ c, r.1 < c → c < r.2 → ChangesAt localDate c → OnTheHour c) ∧
      (r.1 ≠ fromDate → ChangesAt localDate r.1) ∧
      ∀ x, r.1 ≤ x → x < r.2 → localDate (max (bucketHour x) r.1) = localDate x) ∧
    ∃ buckets, getTimeBuckets collate localDate selection rollup transactions fromDate toDate =
        some buckets ∧
      ((dailyTrend localDate buckets (dayKeys localDate fromDate toDate)).map
        DailyCount.date).Nodup ∧
      (∀ x, fromDate ≤ x → x < toDate → localDate x ∈
        (dailyTrend localDate buckets (dayKeys localDate fromDate toDate)).map DailyCount.date) ∧
      ∀ e ∈ dailyTrend localDate buckets (dayKeys localDate fromDate toDate),
        let day := (selected collate selection transactions fromDate toDate).filter
          fun t => localDate t.transactionStartedAt = e.date
        e.count = day.length ∧ e.errorCount = countOf (fun t => t.error) day ∧
          e.disputeCount = countOf (fun t => t.possibleDispute) day := by
  have hconsecutive : Consecutive fromDate toDate (localDayRanges localDate fromDate toDate) :=
    consecutive_localDayRanges h
  refine ⟨hconsecutive, ?_, ?_, ?_⟩
  · intro x hfrom hto
    exact hconsecutive.existsUnique hfrom hto
  · intro r hr
    refine ⟨?_, changesAt_fst hr, ?_⟩
    · intro c hfirst hsecond hc
      exact onTheHour_of_changesAt hzone h hr hfirst hsecond hc
    · intro x hlow hup
      exact localDate_bucket hzone h hr ⟨hlow, hup⟩
  · obtain ⟨buckets, hbuckets, hsums⟩ := exists_getTimeBuckets localDate selection
      localDate additive_bucketCounts hrollup h
    refine ⟨buckets, hbuckets, dates_dailyTrend _ _, ?_, ?_⟩
    · intro x hfrom hto
      exact mem_dates_dailyTrend buckets (mem_dayKeys hzone ⟨hfrom, hto⟩)
    · intro e he
      have hlabel : ∀ r ∈ localDayRanges localDate fromDate toDate,
          ∀ t ∈ selected collate selection transactions r.1 r.2,
            localDate (labelOf r.1 t) = localDate t.transactionStartedAt := by
        intro r hr t ht
        exact localDate_bucket hzone h hr (startsWithin_of_selected selection ht)
      have hcounts := counts_dailyTrend he
      rw [hsums, sum_ranges selection hconsecutive hlabel, sum_dayTotals] at hcounts
      simpa [DailyCount.counts] using hcounts

/-- The date of a zone that is always ahead by one offset. -/
def offsetDate (offset : ℤ) (date : Js.Date) : ℤ := (date + offset) / msPerDay

theorem onceAnHour_offsetDate (offset : ℤ) : OnceAnHour (offsetDate offset) := by
  intro c c' hc hc' hlt
  simp only [ChangesAt, offsetDate, msPerDay, msPerHour] at hc hc'
  rw [TransactionRollupRepository.msPerHour]
  omega

/-- A transaction that is started then, and fails or does not. -/
def sampleStarted (transactionStartedAt : Js.Date) (error : Bool) : Transaction String ℤ :=
  { sampleTransaction none with
    transactionStartedAt := transactionStartedAt
    error := error }

/-- A transaction before half past five, and two after it. -/
def sampleTransactions : List (Transaction String ℤ) :=
  [sampleStarted 62000000 false, sampleStarted 63100000 true, sampleStarted 63500000 false]

/-- An hour in which a day begins at half past: both of its days have their own. -/
theorem dailyTrend_counts_sample : ∃ buckets,
    getTimeBuckets id (offsetDate 23400000) ⟨.hub, none, none⟩
        (hourlyAggregate id sampleTransactions) sampleTransactions 61200000 64800000 =
      some buckets ∧
    (∃ e ∈ dailyTrend (offsetDate 23400000) buckets
        (dayKeys (offsetDate 23400000) 61200000 64800000),
      e.date = 0 ∧ e.count = 1 ∧ e.errorCount = 0) ∧
    ∃ e ∈ dailyTrend (offsetDate 23400000) buckets
        (dayKeys (offsetDate 23400000) 61200000 64800000),
      e.date = 1 ∧ e.count = 2 ∧ e.errorCount = 1 := by
  obtain ⟨-, -, -, buckets, hbuckets, -, hdates, hcounts⟩ :=
    dailyTrend_counts ⟨.hub, none, none⟩ (onceAnHour_offsetDate 23400000)
      (List.Perm.refl (hourlyAggregate id sampleTransactions))
      (show (61200000 : ℤ) < 64800000 by decide)
  refine ⟨buckets, hbuckets, ?_, ?_⟩
  · obtain ⟨e, he, hdate⟩ := List.mem_map.mp (hdates 61200000 le_rfl (by decide))
    obtain ⟨hcount, herrors, -⟩ := hcounts e he
    rw [hdate] at hcount herrors
    exact ⟨e, he, hdate, hcount.trans (by decide +kernel), herrors.trans (by decide +kernel)⟩
  · obtain ⟨e, he, hdate⟩ := List.mem_map.mp (hdates 63000000 (by decide) (by decide))
    obtain ⟨hcount, herrors, -⟩ := hcounts e he
    rw [hdate] at hcount herrors
    exact ⟨e, he, hdate, hcount.trans (by decide +kernel), herrors.trans (by decide +kernel)⟩

end Trend

structure HourlyCount where
  hour : Fin 24
  count : ℤ
  errorCount : ℤ
  deriving DecidableEq

section Profile

/-- An entry for every hour. -/
def profileOf (f : Fin 24 → ℤ × ℤ) : List HourlyCount :=
  (List.finRange 24).map fun hour => ⟨hour, (f hour).1, (f hour).2⟩

theorem profileOf_inj {f g : Fin 24 → ℤ × ℤ} (h : profileOf f = profileOf g) : f = g := by
  funext hour
  have hentry := List.map_inj_left.mp h hour (List.mem_finRange hour)
  rw [HourlyCount.mk.injEq] at hentry
  exact Prod.ext hentry.2.1 hentry.2.2

variable (localHour : Js.Date → Fin 24)

def bucketHourCounts (bucket : TimeBucket) : ℤ × ℤ := (bucket.count, bucket.errorCount)

def hourlyProfile (buckets : List TimeBucket) : List HourlyCount :=
  buckets.foldl (fun hours bucket =>
      hours.modify (localHour bucket.bucketHour) fun entry =>
        { entry with
          count := entry.count + bucket.count
          errorCount := entry.errorCount + bucket.errorCount })
    ((List.finRange 24).map fun hour => ⟨hour, 0, 0⟩)

/-- A bucket is added to the entry of its hour, and to no other. -/
theorem modify_profileOf (f : Fin 24 → ℤ × ℤ) (hour : Fin 24) (bucket : TimeBucket) :
    ((profileOf f).modify hour fun entry =>
        { entry with
          count := entry.count + bucket.count
          errorCount := entry.errorCount + bucket.errorCount }) =
      profileOf fun hour' => f hour' + if hour = hour' then bucketHourCounts bucket else 0 := by
  apply List.ext_getElem
  · simp [profileOf]
  · intro i hi hi'
    simp only [profileOf, List.getElem_modify, List.getElem_map, List.getElem_finRange]
    by_cases heq : (hour : ℕ) = i
    · simp [heq, Fin.ext_iff, bucketHourCounts]
    · simp [heq, Fin.ext_iff]

theorem hourlyProfile_eq (buckets : List TimeBucket) : hourlyProfile localHour buckets =
    profileOf fun hour =>
      ((buckets.filter fun b => localHour b.bucketHour = hour).map bucketHourCounts).sum := by
  have hfold : ∀ f : Fin 24 → ℤ × ℤ,
      buckets.foldl (fun hours bucket =>
        hours.modify (localHour bucket.bucketHour) fun entry =>
          { entry with
            count := entry.count + bucket.count
            errorCount := entry.errorCount + bucket.errorCount }) (profileOf f) =
      profileOf fun hour => f hour +
        ((buckets.filter fun b => localHour b.bucketHour = hour).map bucketHourCounts).sum := by
    induction buckets with
    | nil =>
      intro f
      simp
    | cons bucket buckets ih =>
      intro f
      rw [List.foldl_cons, modify_profileOf, ih]
      congr 1
      funext hour
      by_cases heq : localHour bucket.bucketHour = hour <;> simp [heq, add_assoc]
  have hzero := hfold 0
  simp only [Pi.zero_apply, zero_add] at hzero
  exact hzero

variable {J ν δ : Type} [AddCommMonoid ν] [DecidableEq δ] {collate : String → String}
  {localDate : Js.Date → δ} (selection : Selection) {rollup : List (RollupRow ν)}
  {transactions : List (Transaction J ν)} {fromDate toDate : Js.Date}

/-- An hour counts what a day does, but for the disputes. -/
def hourPart : ℤ × ℤ × ℤ →+ ℤ × ℤ where
  toFun counts := (counts.1, counts.2.1)
  map_zero' := rfl
  map_add' _ _ := rfl

theorem additive_bucketHourCounts :
    Additive bucketHourCounts (hourPart.comp (dayTotals (ν := ν))) := by
  intro g
  have hday := congrArg hourPart (additive_bucketCounts g)
  rw [map_list_sum, List.map_map] at hday
  exact hday

theorem sum_hourPart (start : Js.Date) (rows : List (Transaction J ν)) :
    (rows.map fun t => hourPart (dayTotals (rawRow collate start t).sums)).sum =
      ((rows.length : ℤ), countOf (fun t => t.error) rows) := by
  have hday := congrArg hourPart (sum_dayTotals collate start rows)
  rw [map_list_sum, List.map_map] at hday
  exact hday

/-- The transactions by the hour of their local start. -/
def localProfile (rows : List (Transaction J ν)) : List HourlyCount :=
  profileOf fun hour =>
    let started := rows.filter fun t => localHour t.transactionStartedAt = hour
    (started.length, countOf (fun t => t.error) started)

/-- The profile counts the transactions by the hour in which their buckets begin. -/
theorem map_hourlyProfile (hrollup : rollup.Perm (hourlyAggregate collate transactions))
    (h : fromDate < toDate) :
    (getTimeBuckets collate localDate selection rollup transactions fromDate toDate).map
        (hourlyProfile localHour) =
      some (profileOf fun hour => ((localDayRanges localDate fromDate toDate).map fun r =>
        (((selected collate selection transactions r.1 r.2).filter
          fun t => localHour (labelOf r.1 t) = hour).map
            fun t => hourPart (dayTotals (rawRow collate fromDate t).sums)).sum).sum) := by
  obtain ⟨buckets, hbuckets, hsums⟩ := exists_getTimeBuckets localDate selection localHour
    additive_bucketHourCounts hrollup h
  rw [hbuckets, Option.map_some, hourlyProfile_eq]
  congr 2
  funext hour
  exact hsums hour

/-- Buckets that begin in the hours of their transactions are enough for the profile. -/
theorem map_hourlyProfile_eq (hrollup : rollup.Perm (hourlyAggregate collate transactions))
    (h : fromDate < toDate)
    (hlabel : ∀ r ∈ localDayRanges localDate fromDate toDate,
      ∀ t ∈ selected collate selection transactions r.1 r.2,
        localHour (labelOf r.1 t) = localHour t.transactionStartedAt) :
    (getTimeBuckets collate localDate selection rollup transactions fromDate toDate).map
        (hourlyProfile localHour) =
      some (localProfile localHour
        (selected collate selection transactions fromDate toDate)) := by
  rw [map_hourlyProfile localHour selection hrollup h, localProfile]
  congr 2
  funext hour
  rw [sum_ranges selection (consecutive_localDayRanges h) hlabel, sum_hourPart]

theorem bucketHour_max {x start : Js.Date} (h : start ≤ x) :
    bucketHour (max (bucketHour x) start) = bucketHour x := by
  apply le_antisymm
  · apply (bucketHour_le_iff (onTheHour_bucketHour _)).mpr
    exact (bucketHour_le _).trans (max_le (bucketHour_le x) h)
  · exact (bucketHour_le_iff (onTheHour_bucketHour x)).mpr (le_max_left _ _)

/-- The profile is right in a zone that differs by whole hours. -/
theorem map_hourlyProfile_of_wholeHours
    (hrollup : rollup.Perm (hourlyAggregate collate transactions)) (h : fromDate < toDate)
    (hhours : ∀ x, localHour (bucketHour x) = localHour x) :
    (getTimeBuckets collate localDate selection rollup transactions fromDate toDate).map
        (hourlyProfile localHour) =
      some (localProfile localHour
        (selected collate selection transactions fromDate toDate)) := by
  apply map_hourlyProfile_eq localHour selection hrollup h
  intro r _ t ht
  have hstart := (startsWithin_of_selected selection ht).1
  rw [← hhours, labelOf, bucketHour_max hstart, hhours]

/-- Transactions that are out of their hours can make up for each other, so the profile is asked for
of every set of them: it is right of all these exactly if each transaction starts in the local hour
in which its bucket begins. -/
theorem hourlyProfile_counts_iff (h : fromDate < toDate) :
    (∀ rows, rows.Sublist transactions → ∀ rollup : List (RollupRow ν),
      rollup.Perm (hourlyAggregate collate rows) →
      (getTimeBuckets collate localDate selection rollup rows fromDate toDate).map
          (hourlyProfile localHour) =
        some (localProfile localHour (selected collate selection rows fromDate toDate))) ↔
    ∀ r ∈ localDayRanges localDate fromDate toDate,
      ∀ t ∈ selected collate selection transactions r.1 r.2,
        localHour (max (bucketHour t.transactionStartedAt) r.1) =
          localHour t.transactionStartedAt := by
  have hconsecutive : Consecutive fromDate toDate (localDayRanges localDate fromDate toDate) :=
    consecutive_localDayRanges h
  constructor
  · intro hprofile r hr t ht
    by_contra hne
    -- A transaction out of its hour is not counted there when there is no other.
    obtain ⟨hmem, hclauses⟩ := List.mem_filter.mp ht
    have hstart := startsWithin_of_selected selection ht
    have hsingle := hprofile [t] (List.singleton_sublist.mpr hmem) _ (List.Perm.refl _)
    rw [map_hourlyProfile localHour selection (List.Perm.refl _) h, localProfile] at hsingle
    have hcounts := congrFun (profileOf_inj (Option.some.inj hsingle))
      (localHour t.transactionStartedAt)
    have hbounds := hconsecutive.bounds r hr
    have hwhole := hconsecutive.existsUnique (hbounds.1.trans hstart.1)
      (hstart.2.trans_le hbounds.2.2)
    have hnone : ∀ r' ∈ localDayRanges localDate fromDate toDate,
        (((selected collate selection [t] r'.1 r'.2).filter
          fun t' => localHour (labelOf r'.1 t') = localHour t.transactionStartedAt).map
            fun t' => hourPart (dayTotals (rawRow collate fromDate t').sums)).sum = 0 := by
      intro r' hr'
      have hnil : (selected collate selection [t] r'.1 r'.2).filter
          (fun t' => localHour (labelOf r'.1 t') = localHour t.transactionStartedAt) = [] := by
        rw [List.filter_eq_nil_iff]
        intro t' ht'
        have heq := List.mem_singleton.mp (List.mem_filter.mp ht').1
        rw [heq] at ht' ⊢
        have hrange := hwhole.unique ⟨hr, hstart⟩ ⟨hr', startsWithin_of_selected selection ht'⟩
        rw [← hrange, decide_eq_true_eq]
        exact hne
      rw [hnil, List.map_nil, List.sum_nil]
    have hone : selected collate selection [t] fromDate toDate = [t] := by
      rw [Bool.and_eq_true] at hclauses
      rw [selected, List.filter_cons_of_pos, List.filter_nil]
      rw [Bool.and_eq_true]
      exact ⟨startsWithin_iff.mpr ⟨hbounds.1.trans hstart.1, hstart.2.trans_le hbounds.2.2⟩,
        hclauses.2⟩
    rw [List.map_congr_left hnone, hone] at hcounts
    simp only [List.map_const', List.sum_replicate, nsmul_zero, decide_true,
      List.filter_cons_of_pos, List.filter_nil, List.length_singleton, Nat.cast_one] at hcounts
    exact zero_ne_one (α := ℤ) (congrArg Prod.fst hcounts)
  · intro hlabel rows hrows rollup hrollup
    apply map_hourlyProfile_eq localHour selection hrollup h
    intro r hr t ht
    apply hlabel r hr t
    obtain ⟨hmem, hclauses⟩ := List.mem_filter.mp ht
    exact List.mem_filter.mpr ⟨hrows.mem hmem, hclauses⟩

/-- The hour of a zone that is always ahead by one offset. -/
def offsetHour (offset : ℤ) (date : Js.Date) : Fin 24 :=
  Fin.ofNat 24 ((date + offset) / msPerHour % 24).toNat

/-- A transaction that begins with its bucket, in a zone ahead by five hours and a half. -/
theorem hourlyProfile_counts_sample :
    (getTimeBuckets id (offsetDate 19800000) ⟨.hub, none, none⟩
        (hourlyAggregate id [sampleTransaction none]) [sampleTransaction none] 0 3600000).map
          (hourlyProfile (offsetHour 19800000)) =
      some (localProfile (offsetHour 19800000)
        (selected id ⟨.hub, none, none⟩ [sampleTransaction none] 0 3600000)) := by
  refine (hourlyProfile_counts_iff (offsetHour 19800000) ⟨.hub, none, none⟩
    (show (0 : ℤ) < 3600000 by decide)).mpr ?_ _ (List.Sublist.refl _) _ (List.Perm.refl _)
  intro r hr t ht
  have hstart := (startsWithin_of_selected _ ht).1
  have heq := List.mem_singleton.mp (List.mem_filter.mp ht).1
  rw [heq] at hstart ⊢
  exact congrArg _ (max_eq_left hstart)

def quarterToOne : Transaction String ℤ :=
  { sampleTransaction none with transactionStartedAt := 2700000 }

/-- A quarter to one is a quarter past six in that zone, but is counted at half past five. -/
theorem not_hourlyProfile_counts :
    (getTimeBuckets id (offsetDate 19800000) ⟨.hub, none, none⟩ (hourlyAggregate id [quarterToOne])
        [quarterToOne] 0 3600000).map (hourlyProfile (offsetHour 19800000)) ≠
      some (localProfile (offsetHour 19800000)
        (selected id ⟨.hub, none, none⟩ [quarterToOne] 0 3600000)) := by
  have hranges : localDayRanges (offsetDate 19800000) 0 3600000 = [(0, 3600000)] := by
    simp [localDayRanges, dayStarts, offsetDate, msPerDay, msPerHour, intervalsOf,
      TransactionRollupRepository.msPerHour]
  rw [map_hourlyProfile (offsetHour 19800000) ⟨.hub, none, none⟩ (List.Perm.refl _) (by decide), hranges]
  intro h
  have hcounts := congrFun (profileOf_inj (Option.some.inj h)) 6
  revert hcounts
  decide

end Profile

end GetDashboardHandler
end Audit
