import Mathlib.Tactic.Abel
import Pivotal.Audit.LiveStats

/-! Events are applied in any order and more than once; the counters follow the rows that the
events find. -/
namespace Audit
open LiveStatsStore LiveStatsWriter

/-- The application of an event, and which version of its transaction's row it finds: the versions
are numbered in the order of their commits. -/
structure LiveEvent where
  now : Js.Date
  correlationId : String
  version : ℕ
  deriving DecidableEq

section Store

variable {now : Js.Date} {day : ℤ} {scope : Scope} {d : LiveVector}

/-- What a counter holds, if it is still there. -/
def held (counter : Option Counter) : LiveVector := (counter.map Counter.vector).getD 0

theorem eq_zero_of_isZero (h : isZero d = true) : d = 0 := by
  funext field
  have hfield : field ∈ liveFields := by cases field <;> decide
  simpa using List.all_eq_true.mp h field hfield

theorem held_increment {counter : Option Counter} (h : ∀ c ∈ counter, now < c.expiresAt) :
    held (increment now counter d) = held counter + d := by
  have halive : counter.filter (fun c => now < c.expiresAt) = counter := by
    cases counter with
    | none => rfl
    | some c => simp [Option.filter_some, h c rfl]
  rw [increment, halive]
  by_cases hzero : isZero d = true
  · rw [if_pos hzero, eq_zero_of_isZero hzero, add_zero, held, held, Option.map_map]
    rfl
  · rw [if_neg hzero]
    rfl

theorem incrementAll_apply {scopes : List Scope} (hnodup : scopes.Nodup)
    (counters : ℤ × Scope → Option Counter) (key : ℤ × Scope) :
    incrementAll counters now day scopes d key =
      if key.1 = day ∧ key.2 ∈ scopes then increment now (counters key) d else counters key := by
  induction scopes generalizing counters with
  | nil => simp [incrementAll]
  | cons scope scopes ih =>
    obtain ⟨hnot, hnodup⟩ := List.nodup_cons.mp hnodup
    have hcons : incrementAll counters now day (scope :: scopes) d =
        incrementAll (Function.update counters (day, scope)
          (increment now (counters (day, scope)) d)) now day scopes d := rfl
    rw [hcons, ih hnodup]
    by_cases hkey : key = (day, scope)
    · subst hkey
      simp [hnot]
    · have hne : ¬ (key.1 = day ∧ key.2 = scope) := fun h => hkey (Prod.ext h.1 h.2)
      rw [Function.update_of_ne hkey]
      congr 1
      simp only [List.mem_cons, eq_iff_iff]
      tauto

end Store

section Run

variable (history : String → ℕ → LiveClassificationRecord)

def LiveEvent.record (e : LiveEvent) : LiveClassificationRecord := history e.correlationId e.version

def applied (store : LiveStatsStore) (e : LiveEvent) : LiveStatsStore :=
  onTransactionEvent store e.now e.correlationId (some (e.record history))

def storeAfter (events : List LiveEvent) : LiveStatsStore := events.foldl (applied history) .empty

/-- The latest of the versions that the events found. -/
def latestVersion (events : List LiveEvent) (correlationId : String) : Option ℕ :=
  events.foldl (fun latest e => if e.correlationId = correlationId then
    some (max (latest.getD 0) e.version) else latest) none

def latestRow (events : List LiveEvent) (correlationId : String) :
    Option LiveClassificationRecord :=
  (latestVersion events correlationId).map (history correlationId)

def vectorOf (record : LiveClassificationRecord) : LiveVector :=
  classify record.toLiveClassificationRow

/-- The row is counted for the day and in the scope. -/
def CountsIn (record : LiveClassificationRecord) (day : ℤ) (scope : Scope) : Prop :=
  dateKey record.startedAt = day ∧ scope ∈ scopesFor record.payerFsp record.payeeFsp

instance (record : LiveClassificationRecord) (day : ℤ) (scope : Scope) :
    Decidable (CountsIn record day scope) := inferInstanceAs (Decidable (_ ∧ _))

/-- What a row contributes to the counters of a day and a scope. -/
def contribution (day : ℤ) (scope : Scope) (row : Option LiveClassificationRecord) : LiveVector :=
  (row.map fun record => if CountsIn record day scope then vectorOf record else 0).getD 0

/-- The sums over the transactions of their latest rows. -/
def truth (events : List LiveEvent) (day : ℤ) (scope : Scope) : LiveVector :=
  ∑ correlationId ∈ (events.map LiveEvent.correlationId).toFinset,
    contribution day scope (latestRow history events correlationId)

/-- The rows are counted under the same keys. -/
def SameKeys (record record' : LiveClassificationRecord) : Prop :=
  ∀ day scope, CountsIn record day scope ↔ CountsIn record' day scope

/-- The condition of the result on the application of an event: nothing that it reads has expired;
a newer row is of the same day, payer and payee, and by its time of change is no older than what
was counted, or counts for the same; an older row is older by its time of change too, or counts for
the same. -/
structure Orderly (store : LiveStatsStore) (events : List LiveEvent) (e : LiveEvent) : Prop where
  marker : ∀ m ∈ store.markers e.correlationId, e.now < m.expiresAt
  counter : ∀ day scope, CountsIn (e.record history) day scope →
    ∀ c ∈ store.counters (day, scope), e.now < c.expiresAt
  keys : ∀ v ∈ latestVersion events e.correlationId, v ≤ e.version →
    SameKeys (history e.correlationId v) (e.record history)
  newer : ∀ v ∈ latestVersion events e.correlationId, v ≤ e.version →
    ∀ m ∈ store.markers e.correlationId, (e.record history).updatedAt < m.rank →
      vectorOf (history e.correlationId v) = vectorOf (e.record history)
  older : ∀ v ∈ latestVersion events e.correlationId, e.version < v →
    ∀ m ∈ store.markers e.correlationId, m.rank ≤ (e.record history).updatedAt →
      vectorOf (history e.correlationId v) = vectorOf (e.record history)

/-- Every step of the run meets the condition. -/
def OrderlyRun (events : List LiveEvent) : Prop :=
  ∀ before e after, events = before ++ e :: after →
    Orderly history (storeAfter history before) before e

/-- The markers hold what the latest rows count for. -/
def MarkersMatch (store : LiveStatsStore) (events : List LiveEvent) : Prop :=
  ∀ correlationId, (store.markers correlationId).map Marker.vector =
    (latestRow history events correlationId).map vectorOf

variable {history} {events : List LiveEvent} {e : LiveEvent} {store : LiveStatsStore}

theorem latestVersion_append (correlationId : String) :
    latestVersion (events ++ [e]) correlationId =
      if e.correlationId = correlationId then
        some (max ((latestVersion events correlationId).getD 0) e.version)
      else latestVersion events correlationId := by
  rw [latestVersion, List.foldl_append]
  rfl

theorem latestRow_append_of_ne {correlationId : String} (h : e.correlationId ≠ correlationId) :
    latestRow history (events ++ [e]) correlationId = latestRow history events correlationId := by
  rw [latestRow, latestVersion_append, if_neg h, latestRow]

theorem latestRow_of_not_mem {correlationId : String}
    (h : correlationId ∉ (events.map LiveEvent.correlationId).toFinset) :
    latestRow history events correlationId = none := by
  induction events using List.reverseRecOn with
  | nil => rfl
  | append_singleton events e ih =>
    simp only [List.map_append, List.map_cons, List.map_nil, List.mem_toFinset, List.mem_append,
      List.mem_singleton, not_or] at h
    rw [latestRow_append_of_ne (Ne.symm h.2)]
    exact ih (by simpa using h.1)

/-- An event changes the sums by what its own transaction contributes. -/
theorem truth_append (day : ℤ) (scope : Scope) :
    truth history (events ++ [e]) day scope = truth history events day scope +
      (contribution day scope (latestRow history (events ++ [e]) e.correlationId) -
        contribution day scope (latestRow history events e.correlationId)) := by
  have hseen : ((events ++ [e]).map LiveEvent.correlationId).toFinset =
      insert e.correlationId (events.map LiveEvent.correlationId).toFinset := by
    ext correlationId
    simp
  have htruth : truth history events day scope =
      ∑ correlationId ∈ insert e.correlationId (events.map LiveEvent.correlationId).toFinset,
        contribution day scope (latestRow history events correlationId) := by
    apply Finset.sum_subset (Finset.subset_insert _ _)
    intro correlationId _ hnot
    rw [latestRow_of_not_mem hnot]
    rfl
  have hother : ∀ correlationId ∈ (insert e.correlationId
        (events.map LiveEvent.correlationId).toFinset).erase e.correlationId,
      contribution day scope (latestRow history (events ++ [e]) correlationId) =
        contribution day scope (latestRow history events correlationId) := by
    intro correlationId hmem
    rw [latestRow_append_of_ne (Finset.ne_of_mem_erase hmem).symm]
  have hmem := Finset.mem_insert_self e.correlationId (events.map LiveEvent.correlationId).toFinset
  rw [htruth, truth, hseen, ← Finset.add_sum_erase _ _ hmem, ← Finset.add_sum_erase _ _ hmem,
    Finset.sum_congr rfl hother]
  abel

theorem contribution_congr {record record' : LiveClassificationRecord}
    (hkeys : SameKeys record record') (hvector : vectorOf record = vectorOf record') (day : ℤ)
    (scope : Scope) : contribution day scope (some record) = contribution day scope (some record') := by
  simp only [contribution, Option.map_some, Option.getD_some, hkeys day scope, hvector]

/-- The store after an event that is counted. -/
def counted (history : String → ℕ → LiveClassificationRecord) (store : LiveStatsStore)
    (e : LiveEvent) : LiveStatsStore where
  counters := incrementAll store.counters e.now (dateKey (e.record history).startedAt)
    (scopesFor (e.record history).payerFsp (e.record history).payeeFsp)
    (vectorOf (e.record history) - ((store.markers e.correlationId).map Marker.vector).getD 0)
  markers := Function.update store.markers e.correlationId
    (some ⟨vectorOf (e.record history), (e.record history).updatedAt, e.now + markerTtl⟩)

@[simp] theorem counted_markers_self : (counted history store e).markers e.correlationId =
    some ⟨vectorOf (e.record history), (e.record history).updatedAt, e.now + markerTtl⟩ :=
  Function.update_self _ _ _

theorem counted_markers_of_ne {correlationId : String} (h : correlationId ≠ e.correlationId) :
    (counted history store e).markers correlationId = store.markers correlationId :=
  Function.update_of_ne h _ _

/-- What the script does while the marker has not expired. -/
theorem applied_cases (hmarker : ∀ m ∈ store.markers e.correlationId, e.now < m.expiresAt) :
    (∃ m ∈ store.markers e.correlationId, (e.record history).updatedAt < m.rank ∧
        applied history store e = store) ∨
      (∀ m ∈ store.markers e.correlationId, m.rank ≤ (e.record history).updatedAt) ∧
        applied history store e = counted history store e := by
  have halive : (store.markers e.correlationId).filter (fun m => e.now < m.expiresAt) =
      store.markers e.correlationId := by
    cases hm : store.markers e.correlationId with
    | none => rfl
    | some m => simp [Option.filter_some, hmarker m hm]
  have hscopes : scopesFor (e.record history).payerFsp (e.record history).payeeFsp ≠ [] :=
    List.ne_nil_of_mem (hub_mem_scopesFor _ _)
  simp only [applied, onTransactionEvent, applyEvent, halive, hscopes, false_or]
  cases hm : store.markers e.correlationId with
  | none =>
    right
    simp only [Option.any_none, Bool.false_eq_true, if_false]
    constructor
    · intro m hnone
      cases hnone
    · rw [counted, hm]
      rfl
  | some m =>
    by_cases hstale : (e.record history).updatedAt < m.rank
    · left
      use m, rfl, hstale
      simp [hstale]
    · right
      simp only [Option.any_some, hstale, decide_false, Bool.false_eq_true, if_false]
      constructor
      · intro m' hm'
        cases hm'
        exact not_lt.mp hstale
      · rw [counted, hm]
        rfl

theorem held_incrementAll (horderly : Orderly history store events e) (d : LiveVector) (day : ℤ)
    (scope : Scope) :
    held (incrementAll store.counters e.now (dateKey (e.record history).startedAt)
      (scopesFor (e.record history).payerFsp (e.record history).payeeFsp) d (day, scope)) =
    held (store.counters (day, scope)) +
      if CountsIn (e.record history) day scope then d else 0 := by
  rw [incrementAll_apply (nodup_scopesFor _ _)]
  by_cases hin : CountsIn (e.record history) day scope
  · rw [if_pos ⟨hin.1.symm, hin.2⟩, if_pos hin, held_increment (horderly.counter day scope hin)]
  · rw [if_neg fun h => hin ⟨h.1.symm, h.2⟩, if_neg hin, add_zero]

theorem latestRow_append_newer (h : ∀ v ∈ latestVersion events e.correlationId, v ≤ e.version) :
    latestRow history (events ++ [e]) e.correlationId = some (e.record history) := by
  have hmax : max ((latestVersion events e.correlationId).getD 0) e.version = e.version := by
    cases hv : latestVersion events e.correlationId with
    | none => exact Nat.zero_max _
    | some v => exact max_eq_right (h v hv)
  rw [latestRow, latestVersion_append, if_pos rfl, hmax]
  rfl

theorem latestRow_append_older {v : ℕ} (hv : latestVersion events e.correlationId = some v)
    (h : e.version < v) : latestRow history (events ++ [e]) e.correlationId =
      some (history e.correlationId v) := by
  rw [latestRow, latestVersion_append, if_pos rfl, hv, Option.getD_some, max_eq_left h.le]
  rfl

/-- After an event the markers are with the latest rows, and the counters have changed as the sums
have. -/
structure Follows (history : String → ℕ → LiveClassificationRecord) (store store' : LiveStatsStore)
    (events : List LiveEvent) (e : LiveEvent) : Prop where
  markers : MarkersMatch history store' (events ++ [e])
  counters : ∀ day scope, held (store'.counters (day, scope)) = held (store.counters (day, scope)) +
    (contribution day scope (latestRow history (events ++ [e]) e.correlationId) -
      contribution day scope (latestRow history events e.correlationId))

theorem markersMatch_append {store' : LiveStatsStore} (hmatch : MarkersMatch history store events)
    (hother : ∀ correlationId, correlationId ≠ e.correlationId →
      store'.markers correlationId = store.markers correlationId)
    (hself : (store'.markers e.correlationId).map Marker.vector =
      (latestRow history (events ++ [e]) e.correlationId).map vectorOf) :
    MarkersMatch history store' (events ++ [e]) := by
  intro correlationId
  by_cases hid : correlationId = e.correlationId
  · subst hid
    exact hself
  · rw [hother correlationId hid, latestRow_append_of_ne (Ne.symm hid)]
    exact hmatch correlationId

/-- An event that is skipped has found a row that counts for the same as the latest one. -/
theorem follows_of_skipped (horderly : Orderly history store events e)
    (hmatch : MarkersMatch history store events) {m : Marker}
    (hm : store.markers e.correlationId = some m)
    (hstale : (e.record history).updatedAt < m.rank) : Follows history store store events e := by
  have hmarker := hmatch e.correlationId
  cases hv : latestVersion events e.correlationId with
  | none =>
    rw [latestRow, hv, hm] at hmarker
    cases hmarker
  | some v =>
    have hlatest : latestRow history events e.correlationId =
        some (history e.correlationId v) := by rw [latestRow, hv]; rfl
    by_cases hle : v ≤ e.version
    · have hnew : latestRow history (events ++ [e]) e.correlationId = some (e.record history) := by
        apply latestRow_append_newer
        intro w hw
        obtain rfl : v = w := Option.some.inj (hv.symm.trans hw)
        exact hle
      have hvector := horderly.newer v hv hle m hm hstale
      constructor
      · apply markersMatch_append hmatch (fun _ _ => rfl)
        rw [hmarker, hlatest, hnew, Option.map_some, Option.map_some, hvector]
      · intro day scope
        rw [hlatest, hnew, contribution_congr (horderly.keys v hv hle) hvector, sub_self, add_zero]
    · have hold : latestRow history (events ++ [e]) e.correlationId =
          some (history e.correlationId v) := latestRow_append_older hv (Nat.lt_of_not_le hle)
      constructor
      · apply markersMatch_append hmatch (fun _ _ => rfl)
        rw [hmarker, hlatest, hold]
      · intro day scope
        rw [hlatest, hold, sub_self, add_zero]

/-- An event that is counted has found a row under the keys of the latest one, or an older row that
counts for the same. -/
theorem counted_contribution (horderly : Orderly history store events e)
    (hmatch : MarkersMatch history store events)
    (hcounted : ∀ m ∈ store.markers e.correlationId, m.rank ≤ (e.record history).updatedAt) :
    (latestRow history (events ++ [e]) e.correlationId).map vectorOf =
        some (vectorOf (e.record history)) ∧
      ∀ day scope, (if CountsIn (e.record history) day scope then vectorOf (e.record history) -
          ((store.markers e.correlationId).map Marker.vector).getD 0 else 0) =
        contribution day scope (latestRow history (events ++ [e]) e.correlationId) -
          contribution day scope (latestRow history events e.correlationId) := by
  rw [hmatch e.correlationId]
  cases hv : latestVersion events e.correlationId with
  | none =>
    have hlatest : latestRow history events e.correlationId = none := by rw [latestRow, hv]; rfl
    have hnew : latestRow history (events ++ [e]) e.correlationId = some (e.record history) :=
      latestRow_append_newer (by simp [hv])
    rw [hlatest, hnew]
    constructor
    · rfl
    · intro day scope
      simp [contribution]
  | some v =>
    have hlatest : latestRow history events e.correlationId =
        some (history e.correlationId v) := by rw [latestRow, hv]; rfl
    obtain ⟨m, hm, hvector⟩ : ∃ m, store.markers e.correlationId = some m ∧
        m.vector = vectorOf (history e.correlationId v) := by
      have hmarker := hmatch e.correlationId
      rwa [hlatest, Option.map_some, Option.map_eq_some_iff] at hmarker
    rw [hlatest]
    by_cases hle : v ≤ e.version
    · have hnew : latestRow history (events ++ [e]) e.correlationId = some (e.record history) := by
        apply latestRow_append_newer
        intro w hw
        obtain rfl : v = w := Option.some.inj (hv.symm.trans hw)
        exact hle
      rw [hnew]
      constructor
      · rfl
      · intro day scope
        simp only [contribution, Option.map_some, Option.getD_some,
          horderly.keys v hv hle day scope]
        split_ifs
        · rfl
        · exact (sub_zero 0).symm
    · have hlt := Nat.lt_of_not_le hle
      have heq := horderly.older v hv hlt m hm (hcounted m hm)
      rw [latestRow_append_older hv hlt]
      constructor
      · exact congrArg some heq
      · intro day scope
        rw [Option.map_some, Option.getD_some, heq, sub_self, sub_self, ite_self]

theorem follows_applied (horderly : Orderly history store events e)
    (hmatch : MarkersMatch history store events) :
    Follows history store (applied history store e) events e := by
  rcases applied_cases horderly.marker with ⟨m, hm, hstale, heq⟩ | ⟨hranks, heq⟩
  · rw [heq]
    exact follows_of_skipped horderly hmatch hm hstale
  · rw [heq]
    obtain ⟨hself, hcontribution⟩ := counted_contribution horderly hmatch hranks
    constructor
    · apply markersMatch_append hmatch fun _ => counted_markers_of_ne
      rw [hself, counted_markers_self]
      rfl
    · intro day scope
      rw [counted, held_incrementAll horderly, hcontribution]

theorem storeAfter_append (history : String → ℕ → LiveClassificationRecord)
    (events : List LiveEvent) (e : LiveEvent) :
    storeAfter history (events ++ [e]) = applied history (storeAfter history events) e := by
  rw [storeAfter, List.foldl_append]
  rfl

theorem OrderlyRun.of_append (h : OrderlyRun history (events ++ [e])) :
    OrderlyRun history events ∧ Orderly history (storeAfter history events) events e := by
  constructor
  · intro before e' after heq
    apply h before e' (after ++ [e])
    rw [heq, List.append_assoc, List.cons_append]
  · exact h events e [] rfl

theorem OrderlyRun.append (h : OrderlyRun history events)
    (he : Orderly history (storeAfter history events) events e) :
    OrderlyRun history (events ++ [e]) := by
  intro before e' after heq
  rcases List.eq_nil_or_concat after with rfl | ⟨after, e'', rfl⟩
  · obtain ⟨rfl, hlast⟩ := List.append_inj' heq rfl
    obtain rfl : e = e' := List.singleton_inj.mp hlast
    exact he
  · rw [List.concat_eq_append, ← List.cons_append, ← List.append_assoc] at heq
    obtain ⟨hevents, -⟩ := List.append_inj' heq rfl
    exact h before e' after hevents

/-- A run: the markers are with the latest rows, and the counters hold the sums. -/
theorem follows_storeAfter (h : OrderlyRun history events) :
    MarkersMatch history (storeAfter history events) events ∧
      ∀ day scope, held ((storeAfter history events).counters (day, scope)) =
        truth history events day scope := by
  induction events using List.reverseRecOn with
  | nil =>
    constructor
    · intro correlationId
      rfl
    · intro day scope
      rfl
  | append_singleton events e ih =>
    obtain ⟨hrun, horderly⟩ := h.of_append
    obtain ⟨hmatch, hcounters⟩ := ih hrun
    have hfollows := follows_applied horderly hmatch
    rw [storeAfter_append]
    constructor
    · exact hfollows.markers
    · intro day scope
      rw [hfollows.counters, hcounters, truth_append]

theorem readScope_eq_held {now : Js.Date} {day : ℤ} {scope : Scope}
    (h : ∀ c ∈ store.counters (day, scope), now < c.expiresAt) :
    readScope store now day scope = held (store.counters (day, scope)) := by
  rw [readScope, held]
  cases hc : store.counters (day, scope) with
  | none => rfl
  | some c => simp [Option.filter_some, h c hc]

/-- In every run whose steps meet the condition the counters, while they live, are the sums over the
transactions of what their latest rows count for. -/
theorem counters_equal_truth (history : String → ℕ → LiveClassificationRecord)
    (events : List LiveEvent) (h : OrderlyRun history events) (now : Js.Date) (day : ℤ)
    (scope : Scope)
    (halive : ∀ c ∈ (storeAfter history events).counters (day, scope), now < c.expiresAt) :
    readScope (storeAfter history events) now day scope = truth history events day scope := by
  rw [readScope_eq_held halive]
  exact (follows_storeAfter h).2 day scope

/-! Rows that keep their day, payer and payee, and whose time of change grows with every change, may
be found in any order, and more than once. -/

structure Settled (history : String → ℕ → LiveClassificationRecord) : Prop where
  keys : ∀ correlationId v w, SameKeys (history correlationId v) (history correlationId w)
  updatedAt : ∀ correlationId v w, v < w →
    (history correlationId v).updatedAt < (history correlationId w).updatedAt

theorem Settled.updatedAt_lt_iff (h : Settled history) {correlationId : String} {v w : ℕ} :
    (history correlationId v).updatedAt < (history correlationId w).updatedAt ↔ v < w := by
  have hmono : StrictMono fun v => (history correlationId v).updatedAt :=
    fun v w => h.updatedAt correlationId v w
  exact hmono.lt_iff_lt

/-- No marker that one of the events leaves has expired at another. -/
def WithinTtl (events : List LiveEvent) : Prop :=
  ∀ e ∈ events, ∀ e' ∈ events, e'.now < e.now + markerTtl

instance (events : List LiveEvent) : Decidable (WithinTtl events) :=
  inferInstanceAs (Decidable (∀ e ∈ events, ∀ e' ∈ events, e'.now < e.now + markerTtl))

/-- The markers are of the latest rows, and what is stored was left by an event. -/
structure LeftBy (history : String → ℕ → LiveClassificationRecord) (store : LiveStatsStore)
    (events : List LiveEvent) : Prop where
  rank : ∀ correlationId, (store.markers correlationId).map Marker.rank =
    (latestRow history events correlationId).map LiveClassificationRecord.updatedAt
  marker : ∀ correlationId, ∀ m ∈ store.markers correlationId,
    ∃ e ∈ events, m.expiresAt = e.now + markerTtl
  counter : ∀ key, ∀ c ∈ store.counters key, ∃ e ∈ events, c.expiresAt = e.now + counterTtl

theorem LeftBy.rank_eq (hleft : LeftBy history store events) {correlationId : String} {v : ℕ}
    (hv : latestVersion events correlationId = some v) :
    ∃ m, store.markers correlationId = some m ∧
      m.rank = (history correlationId v).updatedAt := by
  have hrank := hleft.rank correlationId
  rw [latestRow, hv, Option.map_some, Option.map_some, Option.map_eq_some_iff] at hrank
  exact hrank

theorem orderly_of_settled (h : Settled history) (hleft : LeftBy history store events)
    (httl : WithinTtl (events ++ [e])) : Orderly history store events e := by
  have hlast : e ∈ events ++ [e] := by simp
  have hrank : ∀ v ∈ latestVersion events e.correlationId,
      ∀ m ∈ store.markers e.correlationId, m.rank = (history e.correlationId v).updatedAt := by
    intro v hv m hm
    obtain ⟨m', hm', hrank⟩ := hleft.rank_eq hv
    obtain rfl : m = m' := Option.some.inj (hm.symm.trans hm')
    exact hrank
  constructor
  · intro m hm
    obtain ⟨e', he', hexpires⟩ := hleft.marker e.correlationId m hm
    rw [hexpires]
    exact httl e' (List.mem_append_left _ he') e hlast
  · intro day scope _ c hc
    obtain ⟨e', he', hexpires⟩ := hleft.counter (day, scope) c hc
    have hmarker := httl e' (List.mem_append_left _ he') e hlast
    rw [hexpires]
    exact hmarker.trans (Int.add_lt_add_left (by decide) e'.now)
  · intro v _ _
    exact h.keys e.correlationId v e.version
  · intro v hv hle m hm hstale
    rw [hrank v hv m hm] at hstale
    exact absurd (h.updatedAt_lt_iff.mp hstale) (not_lt.mpr hle)
  · intro v hv hlt m hm hle
    rw [hrank v hv m hm] at hle
    exact absurd (h.updatedAt_lt_iff.mpr hlt) (not_lt.mpr hle)

theorem increment_expiresAt {now : Js.Date} {counter : Option Counter} {d : LiveVector}
    {c : Counter} (hc : c ∈ increment now counter d) : c.expiresAt = now + counterTtl := by
  simp only [increment, Option.mem_def] at hc
  split at hc
  · obtain ⟨c', _, rfl⟩ := Option.map_eq_some_iff.mp hc
    rfl
  · cases hc
    rfl

/-- The version that is the latest after an event is the one that a settled row was counted by. -/
theorem rank_applied (h : Settled history) (hleft : LeftBy history store events)
    (horderly : Orderly history store events e) :
    ((applied history store e).markers e.correlationId).map Marker.rank =
      (latestRow history (events ++ [e]) e.correlationId).map
        LiveClassificationRecord.updatedAt := by
  rcases applied_cases horderly.marker with ⟨m, hm, hstale, heq⟩ | ⟨hranks, heq⟩
  · have hrank := hleft.rank e.correlationId
    rw [heq, hrank]
    cases hv : latestVersion events e.correlationId with
    | none =>
      rw [latestRow, hv, show store.markers e.correlationId = some m from hm] at hrank
      cases hrank
    | some v =>
      obtain ⟨m', hm', hrank⟩ := hleft.rank_eq hv
      obtain rfl : m = m' := Option.some.inj (hm.symm.trans hm')
      rw [hrank] at hstale
      rw [latestRow_append_older hv (h.updatedAt_lt_iff.mp hstale), latestRow, hv, Option.map_some]
  · rw [heq, counted_markers_self, latestRow_append_newer]
    · rfl
    · intro v hv
      obtain ⟨m, hm, hrank⟩ := hleft.rank_eq hv
      have hle := hranks m hm
      rw [hrank] at hle
      exact not_lt.mp fun hlt => not_lt.mpr hle (h.updatedAt_lt_iff.mpr hlt)

theorem leftBy_applied (h : Settled history) (hleft : LeftBy history store events)
    (horderly : Orderly history store events e) :
    LeftBy history (applied history store e) (events ++ [e]) := by
  have hmem : ∀ e' ∈ events, e' ∈ events ++ [e] := fun e' he' => List.mem_append_left _ he'
  have hself := rank_applied h hleft horderly
  rcases applied_cases horderly.marker with ⟨m, hm, hstale, heq⟩ | ⟨hranks, heq⟩
  · rw [heq] at hself ⊢
    constructor
    · intro correlationId
      by_cases hid : correlationId = e.correlationId
      · rw [hid, hself]
      · rw [latestRow_append_of_ne (Ne.symm hid), hleft.rank]
    · intro correlationId m' hm'
      obtain ⟨e', he', hexpires⟩ := hleft.marker correlationId m' hm'
      exact ⟨e', hmem e' he', hexpires⟩
    · intro key c hc
      obtain ⟨e', he', hexpires⟩ := hleft.counter key c hc
      exact ⟨e', hmem e' he', hexpires⟩
  · rw [heq] at hself ⊢
    constructor
    · intro correlationId
      by_cases hid : correlationId = e.correlationId
      · rw [hid, hself]
      · rw [latestRow_append_of_ne (Ne.symm hid), counted_markers_of_ne hid, hleft.rank]
    · intro correlationId m' hm'
      by_cases hid : correlationId = e.correlationId
      · rw [hid, counted_markers_self] at hm'
        cases hm'
        exact ⟨e, List.mem_append_right _ (List.mem_singleton_self e), rfl⟩
      · rw [counted_markers_of_ne hid] at hm'
        obtain ⟨e', he', hexpires⟩ := hleft.marker correlationId m' hm'
        exact ⟨e', hmem e' he', hexpires⟩
    · intro key c hc
      simp only [counted, incrementAll_apply (nodup_scopesFor _ _)] at hc
      split at hc
      · exact ⟨e, List.mem_append_right _ (List.mem_singleton_self e), increment_expiresAt hc⟩
      · obtain ⟨e', he', hexpires⟩ := hleft.counter key c hc
        exact ⟨e', hmem e' he', hexpires⟩

/-- Settled rows make every run orderly that the markers outlive. -/
theorem orderlyRun_of_settled (h : Settled history) (httl : WithinTtl events) :
    OrderlyRun history events ∧ LeftBy history (storeAfter history events) events := by
  induction events using List.reverseRecOn with
  | nil =>
    constructor
    · intro before e after heq
      exact absurd heq (by simp)
    · constructor
      · intro correlationId
        rfl
      · intro correlationId m hm
        cases hm
      · intro key c hc
        cases hc
  | append_singleton events e ih =>
    have hwithin : WithinTtl events := by
      intro e₁ he₁ e₂ he₂
      exact httl e₁ (List.mem_append_left _ he₁) e₂ (List.mem_append_left _ he₂)
    obtain ⟨hrun, hleft⟩ := ih hwithin
    have horderly := orderly_of_settled h hleft httl
    rw [storeAfter_append]
    exact ⟨hrun.append horderly, leftBy_applied h hleft horderly⟩

def sampleRecord (payeeFsp : String) (error : Bool) (updatedAt : Js.Date) :
    LiveClassificationRecord where
  payerFsp := "payer"
  payeeFsp := payeeFsp
  startedAt := 0
  updatedAt := updatedAt
  error := error
  possibleDispute := false
  partiesError := false
  quotesError := error
  transfersError := false
  patchError := false
  latencyMs := none

/-- A transaction that fails. -/
def failingHistory (_ : String) (v : ℕ) : LiveClassificationRecord :=
  sampleRecord "payee" (v ≠ 0) v

theorem settled_failingHistory : Settled failingHistory where
  keys _ _ _ _ _ := Iff.rfl
  updatedAt _ _ _ h := Int.ofNat_lt.mpr h

/-- The failure is found first, and the row before it later. -/
def sampleEvents : List LiveEvent := [⟨0, "T", 1⟩, ⟨1, "T", 0⟩, ⟨1, "T", 1⟩]

theorem counters_equal_truth_sample :
    readScope (storeAfter failingHistory sampleEvents) 2 0 .hub =
      truth failingHistory sampleEvents 0 .hub := by
  have httl : WithinTtl sampleEvents := by decide
  obtain ⟨hrun, hleft⟩ := orderlyRun_of_settled settled_failingHistory httl
  apply counters_equal_truth failingHistory sampleEvents hrun
  have hnow : ∀ e ∈ sampleEvents, 2 < e.now + counterTtl := by decide
  intro c hc
  obtain ⟨e, he, hexpires⟩ := hleft.counter _ c hc
  rw [hexpires]
  exact hnow e he

/-- A transaction whose payee is not known when its first event is applied. -/
def lookupHistory (_ : String) (v : ℕ) : LiveClassificationRecord :=
  sampleRecord (if v = 0 then "" else "payee") false v

/-- Nothing expires, and the payee's counters miss the transaction. -/
theorem not_counters_equal_truth :
    ¬ ∀ (history : String → ℕ → LiveClassificationRecord) (events : List LiveEvent)
      (now : Js.Date) (day : ℤ) (scope : Scope), WithinTtl events →
        (∀ e ∈ events, now < e.now + markerTtl) →
          readScope (storeAfter history events) now day scope = truth history events day scope := by
  intro h
  have hread := h lookupHistory [⟨0, "T", 0⟩, ⟨1, "T", 1⟩] 2 0 (.fsp "payee") (by decide) (by decide)
  have htxn := congrFun hread .txn
  exact absurd htxn (by decide +kernel)

end Run
end Audit
