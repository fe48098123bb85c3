import Pivotal.Async.Along
import Pivotal.Fspiop.Conservation
import Pivotal.Fspiop.RecentCache

/-! What leaves the cache of replies that nobody has taken. -/
namespace Fspiop.FspiopResponseSubscriber
open Async

variable {ι Body : Type}

/-- `addToRecent` with both of its readings of the clock: one to evict by, one to expire by. -/
def addToRecentAt (s : FspiopResponseSubscriber ι Body) (subject : String) (payload : Payload Body)
    (now later : Js.Date) : FspiopResponseSubscriber ι Body :=
  let s := s.evictExpiredRecent now
  let recent :=
    if recentCacheMaxEntries ≤ s.recent.size then
      match s.recent.firstKey with
      | some oldestKey => s.recent.delete oldestKey
      | none => s.recent
    else s.recent
  { s with recent := recent.set subject ⟨subject, payload, later + recentCacheTtlMs⟩ }

/-- What happens to a subscriber, with the readings of the clock in their order. -/
inductive Moment (ι Body : Type) where
  | waitFor (id : ι) (args : WaitFor) (now : Js.Date)
  | dispatch (subject : String) (payload : Payload Body) (now later : Js.Date)
  | fire (id : ι)
  | cancel (successSubject : String)
  | destroy

/-- The reading by which entries expire. -/
def Moment.now : Moment ι Body → Option Js.Date
  | .waitFor _ _ now => some now
  | .dispatch _ _ now _ => some now
  | .fire _ | .cancel _ | .destroy => none

variable [DecidableEq ι]

/-- `onModuleDestroy`, as far as the waiters and the cache go. -/
def destroy (s : FspiopResponseSubscriber ι Body) : FspiopResponseSubscriber ι Body :=
  { (s.pending.entries.map Prod.fst).foldl cancel s with pending := .empty, recent := .empty }

def happen (s : FspiopResponseSubscriber ι Body) : Moment ι Body → FspiopResponseSubscriber ι Body
  | .waitFor id args now => s.waitFor id args now
  | .dispatch subject payload now later =>
    match s.pending.get (s.matchedSubject subject) with
    | none => s.addToRecentAt subject payload now later
    | some _ => s.dispatch subject payload now
  | .fire id =>
    match s.waiters id with
    | some w => s.fire id w
    | none => s
  | .cancel successSubject => s.cancel successSubject
  | .destroy => s.destroy

/-- A clock that stands still between its readings makes this the step of the subscriber. -/
theorem happen_dispatch (s : FspiopResponseSubscriber ι Body) (subject : String)
    (payload : Payload Body) (now : Js.Date) :
    s.happen (.dispatch subject payload now now) = s.dispatch subject payload now := by
  rw [happen]
  split
  · rename_i hnone
    exact (dispatch_of_none hnone).symm
  · rfl

section

variable (s : FspiopResponseSubscriber ι Body)

/-- Why an unexpired entry may leave the cache: it is handed to a waiter, replaced by a newer message
of its subject, or the first to expire of a full cache that a new subject enters. -/
def MayDrop (key : String) (entry : RecentEntry Body) : Moment ι Body → Prop
  | .waitFor _ args now => ∃ matched, (s.takeFromRecent args.subjects now).1 = some (entry, matched)
  | .dispatch subject _ now _ =>
    let recent := (s.evictExpiredRecent now).recent
    s.pending.get (s.matchedSubject subject) = none ∧
      (key = subject ∨ recent.get subject = none ∧ recentCacheMaxEntries ≤ recent.size ∧
        ∀ other ∈ recent.entries, entry.expiresAt ≤ other.2.expiresAt)
  | .fire _ | .cancel _ | .destroy => False

def DropsOnly (m : Moment ι Body) : Prop :=
  ∀ key entry, s.recent.get key = some entry → (∀ now ∈ m.now, now < entry.expiresAt) →
    (s.happen m).recent.get key = some entry ∨ s.MayDrop key entry m

/-- A message that no waiter takes is not of a subject that is still cached, unless its entry is the
newest of a cache with room or the oldest of a full one, and the clock is not behind what the cache
already has. A subscriber with cached messages is not destroyed. -/
def Orderly : Moment ι Body → Prop
  | .dispatch subject _ now later =>
    let recent := (s.evictExpiredRecent now).recent
    s.pending.get (s.matchedSubject subject) = none →
      (∀ other ∈ recent.entries, other.2.expiresAt ≤ later + recentCacheTtlMs) ∧
      (recent.get subject = none ∨
        if recentCacheMaxEntries ≤ recent.size then recent.firstKey = some subject
        else recent.entries.getLast?.map Prod.fst = some subject)
  | .destroy => s.recent.entries = []
  | .waitFor _ _ _ | .fire _ | .cancel _ => True

end

section Cache

variable {recent : Js.Map String (RecentEntry Body)} {subject : String} {entry : RecentEntry Body}

/-- The entries of a cache are in the order in which they expire. -/
def Sorted (recent : Js.Map String (RecentEntry Body)) : Prop :=
  recent.entries.Pairwise fun e e' => e.2.expiresAt ≤ e'.2.expiresAt

theorem Sorted.filter (h : Sorted recent) (p : String → RecentEntry Body → Bool) :
    Sorted (recent.filter p) :=
  List.Pairwise.filter _ h

theorem Sorted.delete (h : Sorted recent) (key : String) : Sorted (recent.delete key) :=
  h.filter _

theorem Sorted.concat {front : List (String × RecentEntry Body)}
    (h : front.Pairwise fun e e' => e.2.expiresAt ≤ e'.2.expiresAt)
    (hlast : ∀ other ∈ front, other.2.expiresAt ≤ entry.expiresAt) :
    (front ++ [(subject, entry)]).Pairwise fun e e' => e.2.expiresAt ≤ e'.2.expiresAt := by
  refine List.pairwise_append.mpr ⟨h, List.pairwise_singleton _ _, ?_⟩
  intro other hother last hmem
  rw [List.mem_singleton.mp hmem]
  exact hlast other hother

/-- A new entry, or one in the place of the last, goes to the end. -/
theorem Sorted.set (h : Sorted recent)
    (hlast : ∀ other ∈ recent.entries, other.2.expiresAt ≤ entry.expiresAt)
    (hplace : recent.get subject = none ∨ recent.entries.getLast?.map Prod.fst = some subject) :
    Sorted (recent.set subject entry) := by
  rcases hplace with hnone | hsome
  · rw [Sorted, Js.Map.entries_set_of_get hnone]
    exact Sorted.concat h hlast
  · obtain ⟨⟨key, old⟩, hget, rfl⟩ := Option.map_eq_some_iff.mp hsome
    obtain ⟨front, hfront⟩ := List.getLast?_eq_some_iff.mp hget
    rw [Sorted, Js.Map.entries_set_of_getLast hfront]
    rw [Sorted, hfront] at h
    refine Sorted.concat (List.pairwise_append.mp h).1 fun other hother => hlast other ?_
    rw [hfront]
    exact List.mem_append_left _ hother

theorem Sorted.first_le (h : Sorted recent) {oldestKey : String}
    (hfirst : recent.firstKey = some oldestKey) (hget : recent.get oldestKey = some entry) :
    ∀ other ∈ recent.entries, entry.expiresAt ≤ other.2.expiresAt := by
  obtain ⟨⟨key, oldest⟩, hhead, rfl⟩ := Option.map_eq_some_iff.mp hfirst
  obtain ⟨rest, hrest⟩ := List.head?_eq_some_iff.mp hhead
  have hsame : oldest = entry := by
    have hmem : (key, oldest) ∈ recent.entries := List.mem_of_mem_head? hhead
    exact Option.some.inj ((Js.Map.mem_entries.mp hmem).symm.trans hget)
  intro other hother
  rw [Sorted, hrest] at h
  rw [hrest, List.mem_cons] at hother
  rcases hother with rfl | hother
  · exact (congrArg RecentEntry.expiresAt hsame).symm.le
  · rw [← hsame]
    exact List.rel_of_pairwise_cons h hother

end Cache

variable {s : FspiopResponseSubscriber ι Body}

/-- What is left of a full cache has no entry of the subject that enters it. -/
theorem get_delete_firstKey {recent : Js.Map String (RecentEntry Body)} {subject oldestKey : String}
    (hfirst : recent.firstKey = some oldestKey)
    (hplace : recent.get subject = none ∨ recent.firstKey = some subject) :
    (recent.delete oldestKey).get subject = none := by
  rw [Js.Map.get_delete]
  split
  · rfl
  · rename_i hne
    rcases hplace with hnone | hsome
    · exact hnone
    · rw [hfirst, Option.some.injEq] at hsome
      exact absurd hsome.symm hne

omit [DecidableEq ι] in
theorem sorted_addToRecentAt {subject : String} {payload : Payload Body} {now later : Js.Date}
    (hs : Sorted s.recent)
    (hclock : ∀ other ∈ (s.evictExpiredRecent now).recent.entries,
      other.2.expiresAt ≤ later + recentCacheTtlMs)
    (hplace : (s.evictExpiredRecent now).recent.get subject = none ∨
      if recentCacheMaxEntries ≤ (s.evictExpiredRecent now).recent.size then
        (s.evictExpiredRecent now).recent.firstKey = some subject
      else (s.evictExpiredRecent now).recent.entries.getLast?.map Prod.fst = some subject) :
    Sorted (s.addToRecentAt subject payload now later).recent := by
  have hevicted : Sorted (s.evictExpiredRecent now).recent := hs.filter _
  rw [addToRecentAt]
  dsimp only
  generalize (s.evictExpiredRecent now).recent = recent at hevicted hclock hplace ⊢
  by_cases hfull : recentCacheMaxEntries ≤ recent.size
  · rw [if_pos hfull] at hplace ⊢
    cases hfirst : recent.firstKey with
    | none =>
      have hsize := Js.Map.firstKey_eq_none hfirst
      simp [hsize, recentCacheMaxEntries] at hfull
    | some oldestKey =>
      refine Sorted.set (hevicted.delete oldestKey) (fun other hother => hclock other ?_)
        (.inl (get_delete_firstKey hfirst hplace))
      exact (List.mem_filter.mp hother).1
  · rw [if_neg hfull] at hplace ⊢
    exact hevicted.set hclock hplace

theorem waitFor_recent (s : FspiopResponseSubscriber ι Body) (id : ι) (args : WaitFor)
    (now : Js.Date) : (s.waitFor id args now).recent = (s.takeFromRecent args.subjects now).2.recent := by
  rw [waitFor]
  generalize s.takeFromRecent args.subjects now = taken
  obtain ⟨_ | found, s'⟩ := taken <;> rfl

theorem fire_recent (s : FspiopResponseSubscriber ι Body) (id : ι) :
    (s.happen (.fire id)).recent = s.recent := by
  rw [happen]
  split
  · rw [fire, settle_recent, cancel_recent]
    rfl
  · rfl

theorem sorted_happen (hs : Sorted s.recent) {m : Moment ι Body} (hm : s.Orderly m) :
    Sorted (s.happen m).recent := by
  cases m with
  | waitFor id args now =>
    rw [happen, waitFor_recent]
    rcases s.takeFromRecent_cases args.subjects now with ⟨-, htaken⟩ | ⟨key, _, _, -, -, htaken⟩
    · rw [htaken]
      exact hs.filter _
    · rw [htaken]
      exact Sorted.delete (hs.filter _) key
  | dispatch subject payload now later =>
    rw [happen]
    split
    · rename_i hnone
      exact sorted_addToRecentAt hs (hm hnone).1 (hm hnone).2
    · rename_i hsome
      rw [dispatch_recent_of_some hsome]
      exact hs
  | fire id =>
    rw [fire_recent]
    exact hs
  | cancel successSubject =>
    rw [happen, cancel_recent]
    exact hs
  | destroy => exact List.Pairwise.nil

omit [DecidableEq ι] in
/-- An unexpired entry stays through the eviction by time. -/
theorem get_evicted {key : String} {entry : RecentEntry Body} {now : Js.Date}
    (hget : s.recent.get key = some entry) (hlive : now < entry.expiresAt) :
    (s.evictExpiredRecent now).recent.get key = some entry := by
  rw [evictExpiredRecent_get, hget]
  exact Option.filter_some_pos (decide_eq_true hlive)

omit [DecidableEq ι] in
theorem addToRecentAt_drops {subject key : String} {payload : Payload Body} {now later : Js.Date}
    {entry : RecentEntry Body} (hs : Sorted s.recent)
    (hplace : (s.evictExpiredRecent now).recent.get subject = none ∨
      if recentCacheMaxEntries ≤ (s.evictExpiredRecent now).recent.size then
        (s.evictExpiredRecent now).recent.firstKey = some subject
      else (s.evictExpiredRecent now).recent.entries.getLast?.map Prod.fst = some subject)
    (hget : (s.evictExpiredRecent now).recent.get key = some entry) (hkey : key ≠ subject) :
    (s.addToRecentAt subject payload now later).recent.get key = some entry ∨
      (s.evictExpiredRecent now).recent.get subject = none ∧
        recentCacheMaxEntries ≤ (s.evictExpiredRecent now).recent.size ∧
        ∀ other ∈ (s.evictExpiredRecent now).recent.entries, entry.expiresAt ≤ other.2.expiresAt := by
  have hevicted : Sorted (s.evictExpiredRecent now).recent := hs.filter _
  rw [addToRecentAt]
  dsimp only
  generalize (s.evictExpiredRecent now).recent = recent at hevicted hplace hget ⊢
  rw [Js.Map.get_set, if_neg hkey]
  by_cases hfull : recentCacheMaxEntries ≤ recent.size
  · rw [if_pos hfull] at hplace ⊢
    cases hfirst : recent.firstKey with
    | none => exact .inl hget
    | some oldestKey =>
      dsimp only
      rw [Js.Map.get_delete]
      by_cases holdest : key = oldestKey
      · right
        rw [holdest] at hget hkey
        refine ⟨hplace.resolve_right ?_, hfull, hevicted.first_le hfirst hget⟩
        rw [hfirst, Option.some.injEq]
        exact hkey
      · rw [if_neg holdest]
        exact .inl hget
  · rw [if_neg hfull]
    exact .inl hget

theorem dropsOnly_happen (hs : Sorted s.recent) {m : Moment ι Body} (hm : s.Orderly m) :
    s.DropsOnly m := by
  intro key entry hget hlive
  cases m with
  | waitFor id args now =>
    have hevicted := get_evicted hget (hlive now rfl)
    rw [happen, waitFor_recent]
    rcases s.takeFromRecent_cases args.subjects now with
      ⟨-, htaken⟩ | ⟨key', entry', matched, hsome, hget', htaken⟩
    · rw [htaken]
      exact .inl hevicted
    · rw [htaken, Js.Map.get_delete]
      by_cases hkey : key = key'
      · rw [← hkey, hevicted, Option.some.injEq] at hget'
        rw [← hget'] at hsome
        exact .inr ⟨matched, hsome⟩
      · rw [if_neg hkey]
        exact .inl hevicted
  | dispatch subject payload now later =>
    rw [happen]
    split
    · rename_i hnone
      by_cases hkey : key = subject
      · exact .inr ⟨hnone, .inl hkey⟩
      · have hevicted := get_evicted hget (hlive now rfl)
        exact (addToRecentAt_drops hs (hm hnone).2 hevicted hkey).imp_right
          fun hearliest => ⟨hnone, .inr hearliest⟩
    · rename_i hsome
      rw [dispatch_recent_of_some hsome]
      exact .inl hget
  | fire id =>
    rw [fire_recent]
    exact .inl hget
  | cancel successSubject =>
    rw [happen, cancel_recent]
    exact .inl hget
  | destroy =>
    have hmem := Js.Map.mem_entries.mpr hget
    rw [show s.recent.entries = [] from hm] at hmem
    cases hmem

/-- In every run in which no cached subject is added again out of place and the clock is not behind
the cache, what leaves the cache is handed over, replaced, expired, or the first to expire of a full
cache that a new subject enters. -/
theorem cache_drops_only {ms : List (Moment ι Body)} (h : Along happen Orderly initial ms) :
    Along happen DropsOnly initial ms := by
  have hinitial : Sorted (initial : FspiopResponseSubscriber ι Body).recent := List.Pairwise.nil
  exact h.of_invariant (I := fun s => Sorted s.recent) (fun _ _ hs hm => sorted_happen hs hm)
    (fun _ _ hs hm => dropsOnly_happen hs hm) hinitial

section Full

/-- Subjects that are all different. -/
def subjectOf (i : ℕ) : String := String.ofList (List.replicate i 'a')

theorem subjectOf_inj {i j : ℕ} (h : subjectOf i = subjectOf j) : i = j := by
  have hlength := congrArg List.length (String.ofList_injective h)
  rwa [List.length_replicate, List.length_replicate] at hlength

def entryOf (i : ℕ) : String × RecentEntry ℕ :=
  (subjectOf i, ⟨subjectOf i, .null, recentCacheTtlMs⟩)

/-- A message of each of the first subjects, all at once. -/
def fill (n : ℕ) : List (Moment ℕ ℕ) :=
  (List.range n).map fun i => .dispatch (subjectOf i) .null 0 0

theorem get_of_entries {s : FspiopResponseSubscriber ℕ ℕ} {n i : ℕ}
    (h : s.recent.entries = (List.range n).map entryOf) (hi : i < n) :
    s.recent.get (subjectOf i) = some (entryOf i).2 := by
  refine Js.Map.mem_entries.mp ?_
  rw [h]
  exact List.mem_map.mpr ⟨i, List.mem_range.mpr hi, rfl⟩

theorem evictExpiredRecent_of_entries {s : FspiopResponseSubscriber ℕ ℕ} {n : ℕ}
    (h : s.recent.entries = (List.range n).map entryOf) :
    (s.evictExpiredRecent 0).recent.entries = (List.range n).map entryOf := by
  rw [← h]
  refine List.filter_eq_self.mpr fun e he => ?_
  rw [h] at he
  obtain ⟨i, -, rfl⟩ := List.mem_map.mp he
  rfl

theorem evicted_get_next {s : FspiopResponseSubscriber ℕ ℕ} {n : ℕ}
    (h : s.recent.entries = (List.range n).map entryOf) :
    (s.evictExpiredRecent 0).recent.get (subjectOf n) = none := by
  rw [Option.eq_none_iff_forall_ne_some]
  intro entry hget
  have hmem := Js.Map.mem_entries.mpr hget
  rw [evictExpiredRecent_of_entries h] at hmem
  obtain ⟨i, hi, heq⟩ := List.mem_map.mp hmem
  have hsame := subjectOf_inj (congrArg Prod.fst heq)
  rw [List.mem_range] at hi
  omega

theorem fill_succ (n : ℕ) : fill (n + 1) = fill n ++ [.dispatch (subjectOf n) .null 0 0] := by
  rw [fill, List.range_succ, List.map_append]
  rfl

theorem happen_next {s : FspiopResponseSubscriber ℕ ℕ} (hpending : s.pending = .empty) (n : ℕ) :
    s.happen (.dispatch (subjectOf n) .null 0 0) = s.addToRecentAt (subjectOf n) .null 0 0 := by
  rw [happen, hpending]
  rfl

theorem fill_cached {n : ℕ} (hn : n ≤ recentCacheMaxEntries) :
    ((fill n).foldl happen initial).recent.entries = (List.range n).map entryOf ∧
      ((fill n).foldl happen initial).pending = .empty := by
  induction n with
  | zero => exact ⟨rfl, rfl⟩
  | succ n ih =>
    obtain ⟨hentries, hpending⟩ := ih (by omega)
    rw [fill_succ, List.foldl_append]
    generalize (fill n).foldl happen initial = s at hentries hpending ⊢
    have hevicted := evictExpiredRecent_of_entries hentries
    have hroom : ¬ recentCacheMaxEntries ≤ (s.evictExpiredRecent 0).recent.size := by
      rw [Js.Map.size, hevicted, List.length_map, List.length_range]
      omega
    rw [List.foldl_cons, List.foldl_nil, happen_next hpending, addToRecentAt]
    dsimp only
    rw [if_neg hroom, Js.Map.entries_set_of_get (evicted_get_next hentries), hevicted, List.range_succ, List.map_append]
    exact ⟨rfl, hpending⟩

/-- What first happens with a full cache evicts the first entry of it. -/
theorem get_oldest {s : FspiopResponseSubscriber ℕ ℕ}
    (hentries : s.recent.entries = (List.range recentCacheMaxEntries).map entryOf)
    {subject : String} (hne : subjectOf 0 ≠ subject) :
    (s.addToRecentAt subject .null 0 0).recent.get (subjectOf 0) = none := by
  have hevicted := evictExpiredRecent_of_entries hentries
  have hfull : recentCacheMaxEntries ≤ (s.evictExpiredRecent 0).recent.size := by
    rw [Js.Map.size, hevicted, List.length_map, List.length_range]
  have hfirst : (s.evictExpiredRecent 0).recent.firstKey = some (subjectOf 0) := by
    rw [Js.Map.firstKey, hevicted, List.head?_map, List.head?_range, if_neg (by decide)]
    rfl
  rw [addToRecentAt]
  dsimp only
  rw [if_pos hfull, hfirst, Js.Map.get_set, if_neg hne, Js.Map.get_delete, if_pos rfl]

theorem fill_orderly {n : ℕ} (hn : n ≤ recentCacheMaxEntries + 1) :
    Along happen Orderly (initial : FspiopResponseSubscriber ℕ ℕ) (fill n) := by
  induction n with
  | zero => exact trivial
  | succ n ih =>
    obtain ⟨hentries, -⟩ := fill_cached (n := n) (by omega)
    rw [fill_succ]
    refine (ih (by omega)).snoc fun _ => ⟨?_, .inl (evicted_get_next hentries)⟩
    intro other hother
    rw [evictExpiredRecent_of_entries hentries] at hother
    obtain ⟨i, -, rfl⟩ := List.mem_map.mp hother
    exact le_of_eq (Int.zero_add _).symm

/-- The cache is filled, and the first of its entries makes room for one more subject. -/
theorem cache_drops_only_sample :
    Along happen DropsOnly (initial : FspiopResponseSubscriber ℕ ℕ)
        (fill (recentCacheMaxEntries + 1)) ∧
      ((fill (recentCacheMaxEntries + 1)).foldl happen
        (initial : FspiopResponseSubscriber ℕ ℕ)).recent.get (subjectOf 0) = none := by
  -- the run is not to be evaluated
  generalize hn : recentCacheMaxEntries + 1 = n
  refine ⟨cache_drops_only (fill_orderly hn.ge), ?_⟩
  obtain ⟨hentries, hpending⟩ := fill_cached (n := recentCacheMaxEntries) le_rfl
  rw [← hn, fill_succ recentCacheMaxEntries, List.foldl_append, List.foldl_cons, List.foldl_nil,
    happen_next hpending]
  refine get_oldest hentries fun hsame => ?_
  exact absurd (subjectOf_inj hsame) (by decide)

/-- A message of a subject that a full cache has already still evicts the oldest of the others. -/
theorem not_cache_drops_only :
    ¬ ∀ ms : List (Moment ℕ ℕ), Along happen DropsOnly initial ms := by
  intro hall
  have hrun := (hall (fill recentCacheMaxEntries ++ [.dispatch (subjectOf 1) .null 0 0])).append.2
  obtain ⟨hentries, hpending⟩ := fill_cached le_rfl
  generalize (fill recentCacheMaxEntries).foldl happen initial = s at hrun hentries hpending
  have hevicted := evictExpiredRecent_of_entries hentries
  have hne : subjectOf 0 ≠ subjectOf 1 := by decide
  have hcached := get_of_entries hentries (show 0 < recentCacheMaxEntries by decide)
  have hgone : (s.happen (.dispatch (subjectOf 1) .null 0 0)).recent.get (subjectOf 0) = none := by
    rw [happen_next hpending]
    exact get_oldest hentries hne
  rcases hrun.1 _ _ hcached (by rintro now ⟨⟩; decide) with hkept | ⟨-, hsame | ⟨hnone, -⟩⟩
  · rw [hgone] at hkept
    cases hkept
  · exact hne hsame
  · rw [get_of_entries hevicted (by decide)] at hnone
    cases hnone

end Full

end Fspiop.FspiopResponseSubscriber
