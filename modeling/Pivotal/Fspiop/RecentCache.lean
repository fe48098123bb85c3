import Pivotal.Fspiop.Waiters

/-! A reply that is cached before its waiter comes settles the waiter as one that comes after. -/
namespace Fspiop.FspiopResponseSubscriber
open FspiopPubSubSubjects

variable {ι Body : Type}

theorem findSome?_unique {α β : Type} {f : α → Option β} {l : List α} {b : β}
    (hex : ∃ x ∈ l, f x = some b) (hall : ∀ x ∈ l, ∀ c, f x = some c → c = b) :
    l.findSome? f = some b := by
  obtain ⟨x, hx, hfx⟩ := hex
  cases h : l.findSome? f with
  | none => simp [List.findSome?_eq_none_iff.mp h x hx] at hfx
  | some c =>
    obtain ⟨y, hy, hfy⟩ := List.exists_of_findSome?_eq_some h
    rw [hall y hy c hfy]

/-- A message for this subject is looked up under one of the waiter's subjects, as it is or
addressed to any payee. -/
def Matches (args : WaitFor) (subject : String) : Prop :=
  subject ∈ args.subjects ∨
    ∃ anyPayeeSubject, Parties.toAnyPayeeSubject subject = some anyPayeeSubject ∧
      anyPayeeSubject ∈ args.subjects

/-- The subject of the waiter that the message matches. -/
def matchFor (args : WaitFor) (subject : String) : String :=
  if subject ∈ args.subjects then subject
  else (Parties.toAnyPayeeSubject subject).getD subject

theorem Matches.matchFor_mem {args : WaitFor} {subject : String} (h : Matches args subject) :
    matchFor args subject ∈ args.subjects := by
  unfold matchFor
  split
  · assumption
  · rename_i hnot
    obtain ⟨anyPayeeSubject, hany, hmem⟩ := h.resolve_left hnot
    rwa [hany]

/-- No waiter is pending and nothing unexpired is cached that matches the subjects. -/
structure NoneMatching (s : FspiopResponseSubscriber ι Body) (args : WaitFor) (subject : String)
    (now : Js.Date) : Prop where
  unregistered : ∀ key ∈ args.subjects, s.pending.get key = none
  unawaited : s.pending.get (s.matchedSubject subject) = none
  uncached : ∀ key entry, s.recent.get key = some entry → now < entry.expiresAt →
    ¬ Matches args key

/-- Neither map has an entry for the subjects. -/
def Clear (s : FspiopResponseSubscriber ι Body) (args : WaitFor) : Prop :=
  (∀ key ∈ args.subjects, s.pending.get key = none) ∧
    ∀ key, Matches args key → s.recent.get key = none

/-- The error body, if it is one, can be read. -/
def Readable (args : WaitFor) (subject : String) (payload : Payload Body) : Prop :=
  payload = .null → matchFor args subject = args.successSubject

theorem delivery_of_readable {args : WaitFor} {subject : String} {payload : Payload Body}
    (h : Readable args subject payload) : delivery args (matchFor args subject) payload =
      .ok (recentOutcome args (matchFor args subject) payload) := by
  unfold delivery recentOutcome
  by_cases hsuccess : matchFor args subject = args.successSubject
  · rw [if_pos hsuccess, if_pos hsuccess]
  · rw [if_neg hsuccess, if_neg hsuccess]
    cases payload with
    | null => exact absurd (h rfl) hsuccess
    | success body => rfl
    | error body => rfl

variable {s : FspiopResponseSubscriber ι Body} {args : WaitFor} {subject : String}
  {payload : Payload Body} {now later : Js.Date}

theorem evictExpiredRecent_get (key : String) : (s.evictExpiredRecent now).recent.get key =
    (s.recent.get key).filter fun entry => now < entry.expiresAt :=
  Js.Map.get_filter ..

theorem NoneMatching.evicted (h : s.NoneMatching args subject now) {key : String}
    (hkey : Matches args key) : (s.evictExpiredRecent now).recent.get key = none := by
  rw [evictExpiredRecent_get, Option.filter_eq_none_iff]
  intro entry hget hlive
  exact h.uncached key entry hget (by simpa using hlive) hkey

/-- With nothing cached that matches, a waiter is registered. -/
theorem takeFromRecent_none
    (h : ∀ key, Matches args key → (s.evictExpiredRecent now).recent.get key = none) :
    s.takeFromRecent args.subjects now = (none, s.evictExpiredRecent now) := by
  have hcandidate : findCandidate (s.evictExpiredRecent now).recent args.subjects = none := by
    refine List.findSome?_eq_none_iff.mpr fun key hkey => ?_
    simp [h key (.inl hkey)]
  have hany : findAnyPayee (s.evictExpiredRecent now).recent args.subjects = none := by
    refine List.findSome?_eq_none_iff.mpr fun e he => ?_
    have hget := Js.Map.mem_entries.mp (show (e.1, e.2) ∈ _ from he)
    split
    · rename_i anyPayeeSubject heq
      split
      · rename_i hmem
        simp [h e.1 (.inr ⟨_, heq, hmem⟩)] at hget
      · rfl
    · rfl
  unfold takeFromRecent
  simp only [hcandidate, hany]

/-- The one cached entry that matches is taken. -/
theorem takeFromRecent_some {entry : RecentEntry Body} (hm : Matches args subject)
    (hget : (s.evictExpiredRecent now).recent.get subject = some entry)
    (honly : ∀ key, Matches args key → key ≠ subject →
      (s.evictExpiredRecent now).recent.get key = none) :
    s.takeFromRecent args.subjects now = (some (entry, matchFor args subject),
      { s.evictExpiredRecent now with
        recent := (s.evictExpiredRecent now).recent.delete subject }) := by
  unfold takeFromRecent
  dsimp only
  by_cases hmem : subject ∈ args.subjects
  · have hcandidate : findCandidate (s.evictExpiredRecent now).recent args.subjects =
        some (subject, entry, subject) := by
      refine findSome?_unique ⟨subject, hmem, by simp [hget]⟩ fun key hkey c hc => ?_
      by_cases hne : key = subject
      · subst hne
        simpa [hget, eq_comm] using hc
      · simp [honly key (.inl hkey) hne] at hc
    simp only [hcandidate, matchFor, if_pos hmem]
  · obtain ⟨anyPayeeSubject, hany, hanyMem⟩ := hm.resolve_left hmem
    have hcandidate : findCandidate (s.evictExpiredRecent now).recent args.subjects = none := by
      refine List.findSome?_eq_none_iff.mpr fun key hkey => ?_
      have hne : key ≠ subject := fun h => hmem (h ▸ hkey)
      simp [honly key (.inl hkey) hne]
    have hfound : findAnyPayee (s.evictExpiredRecent now).recent args.subjects =
        some (subject, entry, anyPayeeSubject) := by
      refine findSome?_unique ⟨(subject, entry), Js.Map.mem_entries.mpr hget, ?_⟩ fun e he c hc => ?_
      · simp only [hany, if_pos hanyMem]
      · have heget := Js.Map.mem_entries.mp (show (e.1, e.2) ∈ _ from he)
        split at hc
        · rename_i found hfound
          split at hc
          · rename_i hfoundMem
            by_cases hne : e.1 = subject
            · rw [hne] at hfound heget
              obtain rfl := Option.some.inj (hany.symm.trans hfound)
              obtain rfl := Option.some.inj (hget.symm.trans heget)
              rw [← Option.some.inj hc, hne]
            · simp [honly e.1 (.inr ⟨_, hfound, hfoundMem⟩) hne] at heget
          · cases hc
        · cases hc
    simp only [hcandidate, hfound, matchFor, if_neg hmem, hany, Option.getD_some]

/-- Caching a message evicts at most entries that match nothing, and keeps the message. -/
theorem addToRecent_get_self : (s.addToRecent subject payload now).recent.get subject =
    some ⟨subject, payload, now + recentCacheTtlMs⟩ := Js.Map.get_set_self ..

theorem addToRecent_get_ne {key : String} (hne : key ≠ subject)
    (h : (s.evictExpiredRecent now).recent.get key = none) :
    (s.addToRecent subject payload now).recent.get key = none := by
  unfold addToRecent
  dsimp only
  rw [Js.Map.get_set, if_neg hne]
  split
  · split
    · rw [Js.Map.get_delete, h, ite_self]
    · exact h
  · exact h

theorem noneMatching_initial (args : WaitFor) (subject : String) (now : Js.Date) :
    (initial : FspiopResponseSubscriber ι Body).NoneMatching args subject now where
  unregistered _ _ := rfl
  unawaited := rfl
  uncached key entry h := by simp [initial] at h

variable [DecidableEq ι] {id : ι}

/-- What both orders leave behind: a settled waiter, and nothing under its subjects. -/
structure Answered (s : FspiopResponseSubscriber ι Body) (id : ι) (args : WaitFor)
    (subject : String) (payload : Payload Body) : Prop where
  waiter : s.waiters id = some { args with
    timer := false, outcome := some (recentOutcome args (matchFor args subject) payload) }
  clear : s.Clear args

/-- The message comes first and is taken from the cache. -/
theorem answered_waitFor (hnone : s.NoneMatching args subject now) (hm : Matches args subject)
    (httl : later < now + recentCacheTtlMs) :
    ((s.dispatch subject payload now).waitFor id args later).Answered id args subject payload := by
  rw [dispatch_of_none hnone.unawaited]
  have hget : ((s.addToRecent subject payload now).evictExpiredRecent later).recent.get subject =
      some ⟨subject, payload, now + recentCacheTtlMs⟩ := by
    rw [evictExpiredRecent_get, addToRecent_get_self]
    simp [httl]
  have honly : ∀ key, Matches args key → key ≠ subject →
      ((s.addToRecent subject payload now).evictExpiredRecent later).recent.get key = none := by
    intro key hkey hne
    rw [evictExpiredRecent_get, addToRecent_get_ne hne (hnone.evicted hkey)]
    rfl
  have htaken := takeFromRecent_some hm hget honly
  unfold waitFor
  simp only [htaken]
  refine ⟨setWaiter_self, hnone.unregistered, fun key hkey => ?_⟩
  change (Js.Map.delete _ subject).get key = none
  rw [Js.Map.get_delete]
  split
  · rfl
  · exact honly key hkey ‹_›

/-- The waiter comes first and is found under one of its subjects. -/
theorem answered_dispatch (hnone : s.NoneMatching args subject now) (hm : Matches args subject)
    (hreadable : Readable args subject payload) :
    ((s.waitFor id args now).dispatch subject payload later).Answered id args subject payload := by
  have htaken := takeFromRecent_none fun key hkey => hnone.evicted hkey
  generalize hs' : s.waitFor id args now = s'
  have hwait : s' = { (s.evictExpiredRecent now).setWaiter id
        { args with timer := true, outcome := none } with
      pending := args.subjects.foldl (fun m subject => m.set subject id) s.pending } := by
    rw [← hs']
    unfold waitFor
    simp only [htaken]
    rfl
  have hpending : ∀ key, s'.pending.get key =
      if key ∈ args.subjects then some id else s.pending.get key := by
    intro key
    rw [hwait]
    exact Js.Map.get_foldl_set ..
  have hw : s'.Registered id { args with timer := true, outcome := none } := by
    refine ⟨?_, rfl, rfl, fun key hkey => by rw [hpending, if_pos hkey]⟩
    rw [hwait]
    exact setWaiter_self
  have hmatched : s'.matchedSubject subject = matchFor args subject := by
    unfold matchedSubject matchFor
    by_cases hmem : subject ∈ args.subjects
    · rw [hpending, if_pos hmem, if_pos hmem]
    · have hunawaited : s.pending.get subject = none := by
        have h := hnone.unawaited
        unfold matchedSubject at h
        cases hget : s.pending.get subject with
        | none => rfl
        | some other => simp [hget] at h
      rw [hpending, if_neg hmem, hunawaited, if_neg hmem]
  have hdispatch := hw.dispatch_eq (hmatched ▸ hm.matchFor_mem)
    (r := recentOutcome args (matchFor args subject) payload)
    (by rw [hmatched]; exact delivery_of_readable hreadable) later
  rw [hdispatch]
  refine ⟨setWaiter_self, fun key hkey => ?_, fun key hkey => ?_⟩
  · rw [finish_pending, if_pos hkey]
  · have hrecent := hnone.evicted hkey
    rw [hwait]
    exact hrecent

/-- A message that comes before its waiter, within the life of the cache, settles it as one that
comes after it, and either way nothing is left under the subjects. -/
theorem recent_agrees_with_pending (hnone : s.NoneMatching args subject now)
    (hm : Matches args subject) (httl : later < now + recentCacheTtlMs)
    (hreadable : Readable args subject payload) :
    ((s.dispatch subject payload now).waitFor id args later).waiters id =
        ((s.waitFor id args now).dispatch subject payload later).waiters id ∧
      (∃ w r, ((s.waitFor id args now).dispatch subject payload later).waiters id = some w ∧
        w.outcome = some r) ∧
      ((s.dispatch subject payload now).waitFor id args later).Clear args ∧
      ((s.waitFor id args now).dispatch subject payload later).Clear args := by
  have hcached : ((s.dispatch subject payload now).waitFor id args later).Answered id args subject
      payload := answered_waitFor hnone hm httl
  have hawaited : ((s.waitFor id args now).dispatch subject payload later).Answered id args subject
      payload := answered_dispatch hnone hm hreadable
  exact ⟨hcached.waiter.trans hawaited.waiter.symm, ⟨_, _, hawaited.waiter, rfl⟩, hcached.clear,
    hawaited.clear⟩

/-- A lookup that names no payee. -/
def sampleUnaddressed : WaitFor where
  successSubject := Parties.forSuccess "a" none .msisdn "1" none
  errorSubject := Parties.forError "a" none .msisdn "1" none
  hubErrorSubject := none
  timeoutMs := defaultTimeoutMs

theorem recent_agrees_with_pending_sample :
    (((initial : FspiopResponseSubscriber ℕ Unit).dispatch (sampleLookup "1").successSubject
        (.success ()) 0).waitFor 0 sampleUnaddressed 5).waiters 0 =
      (((initial : FspiopResponseSubscriber ℕ Unit).waitFor 0 sampleUnaddressed 0).dispatch
        (sampleLookup "1").successSubject (.success ()) 5).waiters 0 :=
  (recent_agrees_with_pending (noneMatching_initial ..) (.inr ⟨_, rfl, by decide +kernel⟩)
    (by decide) fun h => by cases h).1

/-- For an error message without a body the orders differ: a cached one makes `waitFor` throw,
one that comes later leaves the waiter unsettled. -/
theorem not_recent_agrees_with_pending :
    ¬ ∀ payload : Payload Unit, ∃ w r,
      (((initial : FspiopResponseSubscriber ℕ Unit).dispatch (sampleLookup "1").errorSubject
        payload 0).waitFor 0 (sampleLookup "1") 5).waiters 0 = some w ∧
      (((initial : FspiopResponseSubscriber ℕ Unit).waitFor 0 (sampleLookup "1") 0).dispatch
        (sampleLookup "1").errorSubject payload 5).waiters 0 = some w ∧ w.outcome = some r := by
  intro h
  obtain ⟨w, r, -, hw, hr⟩ := h .null
  have hunsettled : ((((initial : FspiopResponseSubscriber ℕ Unit).waitFor 0 (sampleLookup "1")
      0).dispatch (sampleLookup "1").errorSubject .null 5).waiters 0).bind (·.outcome) = none := by
    decide +kernel
  rw [hw, Option.bind_some, hr] at hunsettled
  cases hunsettled

end Fspiop.FspiopResponseSubscriber
