import Pivotal.Fspiop.Waiters

/-! Where the messages go: a message is handed to at most one waiter, from the cache only before
it expires, a waiter is settled once, and the cache is bounded. -/
namespace Fspiop.FspiopResponseSubscriber

variable {ι Body : Type}

/-- A message that reached a waiter. Messages are numbered in the order of their dispatch. -/
structure Handover (ι : Type) where
  message : ℕ
  waiter : ι
  /-- When it was taken from the cache, if that is where the waiter found it. -/
  takenAt : Option Js.Date
  deriving DecidableEq

/-- What happened so far: when each message was dispatched, which message was last cached under a
subject, and which messages reached a waiter. The code keeps none of this. -/
structure Ledger (ι : Type) where
  dispatched : List Js.Date
  cachedAs : String → ℕ
  handed : List (Handover ι)

def Ledger.empty : Ledger ι := ⟨[], fun _ => 0, []⟩

/-- What the ledger makes of an event, from the state before it. -/
def record (s : FspiopResponseSubscriber ι Body) (l : Ledger ι) : Event ι Body → Ledger ι
  | .dispatch subject _ now =>
    let message := l.dispatched.length
    match s.pending.get (s.matchedSubject subject) with
    | none => { l with
        dispatched := l.dispatched ++ [now]
        cachedAs := Function.update l.cachedAs subject message }
    | some id => { l with
        dispatched := l.dispatched ++ [now]
        handed := ⟨message, id, none⟩ :: l.handed }
  | .waitFor id args now =>
    match (s.takeFromRecent args.subjects now).1 with
    | some (entry, _) => { l with handed := ⟨l.cachedAs entry.subject, id, some now⟩ :: l.handed }
    | none => l
  | .fire _ => l
  | .cancel _ => l

/-- How the waiter was settled, if it was. -/
def outcomeOf (s : FspiopResponseSubscriber ι Body) (id : ι) : Option (Except JsError (Payload Body)) :=
  (s.waiters id).bind (·.outcome)

/-- Some entries of `m` are gone. -/
structure Shrinks (m' m : Js.Map String (RecentEntry Body)) : Prop where
  get : ∀ key entry, m'.get key = some entry → m.get key = some entry
  size : m'.size ≤ m.size

/-- The accounts are in order: who was handed what, and what is cached. -/
structure Conserved (s : FspiopResponseSubscriber ι Body) (l : Ledger ι) : Prop where
  once : (l.handed.map (·.message)).Nodup
  known : ∀ h ∈ l.handed, h.message < l.dispatched.length
  inTime : ∀ h ∈ l.handed, ∀ now, h.takenAt = some now →
    ∃ date, l.dispatched[h.message]? = some date ∧ now < date + recentCacheTtlMs
  subject : ∀ key entry, s.recent.get key = some entry → entry.subject = key
  expiry : ∀ key entry, s.recent.get key = some entry →
    ∃ date, l.dispatched[l.cachedAs key]? = some date ∧ entry.expiresAt = date + recentCacheTtlMs
  unhanded : ∀ key entry, s.recent.get key = some entry →
    ∀ h ∈ l.handed, h.message ≠ l.cachedAs key
  apart : ∀ key key' entry entry', s.recent.get key = some entry →
    s.recent.get key' = some entry' → l.cachedAs key = l.cachedAs key' → key = key'
  bounded : s.recent.size ≤ recentCacheMaxEntries

theorem conserved_initial :
    (initial : FspiopResponseSubscriber ι Body).Conserved (Ledger.empty : Ledger ι) := by
  constructor <;> simp [initial, Ledger.empty, Js.Map.empty, Js.Map.size, Js.Map.get]

section
variable {s s' : FspiopResponseSubscriber ι Body} {l : Ledger ι}
  {m : Js.Map String (RecentEntry Body)}

theorem Shrinks.refl (m : Js.Map String (RecentEntry Body)) : Shrinks m m := ⟨fun _ _ h => h, le_rfl⟩

theorem Shrinks.delete (h : Shrinks m s.recent) (key : String) :
    Shrinks (m.delete key) s.recent := by
  constructor
  · intro key' entry hget
    apply h.get
    rw [Js.Map.get_delete] at hget
    split at hget
    · cases hget
    · exact hget
  · exact (Js.Map.size_filter_le ..).trans h.size

theorem evictExpiredRecent_shrinks (now : Js.Date) :
    Shrinks (s.evictExpiredRecent now).recent s.recent := by
  constructor
  · intro key entry hget
    have hfilter := (Js.Map.get_filter ..).symm.trans hget
    exact (Option.filter_eq_some_iff.mp hfilter).1
  · exact Js.Map.size_filter_le ..

theorem evictExpiredRecent_live {now : Js.Date} {key : String} {entry : RecentEntry Body}
    (h : (s.evictExpiredRecent now).recent.get key = some entry) : now < entry.expiresAt := by
  have hfilter := (Js.Map.get_filter ..).symm.trans h
  simpa using (Option.filter_eq_some_iff.mp hfilter).2

/-- Losing cached entries breaks no account. -/
theorem Conserved.shrink (h : s.Conserved l) (hs : Shrinks s'.recent s.recent) :
    s'.Conserved l where
  once := h.once
  known := h.known
  inTime := h.inTime
  subject key entry hget := h.subject key entry (hs.get key entry hget)
  expiry key entry hget := h.expiry key entry (hs.get key entry hget)
  unhanded key entry hget := h.unhanded key entry (hs.get key entry hget)
  apart key key' entry entry' hget hget' :=
    h.apart key key' entry entry' (hs.get key entry hget) (hs.get key' entry' hget')
  bounded := hs.size.trans h.bounded

theorem getElem?_snoc {dates : List Js.Date} {i : ℕ} {date : Js.Date} (h : dates[i]? = some date)
    (now : Js.Date) : (dates ++ [now])[i]? = some date := by
  obtain ⟨hi, -⟩ := List.getElem?_eq_some_iff.mp h
  rw [List.getElem?_append_left hi]
  exact h

theorem Conserved.deliver (h : s.Conserved l) (hs : Shrinks s'.recent s.recent) (id : ι)
    (now : Js.Date) : s'.Conserved { l with
      dispatched := l.dispatched ++ [now]
      handed := ⟨l.dispatched.length, id, none⟩ :: l.handed } := by
  have h' := h.shrink hs
  constructor
  · rw [List.map_cons, List.nodup_cons]
    refine ⟨fun hmem => ?_, h.once⟩
    obtain ⟨old, hold, heq⟩ := List.mem_map.mp hmem
    exact (h.known old hold).ne heq
  · intro old hold
    rw [List.length_append, List.length_singleton]
    rcases List.mem_cons.mp hold with rfl | hold
    · exact Nat.lt_succ_self _
    · exact Nat.lt_succ_of_lt (h.known old hold)
  · intro old hold taken htaken
    rcases List.mem_cons.mp hold with rfl | hold
    · cases htaken
    · obtain ⟨date, hdate, hlt⟩ := h.inTime old hold taken htaken
      exact ⟨date, getElem?_snoc hdate now, hlt⟩
  · exact h'.subject
  · intro key entry hget
    obtain ⟨date, hdate, heq⟩ := h'.expiry key entry hget
    exact ⟨date, getElem?_snoc hdate now, heq⟩
  · intro key entry hget old hold
    rcases List.mem_cons.mp hold with rfl | hold
    · obtain ⟨date, hdate, -⟩ := h'.expiry key entry hget
      obtain ⟨hi, -⟩ := List.getElem?_eq_some_iff.mp hdate
      exact hi.ne'
    · exact h'.unhanded key entry hget old hold
  · exact h'.apart
  · exact h'.bounded

theorem Conserved.cache (h : s.Conserved l) (hm : Shrinks m s.recent)
    (hsize : m.size < recentCacheMaxEntries) (subject : String) (payload : Payload Body)
    (now : Js.Date)
    (hs : s'.recent = m.set subject ⟨subject, payload, now + recentCacheTtlMs⟩) :
    s'.Conserved { l with
      dispatched := l.dispatched ++ [now]
      cachedAs := Function.update l.cachedAs subject l.dispatched.length } := by
  have hget : ∀ key, s'.recent.get key = if key = subject then
      some ⟨subject, payload, now + recentCacheTtlMs⟩ else m.get key := by
    intro key
    rw [hs, Js.Map.get_set]
  have hold : ∀ key entry, key ≠ subject → s'.recent.get key = some entry →
      s.recent.get key = some entry := by
    intro key entry hne hkey
    rw [hget, if_neg hne] at hkey
    exact hm.get key entry hkey
  have hlt : ∀ key entry, s.recent.get key = some entry →
      l.cachedAs key < l.dispatched.length := by
    intro key entry hkey
    obtain ⟨date, hdate, -⟩ := h.expiry key entry hkey
    exact (List.getElem?_eq_some_iff.mp hdate).1
  constructor
  · exact h.once
  · intro old hmem
    rw [List.length_append]
    exact Nat.lt_add_right _ (h.known old hmem)
  · intro old hmem taken htaken
    obtain ⟨date, hdate, hbefore⟩ := h.inTime old hmem taken htaken
    exact ⟨date, getElem?_snoc hdate now, hbefore⟩
  · intro key entry hkey
    by_cases hne : key = subject
    · rw [hget, if_pos hne, Option.some.injEq] at hkey
      rw [← hkey, hne]
    · exact h.subject key entry (hold key entry hne hkey)
  · intro key entry hkey
    by_cases hne : key = subject
    · rw [hget, if_pos hne, Option.some.injEq] at hkey
      subst hne hkey
      exact ⟨now, by simp, rfl⟩
    · obtain ⟨date, hdate, heq⟩ := h.expiry key entry (hold key entry hne hkey)
      dsimp only
      rw [Function.update_of_ne hne]
      exact ⟨date, getElem?_snoc hdate now, heq⟩
  · intro key entry hkey old hmem
    by_cases hne : key = subject
    · subst hne
      simpa using (h.known old hmem).ne
    · dsimp only
      rw [Function.update_of_ne hne]
      exact h.unhanded key entry (hold key entry hne hkey) old hmem
  · intro key key' entry entry' hkey hkey' heq
    dsimp only at heq
    by_cases hne : key = subject
    · by_cases hne' : key' = subject
      · rw [hne, hne']
      · rw [hne, Function.update_self, Function.update_of_ne hne'] at heq
        exact absurd heq (hlt key' entry' (hold key' entry' hne' hkey')).ne'
    · by_cases hne' : key' = subject
      · rw [hne', Function.update_self, Function.update_of_ne hne] at heq
        exact absurd heq (hlt key entry (hold key entry hne hkey)).ne
      · rw [Function.update_of_ne hne, Function.update_of_ne hne'] at heq
        exact h.apart key key' entry entry' (hold key entry hne hkey)
          (hold key' entry' hne' hkey') heq
  · rw [hs]
    exact (Js.Map.size_set_le ..).trans hsize

/-- A cached message is handed to a new waiter, and is cached no longer. -/
theorem Conserved.take (h : s.Conserved l) {key : String} {entry : RecentEntry Body} {now : Js.Date}
    (hget : s.recent.get key = some entry) (hlive : now < entry.expiresAt)
    (hs : Shrinks s'.recent s.recent) (hgone : s'.recent.get key = none) (id : ι) :
    s'.Conserved { l with handed := ⟨l.cachedAs entry.subject, id, some now⟩ :: l.handed } := by
  have h' := h.shrink hs
  rw [h.subject key entry hget]
  obtain ⟨date, hdate, hexpiry⟩ := h.expiry key entry hget
  constructor
  · rw [List.map_cons, List.nodup_cons]
    refine ⟨fun hmem => ?_, h.once⟩
    obtain ⟨old, hold, heq⟩ := List.mem_map.mp hmem
    exact h.unhanded key entry hget old hold heq
  · intro old hold
    rcases List.mem_cons.mp hold with rfl | hold
    · exact (List.getElem?_eq_some_iff.mp hdate).1
    · exact h.known old hold
  · intro old hold taken htaken
    rcases List.mem_cons.mp hold with rfl | hold
    · obtain rfl := Option.some.inj htaken
      exact ⟨date, hdate, hexpiry ▸ hlive⟩
    · exact h.inTime old hold taken htaken
  · exact h'.subject
  · exact h'.expiry
  · intro key' entry' hget' old hold
    rcases List.mem_cons.mp hold with rfl | hold
    · intro heq
      obtain rfl := h.apart key key' entry entry' hget (hs.get key' entry' hget') heq
      simp [hgone] at hget'
    · exact h'.unhanded key' entry' hget' old hold
  · exact h'.apart
  · exact h'.bounded

/-! What the operations do to the cache. -/

theorem addToRecent_recent (subject : String) (payload : Payload Body) (now : Js.Date)
    (hbounded : s.recent.size ≤ recentCacheMaxEntries) :
    ∃ m, Shrinks m s.recent ∧ m.size < recentCacheMaxEntries ∧
      (s.addToRecent subject payload now).recent =
        m.set subject ⟨subject, payload, now + recentCacheTtlMs⟩ := by
  have hevict := s.evictExpiredRecent_shrinks now
  unfold addToRecent
  dsimp only
  split
  · rename_i hfull
    cases hkey : (s.evictExpiredRecent now).recent.firstKey with
    | none =>
      have hempty := Js.Map.firstKey_eq_none hkey
      rw [hempty] at hfull
      exact absurd hfull (by decide)
    | some oldestKey =>
      obtain ⟨v, hv⟩ := Js.Map.exists_get_of_firstKey hkey
      refine ⟨_, hevict.delete oldestKey, ?_, rfl⟩
      exact (Js.Map.size_delete_lt hv).trans_le (hevict.size.trans hbounded)
  · rename_i hroom
    exact ⟨_, hevict, Nat.lt_of_not_le hroom, rfl⟩

/-- What `takeFromRecent` hands out was cached, had not expired, and is cached no longer. -/
theorem takeFromRecent_cases (candidates : List String) (now : Js.Date) :
    ((s.takeFromRecent candidates now).1 = none ∧
        (s.takeFromRecent candidates now).2 = s.evictExpiredRecent now) ∨
      ∃ key entry matched, (s.takeFromRecent candidates now).1 = some (entry, matched) ∧
        (s.evictExpiredRecent now).recent.get key = some entry ∧
        (s.takeFromRecent candidates now).2.recent =
          (s.evictExpiredRecent now).recent.delete key := by
  unfold takeFromRecent
  dsimp only
  cases hcandidate : findCandidate (s.evictExpiredRecent now).recent candidates with
  | some found =>
    obtain ⟨key, entry, matched⟩ := found
    obtain ⟨subject, -, hfound⟩ := List.exists_of_findSome?_eq_some hcandidate
    obtain ⟨entry', hget, heq⟩ := Option.map_eq_some_iff.mp hfound
    cases heq
    exact .inr ⟨key, entry, key, rfl, hget, rfl⟩
  | none =>
    cases hany : findAnyPayee (s.evictExpiredRecent now).recent candidates with
    | none => exact .inl ⟨rfl, rfl⟩
    | some found =>
      obtain ⟨key, entry, matched⟩ := found
      obtain ⟨e, hmem, hfound⟩ := List.exists_of_findSome?_eq_some hany
      refine .inr ⟨key, entry, matched, rfl, ?_, rfl⟩
      split at hfound
      · split at hfound
        · cases hfound
          exact Js.Map.mem_entries.mp hmem
        · cases hfound
      · cases hfound

end

variable [DecidableEq ι] {s : FspiopResponseSubscriber ι Body} {l : Ledger ι} {id id' : ι}

@[simp] theorem cancel_recent (subject : String) : (s.cancel subject).recent = s.recent := by
  unfold cancel
  split
  · rfl
  · split <;> rfl

@[simp] theorem settle_recent (result : Except JsError (Payload Body)) :
    (s.settle id result).recent = s.recent := by
  unfold settle
  split <;> rfl

theorem dispatch_recent_of_some {subject : String} {payload : Payload Body} {now : Js.Date}
    (h : s.pending.get (s.matchedSubject subject) = some id) :
    (s.dispatch subject payload now).recent = s.recent := by
  simp only [dispatch, h]
  cases s.waiters id with
  | none => rfl
  | some entry =>
    dsimp only
    split
    · simp
    · split <;> simp

theorem step_fire {id : ι} {w : Waiter Body} (hw : s.waiters id = some w) :
    s.step (.fire id) = s.fire id w := by
  simp only [step, hw]

theorem step_fire_none {id : ι} (hw : s.waiters id = none) : s.step (.fire id) = s := by
  simp only [step, hw]

theorem step_cancel {id : ι} {w : Waiter Body} (hw : s.waiters id = some w) :
    s.step (.cancel id) = s.cancel w.successSubject := by
  simp only [step, hw]

theorem step_cancel_none {id : ι} (hw : s.waiters id = none) : s.step (.cancel id) = s := by
  simp only [step, hw]

theorem Conserved.step (h : s.Conserved l) (e : Event ι Body) :
    (s.step e).Conserved (s.record l e) := by
  cases e with
  | waitFor id args now =>
    have hevict := s.evictExpiredRecent_shrinks now
    change (s.waitFor id args now).Conserved _
    unfold waitFor record
    dsimp only
    rcases s.takeFromRecent_cases args.subjects now with
      ⟨hnone, hs⟩ | ⟨key, entry, matched, hsome, hget, hs⟩
    · generalize s.takeFromRecent args.subjects now = taken at *
      obtain ⟨_ | found, s'⟩ := taken
      · subst hs
        exact h.shrink hevict
      · cases hnone
    · generalize s.takeFromRecent args.subjects now = taken at *
      obtain ⟨_ | found, s'⟩ := taken
      · cases hsome
      · cases hsome
        have hrecent : s'.recent = (s.evictExpiredRecent now).recent.delete key := hs
        refine h.take (hevict.get key entry hget) (evictExpiredRecent_live hget) ?_ ?_ id
        · change Shrinks s'.recent _
          rw [hrecent]
          exact hevict.delete key
        · change s'.recent.get key = none
          rw [hrecent, Js.Map.get_delete, if_pos rfl]
  | dispatch subject payload now =>
    change (s.dispatch subject payload now).Conserved _
    unfold record
    dsimp only
    cases hpending : s.pending.get (s.matchedSubject subject) with
    | none =>
      obtain ⟨m, hm, hsize, hrecent⟩ := s.addToRecent_recent subject payload now h.bounded
      rw [← dispatch_of_none hpending] at hrecent
      exact h.cache hm hsize subject payload now hrecent
    | some id =>
      refine h.deliver ?_ id now
      rw [dispatch_recent_of_some hpending]
      exact .refl _
  | fire id =>
    refine h.shrink ?_
    cases hw : s.waiters id with
    | none =>
      rw [step_fire_none hw]
      exact .refl _
    | some w =>
      rw [step_fire hw]
      simp only [fire, settle_recent, cancel_recent]
      exact .refl _
  | cancel id =>
    refine h.shrink ?_
    cases hw : s.waiters id with
    | none =>
      rw [step_cancel_none hw]
      exact .refl _
    | some w =>
      rw [step_cancel hw, cancel_recent]
      exact .refl _

/-! Who is settled. -/

theorem setWaiter_outcomeOf_ne {w : Waiter Body} (h : id' ≠ id) :
    (s.setWaiter id w).outcomeOf id' = s.outcomeOf id' := by
  simp [outcomeOf, setWaiter_ne h]

@[simp] theorem cancel_outcomeOf (subject : String) :
    (s.cancel subject).outcomeOf id = s.outcomeOf id := by
  unfold cancel
  cases s.pending.get subject with
  | none => rfl
  | some id' =>
    dsimp only
    cases hw : s.waiters id' with
    | none => rfl
    | some entry =>
      change (s.setWaiter id' { entry with timer := false }).outcomeOf id = _
      by_cases h : id = id'
      · subst h
        simp [outcomeOf, hw]
      · exact setWaiter_outcomeOf_ne h

/-- Only the promise that is settled changes, and only when it was not settled before. -/
theorem settle_outcomeOf {result : Except JsError (Payload Body)}
    (h : (s.settle id result).outcomeOf id' ≠ s.outcomeOf id') :
    id' = id ∧ s.outcomeOf id' = none := by
  unfold settle at h
  cases hw : s.waiters id with
  | none => simp [hw] at h
  | some w =>
    rw [hw] at h
    by_cases hid : id' = id
    · subst hid
      refine ⟨rfl, ?_⟩
      cases hout : w.outcome with
      | none => simp [outcomeOf, hw, hout]
      | some r => simp [outcomeOf, hw, hout] at h
    · exact absurd (setWaiter_outcomeOf_ne hid) h

/-- In one event a waiter is settled that was not, by its own timer or by the message that the
event hands to it. -/
def SettlesOnce (s : FspiopResponseSubscriber ι Body) (l : Ledger ι) (e : Event ι Body) : Prop :=
  ∀ id, (s.step e).outcomeOf id ≠ s.outcomeOf id → s.outcomeOf id = none ∧
    (e = .fire id ∨ ∃ message takenAt,
      (s.record l e).handed = ⟨message, id, takenAt⟩ :: l.handed)

theorem settlesOnce {e : Event ι Body} (he : s.Possible e) : s.SettlesOnce l e := by
  intro id h
  cases e with
  | waitFor id' args now =>
    have hfresh : s.waiters id' = none := he
    have hframe := s.takeFromRecent_frame args.subjects now
    unfold record
    dsimp only
    change (s.waitFor id' args now).outcomeOf id ≠ _ at h
    unfold waitFor at h
    generalize s.takeFromRecent args.subjects now = taken at *
    obtain ⟨found, s'⟩ := taken
    have hwaiters : s'.waiters = s.waiters := hframe.2
    have hsame : s'.outcomeOf id = s.outcomeOf id := by
      unfold outcomeOf
      rw [hwaiters]
    cases found with
    | none =>
      change (s'.setWaiter id' { args with timer := true, outcome := none }).outcomeOf id ≠ _ at h
      by_cases hid : id = id'
      · subst hid
        simp [outcomeOf, hfresh] at h
      · rw [setWaiter_outcomeOf_ne hid] at h
        exact absurd hsame h
    | some found =>
      by_cases hid : id = id'
      · subst hid
        exact ⟨by simp [outcomeOf, hfresh], .inr ⟨_, _, rfl⟩⟩
      · dsimp only at h
        rw [setWaiter_outcomeOf_ne hid] at h
        exact absurd hsame h
  | dispatch subject payload now =>
    unfold record
    change (s.dispatch subject payload now).outcomeOf id ≠ _ at h
    dsimp only
    cases hpending : s.pending.get (s.matchedSubject subject) with
    | none =>
      rw [dispatch_of_none hpending] at h
      exact absurd rfl h
    | some id' =>
      simp only [dispatch, hpending] at h
      cases hw : s.waiters id' with
      | none => simp [hw] at h
      | some entry =>
        simp only [hw] at h
        have hsettled : id = id' ∧ s.outcomeOf id = none := by
          split at h
          · rw [← s.cancel_outcomeOf entry.successSubject] at h
            have hsettle := settle_outcomeOf h
            rwa [cancel_outcomeOf] at hsettle
          · split at h
            · rw [← s.cancel_outcomeOf entry.successSubject] at h
              have hsettle := settle_outcomeOf h
              rwa [cancel_outcomeOf] at hsettle
            · exact absurd (cancel_outcomeOf _) h
        obtain ⟨rfl, hnone⟩ := hsettled
        exact ⟨hnone, .inr ⟨_, _, rfl⟩⟩
  | fire id' =>
    obtain ⟨w, hw, -⟩ := he
    change (s.step (.fire id')).outcomeOf id ≠ _ at h
    rw [step_fire hw] at h
    have hsame : ((s.setWaiter id' { w with timer := false }).cancel w.successSubject).outcomeOf id =
        s.outcomeOf id := by
      rw [cancel_outcomeOf]
      by_cases hid : id = id'
      · subst hid
        simp [outcomeOf, hw]
      · exact setWaiter_outcomeOf_ne hid
    dsimp only [fire] at h
    rw [← hsame] at h
    obtain ⟨rfl, hnone⟩ := settle_outcomeOf h
    exact ⟨hsame ▸ hnone, .inl rfl⟩
  | cancel id' =>
    obtain ⟨w, hw⟩ := he
    change (s.step (.cancel id')).outcomeOf id ≠ _ at h
    rw [step_cancel hw] at h
    exact absurd (cancel_outcomeOf _) h

/-- The runs of a subscriber from its start, with their ledger. -/
inductive Recorded : List (Event ι Body) → FspiopResponseSubscriber ι Body → Ledger ι → Prop
  | start : Recorded [] initial .empty
  | step {es : List (Event ι Body)} {s : FspiopResponseSubscriber ι Body} {l : Ledger ι}
      {e : Event ι Body} : Recorded es s l → s.Possible e →
      Recorded (es ++ [e]) (s.step e) (s.record l e)

theorem Runs.recorded {es : List (Event ι Body)}
    (h : Runs (fun _ _ => True) es s) : ∃ l, Recorded es s l := by
  induction h with
  | start => exact ⟨_, .start⟩
  | step _ hpossible _ ih =>
    obtain ⟨l, hl⟩ := ih
    exact ⟨_, hl.step hpossible⟩

theorem Recorded.conserved {es : List (Event ι Body)} (h : Recorded es s l) : s.Conserved l := by
  induction h with
  | start => exact conserved_initial
  | step _ _ ih => exact ih.step _

/-- In every run a message is handed to at most one waiter, from the cache only before it
expires, the cache is bounded, and whatever comes next settles only waiters that were not settled
yet, each by its timer or by the message it is handed. -/
theorem callbacks_conserved {es : List (Event ι Body)} (h : Recorded es s l) :
    (l.handed.map (·.message)).Nodup ∧
    (∀ m ∈ l.handed, ∀ now, m.takenAt = some now →
      ∃ date, l.dispatched[m.message]? = some date ∧ now < date + recentCacheTtlMs) ∧
    s.recent.size ≤ recentCacheMaxEntries ∧
    ∀ e, s.Possible e → s.SettlesOnce l e := by
  have hconserved := h.conserved
  exact ⟨hconserved.once, hconserved.inTime, hconserved.bounded, fun _ => settlesOnce⟩

/-- A reply to the first lookup comes early, and is taken from the cache. -/
theorem callbacks_conserved_sample :
    ((record (initial.step (.dispatch (sampleLookup "1").successSubject (.success ()) 0))
      (record (initial : FspiopResponseSubscriber ℕ Unit) .empty
        (.dispatch (sampleLookup "1").successSubject (.success ()) 0))
      (.waitFor 0 (sampleLookup "1") 5)).handed.map (·.message)).Nodup := by
  have hstart : Recorded [] (initial : FspiopResponseSubscriber ℕ Unit) .empty := .start
  have hdispatched := hstart.step (e := .dispatch (sampleLookup "1").successSubject (.success ()) 0)
    trivial
  have hawaited := hdispatched.step (e := .waitFor 0 (sampleLookup "1") 5) rfl
  exact (callbacks_conserved hawaited).1

end Fspiop.FspiopResponseSubscriber
