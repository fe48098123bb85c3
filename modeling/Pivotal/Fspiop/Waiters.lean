import Pivotal.Fspiop.Subscriber

/-! Whether waiters are independent of each other: they are, as long as no two of them share a
subject and a caller cancels nobody else's waiter. -/
namespace Fspiop.FspiopResponseSubscriber
open FspiopPubSubSubjects

variable {ι Body : Type}

/-- What happens to a subscriber. A caller cancels by the success subject of its own waiter. -/
inductive Event (ι Body : Type) where
  | waitFor (id : ι) (args : WaitFor) (now : Js.Date)
  | dispatch (subject : String) (payload : Payload Body) (now : Js.Date)
  | fire (id : ι)
  | cancel (id : ι)
  deriving DecidableEq

/-- The waiter is waiting: unsettled, under all of its subjects, with its own live timer. -/
structure Registered (s : FspiopResponseSubscriber ι Body) (id : ι) (w : Waiter Body) : Prop where
  waiter : s.waiters id = some w
  unsettled : w.outcome = none
  live : w.timer = true
  under : ∀ subject ∈ w.subjects, s.pending.get subject = some id

instance [DecidableEq ι] [DecidableEq Body] (s : FspiopResponseSubscriber ι Body) (id : ι)
    (w : Waiter Body) : Decidable (s.Registered id w) :=
  decidable_of_iff (s.waiters id = some w ∧ w.outcome = none ∧ w.timer = true ∧
    ∀ subject ∈ w.subjects, s.pending.get subject = some id)
    ⟨fun ⟨h₁, h₂, h₃, h₄⟩ => ⟨h₁, h₂, h₃, h₄⟩, fun ⟨h₁, h₂, h₃, h₄⟩ => ⟨h₁, h₂, h₃, h₄⟩⟩

/-- How a message settles a waiter, unless its body cannot be read. -/
def delivery (w : WaitFor) (matched : String) (payload : Payload Body) :
    Except JsError (Except JsError (Payload Body)) :=
  if matched = w.successSubject then .ok (.ok payload)
  else (toFspiopException payload).map fun e => .error (.fspiop e)

/-- Promises are new, timers fire while they are live, and only callers of `waitFor` cancel. -/
def Possible (s : FspiopResponseSubscriber ι Body) : Event ι Body → Prop
  | .waitFor id _ _ => s.waiters id = none
  | .dispatch _ _ _ => True
  | .fire id => ∃ w, s.waiters id = some w ∧ w.timer = true
  | .cancel id => ∃ w, s.waiters id = some w

/-- Nobody is waiting under the subjects of a new waiter, no `null` arrives for an error subject,
and a caller cancels while its waiter waits, or when nobody waits under its success subject. -/
def Apart (s : FspiopResponseSubscriber ι Body) : Event ι Body → Prop
  | .waitFor _ args now => (s.takeFromRecent args.subjects now).1.isSome ∨
    ∀ subject ∈ args.subjects, s.pending.get subject = none
  | .dispatch subject payload _ => payload ≠ .null ∨
    ∀ id w, s.pending.get (s.matchedSubject subject) = some id → s.waiters id = some w →
      s.matchedSubject subject = w.successSubject
  | .fire _ => True
  | .cancel id => ∀ w, s.waiters id = some w →
    s.Registered id w ∨ s.pending.get w.successSubject = none

section
variable [DecidableEq ι]

def step (s : FspiopResponseSubscriber ι Body) : Event ι Body → FspiopResponseSubscriber ι Body
  | .waitFor id args now => s.waitFor id args now
  | .dispatch subject payload now => s.dispatch subject payload now
  | .fire id =>
    match s.waiters id with
    | some w => s.fire id w
    | none => s
  | .cancel id =>
    match s.waiters id with
    | some w => s.cancel w.successSubject
    | none => s

/-- The runs of a subscriber from its start, each step meeting `ok` where it is taken. -/
inductive Runs (ok : FspiopResponseSubscriber ι Body → Event ι Body → Prop) :
    List (Event ι Body) → FspiopResponseSubscriber ι Body → Prop
  | start : Runs ok [] initial
  | step {es : List (Event ι Body)} {s : FspiopResponseSubscriber ι Body} {e : Event ι Body} :
      Runs ok es s → s.Possible e → ok s e → Runs ok (es ++ [e]) (s.step e)

/-- The event is not about this waiter: no message that matches one of its subjects, not the
timer of this waiter, and not its caller. -/
def Untouched (s : FspiopResponseSubscriber ι Body) (e : Event ι Body) (id : ι) (w : Waiter Body) :
    Prop :=
  match e with
  | .waitFor _ _ _ => True
  | .dispatch subject _ _ => s.matchedSubject subject ∉ w.subjects
  | .fire id' => id' ≠ id
  | .cancel id' => id' ≠ id

/-- What the event makes of a waiter it is about. -/
def Concludes (s : FspiopResponseSubscriber ι Body) (e : Event ι Body) (w w' : Waiter Body) :
    Prop :=
  w'.timer = false ∧ match e with
  | .waitFor _ _ _ => False
  | .dispatch subject payload _ =>
    ∃ r, delivery w.toWaitFor (s.matchedSubject subject) payload = .ok r ∧ w'.outcome = some r
  | .fire _ => w'.outcome = some (.error (timedOut w.toWaitFor))
  | .cancel _ => w'.outcome = none

/-- A step leaves every waiting waiter alone, unless it is about this waiter, which then is
settled by it or withdrawn, and is registered no longer. -/
def Independent (s : FspiopResponseSubscriber ι Body) (e : Event ι Body) : Prop :=
  ∀ id w, s.Registered id w →
    (s.Untouched e id w → (s.step e).Registered id w) ∧
    (¬ s.Untouched e id w → ∃ w', (s.step e).waiters id = some w' ∧ s.Concludes e w w' ∧
      ∀ subject ∈ w.subjects, (s.step e).pending.get subject = none)

/-- Whoever is found under a subject is waiting, and a live timer is the timer of a waiter
that is waiting. -/
structure Invariant (s : FspiopResponseSubscriber ι Body) : Prop where
  pending : ∀ subject id, s.pending.get subject = some id →
    ∃ w, s.Registered id w ∧ subject ∈ w.subjects
  timers : ∀ id w, s.waiters id = some w → w.timer = true → s.Registered id w

/-- The waiter leaves `pending`, its timer cleared. -/
def finish (s : FspiopResponseSubscriber ι Body) (id : ι) (w w' : Waiter Body) :
    FspiopResponseSubscriber ι Body :=
  { s.setWaiter id w' with pending := w.subjects.foldl Js.Map.delete s.pending }

variable {s : FspiopResponseSubscriber ι Body} {id id' : ι} {w w' : Waiter Body}

@[simp] theorem setWaiter_self : (s.setWaiter id w).waiters id = some w := by
  simp [setWaiter]

theorem setWaiter_ne (h : id' ≠ id) : (s.setWaiter id w).waiters id' = s.waiters id' := by
  simp [setWaiter, h]

theorem finish_pending (subject : String) : (s.finish id w w').pending.get subject =
    if subject ∈ w.subjects then none else s.pending.get subject :=
  Js.Map.get_foldl_delete ..

theorem successSubject_mem (w : WaitFor) : w.successSubject ∈ w.subjects := List.mem_cons_self ..

omit [DecidableEq ι] in
theorem Registered.unique (h : s.Registered id w) (h' : s.Registered id w') : w = w' :=
  Option.some.inj (h.waiter.symm.trans h'.waiter)

theorem Registered.finish_ne (h : s.Registered id w) (hid : id ≠ id') {v v' : Waiter Body}
    (h' : s.Registered id' v) : (s.finish id' v v').Registered id w := by
  refine ⟨(setWaiter_ne hid).trans h.waiter, h.unsettled, h.live, fun subject hs => ?_⟩
  have hnot : subject ∉ v.subjects := by
    intro hv
    have heq := (h.under subject hs).symm.trans (h'.under subject hv)
    exact hid (Option.some.inj heq)
  rw [finish_pending, if_neg hnot]
  exact h.under subject hs

theorem Invariant.finish (hs : s.Invariant) (h : s.Registered id w) (hw' : w'.timer = false) :
    (s.finish id w w').Invariant := by
  constructor
  · intro subject id' hget
    rw [finish_pending] at hget
    split at hget
    · cases hget
    · rename_i hsubject
      obtain ⟨v, hv, hmem⟩ := hs.pending subject id' hget
      have hid : id' ≠ id := by
        rintro rfl
        exact hsubject (h.unique hv ▸ hmem)
      exact ⟨v, hv.finish_ne hid h, hmem⟩
  · intro id' v hv hlive
    by_cases hid : id' = id
    · subst hid
      obtain rfl : w' = v := by simpa [FspiopResponseSubscriber.finish] using hv
      simp [hw'] at hlive
    · have hv' : s.waiters id' = some v := (setWaiter_ne hid).symm.trans hv
      exact (hs.timers id' v hv' hlive).finish_ne hid h

/-! What each operation does. -/

theorem Registered.cancel_eq (h : s.Registered id w) :
    s.cancel w.successSubject = s.finish id w { w with timer := false } := by
  simp only [cancel, h.under _ (successSubject_mem w.toWaitFor), h.waiter]
  rfl

theorem Registered.fire_eq (h : s.Registered id w) : s.fire id w =
    s.finish id w { w with timer := false, outcome := some (.error (timedOut w.toWaitFor)) } := by
  have hpending : (s.setWaiter id { w with timer := false }).pending.get w.successSubject = some id :=
    h.under _ (successSubject_mem w.toWaitFor)
  simp only [fire, cancel, hpending, setWaiter_self]
  simp [settle, setWaiter, finish, h.unsettled]

theorem cancel_of_none {subject : String} (h : s.pending.get subject = none) :
    s.cancel subject = s := by
  simp only [cancel, h]

theorem Registered.dispatch_eq (h : s.Registered id w) {subject : String}
    (hm : s.matchedSubject subject ∈ w.subjects) {payload : Payload Body}
    {r : Except JsError (Payload Body)}
    (hr : delivery w.toWaitFor (s.matchedSubject subject) payload = .ok r) (now : Js.Date) :
    s.dispatch subject payload now =
      s.finish id w { w with timer := false, outcome := some r } := by
  have hsettle : ∀ r, (s.finish id w { w with timer := false }).settle id r =
      s.finish id w { w with timer := false, outcome := some r } := by
    intro r
    simp [settle, setWaiter, finish, h.unsettled]
  simp only [dispatch, h.under _ hm, h.waiter, h.cancel_eq]
  unfold delivery at hr
  split at hr
  · rename_i hsuccess
    rw [if_pos hsuccess, hsettle, Except.ok.inj hr]
  · rename_i hfailure
    rw [if_neg hfailure]
    cases hbody : toFspiopException payload with
    | error e => simp [hbody, Except.map] at hr
    | ok e =>
      simp only [hbody, Except.map, Except.ok.injEq] at hr
      simp only [hsettle, hr]

theorem dispatch_of_none {subject : String} {payload : Payload Body} {now : Js.Date}
    (h : s.pending.get (s.matchedSubject subject) = none) :
    s.dispatch subject payload now = s.addToRecent subject payload now := by
  simp only [dispatch, h]

omit [DecidableEq ι] in
@[simp] theorem addToRecent_pending (subject : String) (payload : Payload Body) (now : Js.Date) :
    (s.addToRecent subject payload now).pending = s.pending := rfl

omit [DecidableEq ι] in
@[simp] theorem addToRecent_waiters (subject : String) (payload : Payload Body) (now : Js.Date) :
    (s.addToRecent subject payload now).waiters = s.waiters := rfl

omit [DecidableEq ι] in
theorem takeFromRecent_frame (candidates : List String) (now : Js.Date) :
    (s.takeFromRecent candidates now).2.pending = s.pending ∧
      (s.takeFromRecent candidates now).2.waiters = s.waiters := by
  unfold takeFromRecent
  dsimp only
  split
  · exact ⟨rfl, rfl⟩
  · split <;> exact ⟨rfl, rfl⟩

/-- A new waiter is settled from the cache, or registered under its subjects. -/
theorem waitFor_cases (id : ι) (args : WaitFor) (now : Js.Date) :
    (∃ w : Waiter Body, w.outcome.isSome ∧ w.timer = false ∧
      (s.waitFor id args now).pending = s.pending ∧
      (s.waitFor id args now).waiters = Function.update s.waiters id (some w)) ∨
    ((s.takeFromRecent args.subjects now).1 = none ∧
      (s.waitFor id args now).waiters = Function.update s.waiters id
        (some { args with timer := true, outcome := none }) ∧
      ∀ subject, (s.waitFor id args now).pending.get subject =
        if subject ∈ args.subjects then some id else s.pending.get subject) := by
  obtain ⟨hpending, hwaiters⟩ := s.takeFromRecent_frame args.subjects now
  unfold waitFor
  generalize s.takeFromRecent args.subjects now = taken at *
  obtain ⟨_ | ⟨entry, matched⟩, s'⟩ := taken
  · refine .inr ⟨rfl, ?_, fun subject => ?_⟩
    · simp [setWaiter, ← hwaiters]
    · rw [← hpending]
      exact Js.Map.get_foldl_set ..
  · refine .inl ⟨{ args with
      timer := false, outcome := some (recentOutcome args matched entry.payload) }, rfl, rfl,
      hpending, ?_⟩
    simp [setWaiter, ← hwaiters]

/-! The invariant, and independence, through one step. -/

omit [DecidableEq ι] in
theorem Registered.congr {s' : FspiopResponseSubscriber ι Body} (h : s.Registered id w)
    (hwaiter : s'.waiters id = s.waiters id)
    (hpending : ∀ subject ∈ w.subjects, s'.pending.get subject = s.pending.get subject) :
    s'.Registered id w :=
  ⟨hwaiter.trans h.waiter, h.unsettled, h.live,
    fun subject hs => (hpending subject hs).trans (h.under subject hs)⟩

omit [DecidableEq ι] in
theorem Invariant.congr {s' : FspiopResponseSubscriber ι Body} (hs : s.Invariant)
    (hwaiters : s'.waiters = s.waiters) (hpending : s'.pending = s.pending) : s'.Invariant where
  pending subject id hget := by
    obtain ⟨w, hw, hmem⟩ := hs.pending subject id (by rwa [hpending] at hget)
    exact ⟨w, hw.congr (by rw [hwaiters]) fun _ _ => by rw [hpending], hmem⟩
  timers id w hw hlive :=
    (hs.timers id w (by rwa [hwaiters] at hw) hlive).congr (by rw [hwaiters])
      fun _ _ => by rw [hpending]

omit [DecidableEq ι] in
theorem Registered.ne_of_fresh (h : s.Registered id w) (hfresh : s.waiters id' = none) :
    id ≠ id' := by
  rintro rfl
  simp [h.waiter] at hfresh

/-- A waiter settled from the cache is no one else's business. -/
theorem Invariant.answered {s' : FspiopResponseSubscriber ι Body} (hs : s.Invariant)
    (hfresh : s.waiters id = none) (hpending : s'.pending = s.pending)
    (hwaiters : s'.waiters = Function.update s.waiters id (some w)) (hw : w.timer = false) :
    s'.Invariant where
  pending subject id' hget := by
    obtain ⟨v, hv, hmem⟩ := hs.pending subject id' (by rwa [hpending] at hget)
    have hid := hv.ne_of_fresh hfresh
    exact ⟨v, hv.congr (by rw [hwaiters, Function.update_of_ne hid]) fun _ _ => by rw [hpending],
      hmem⟩
  timers id' v hv hlive := by
    by_cases hid : id' = id
    · subst hid
      obtain rfl : w = v := by simpa [hwaiters] using hv
      simp [hw] at hlive
    · rw [hwaiters, Function.update_of_ne hid] at hv
      exact (hs.timers id' v hv hlive).congr (by rw [hwaiters, Function.update_of_ne hid])
        fun _ _ => by rw [hpending]

/-- What enrolling under unused subjects leaves alone, and what it adds. -/
theorem registered_enroll {s' : FspiopResponseSubscriber ι Body} {args : WaitFor}
    (hfree : ∀ subject ∈ args.subjects, s.pending.get subject = none)
    (hwaiters : s'.waiters = Function.update s.waiters id
      (some { args with timer := true, outcome := none }))
    (hpending : ∀ subject, s'.pending.get subject =
      if subject ∈ args.subjects then some id else s.pending.get subject) :
    s'.Registered id { args with timer := true, outcome := none } ∧
      ∀ id' v, id' ≠ id → s.Registered id' v → s'.Registered id' v := by
  constructor
  · exact ⟨by simp [hwaiters], rfl, rfl, fun subject hs => by rw [hpending, if_pos hs]⟩
  · intro id' v hid hv
    refine hv.congr (by rw [hwaiters, Function.update_of_ne hid]) fun subject hs => ?_
    have hnot : subject ∉ args.subjects := by
      intro hmem
      have hget := hv.under subject hs
      simp [hfree subject hmem] at hget
    rw [hpending, if_neg hnot]

theorem Invariant.enroll {s' : FspiopResponseSubscriber ι Body} {args : WaitFor}
    (hs : s.Invariant) (hfresh : s.waiters id = none)
    (hfree : ∀ subject ∈ args.subjects, s.pending.get subject = none)
    (hwaiters : s'.waiters = Function.update s.waiters id
      (some { args with timer := true, outcome := none }))
    (hpending : ∀ subject, s'.pending.get subject =
      if subject ∈ args.subjects then some id else s.pending.get subject) : s'.Invariant := by
  obtain ⟨hnew, hold⟩ := registered_enroll hfree hwaiters hpending
  constructor
  · intro subject id' hget
    rw [hpending] at hget
    split at hget
    · rename_i hmem
      obtain rfl := Option.some.inj hget
      exact ⟨_, hnew, hmem⟩
    · obtain ⟨v, hv, hmem⟩ := hs.pending subject id' hget
      exact ⟨v, hold id' v (hv.ne_of_fresh hfresh) hv, hmem⟩
  · intro id' v hv hlive
    by_cases hid : id' = id
    · subst hid
      obtain rfl : _ = v := by simpa [hwaiters] using hv
      exact hnew
    · rw [hwaiters, Function.update_of_ne hid] at hv
      exact hold id' v hid (hs.timers id' v hv hlive)

/-- All that one event can do. -/
inductive Effect (s : FspiopResponseSubscriber ι Body) (e : Event ι Body) :
    FspiopResponseSubscriber ι Body → Prop
  | idle {s'} : (∀ id w, s.Registered id w → s.Untouched e id w) → s'.waiters = s.waiters →
      s'.pending = s.pending → Effect s e s'
  | answer {s'} (id : ι) (w : Waiter Body) : (∀ id w, s.Registered id w → s.Untouched e id w) →
      s.waiters id = none → w.outcome.isSome → w.timer = false →
      s'.waiters = Function.update s.waiters id (some w) → s'.pending = s.pending → Effect s e s'
  | enroll {s'} (id : ι) (args : WaitFor) : (∀ id w, s.Registered id w → s.Untouched e id w) →
      s.waiters id = none → (∀ subject ∈ args.subjects, s.pending.get subject = none) →
      s'.waiters = Function.update s.waiters id
        (some { args with timer := true, outcome := none }) →
      (∀ subject, s'.pending.get subject =
        if subject ∈ args.subjects then some id else s.pending.get subject) → Effect s e s'
  | finish (id : ι) (w w' : Waiter Body) : s.Registered id w → ¬ s.Untouched e id w →
      (∀ id' v, id' ≠ id → s.Registered id' v → s.Untouched e id' v) → s.Concludes e w w' →
      (w'.outcome.isSome ∨ e = .cancel id) → Effect s e (s.finish id w w')

theorem effect_dispatch (hs : s.Invariant) {subject : String} {payload : Payload Body}
    {now : Js.Date} (ha : s.Apart (.dispatch subject payload now)) :
    s.Effect (.dispatch subject payload now) (s.dispatch subject payload now) := by
  cases hget : s.pending.get (s.matchedSubject subject) with
  | none =>
    rw [dispatch_of_none hget]
    refine .idle (fun id w hw hmem => ?_) rfl rfl
    simp [hw.under _ hmem] at hget
  | some id =>
    obtain ⟨w, hw, hmem⟩ := hs.pending _ _ hget
    have hreadable : ∃ r, delivery w.toWaitFor (s.matchedSubject subject) payload = .ok r := by
      by_cases hsuccess : s.matchedSubject subject = w.successSubject
      · exact ⟨_, if_pos hsuccess⟩
      · rcases ha with hnull | hall
        · cases payload with
          | null => exact absurd rfl hnull
          | success body => exact ⟨_, if_neg hsuccess⟩
          | error body => exact ⟨_, if_neg hsuccess⟩
        · exact absurd (hall id w hget hw.waiter) hsuccess
    obtain ⟨r, hr⟩ := hreadable
    rw [hw.dispatch_eq hmem hr]
    refine .finish id w _ hw (fun hnot => hnot hmem) (fun id' v hid hv hmem' => ?_)
      ⟨rfl, r, hr, rfl⟩ (.inl rfl)
    have heq := (hv.under _ hmem').symm.trans hget
    exact hid (Option.some.inj heq)

theorem effect_step (hs : s.Invariant) {e : Event ι Body} (hp : s.Possible e) (ha : s.Apart e) :
    s.Effect e (s.step e) := by
  cases e with
  | waitFor id args now =>
    rcases s.waitFor_cases id args now with ⟨w, hout, htimer, hpending, hwaiters⟩ | ⟨hnone, h⟩
    · exact .answer id w (fun _ _ _ => trivial) hp hout htimer hwaiters hpending
    · have hfree : ∀ subject ∈ args.subjects, s.pending.get subject = none := by
        rcases ha with hcached | hfree
        · simp [hnone] at hcached
        · exact hfree
      exact .enroll id args (fun _ _ _ => trivial) hp hfree h.1 h.2
  | dispatch subject payload now => exact effect_dispatch hs ha
  | fire id =>
    obtain ⟨w, hw, hlive⟩ := hp
    have hreg := hs.timers id w hw hlive
    simp only [step, hw, hreg.fire_eq]
    exact .finish id w _ hreg (fun hne => hne rfl) (fun id' v hid _ => hid.symm) ⟨rfl, rfl⟩
      (.inl rfl)
  | cancel id =>
    obtain ⟨w, hw⟩ := hp
    simp only [step, hw]
    rcases ha w hw with hreg | hnone
    · rw [hreg.cancel_eq]
      exact .finish id w _ hreg (fun hne => hne rfl) (fun id' v hid _ => hid.symm)
        ⟨rfl, hreg.unsettled⟩ (.inr rfl)
    · rw [cancel_of_none hnone]
      refine .idle (fun id' v hv => ?_) rfl rfl
      rintro rfl
      obtain rfl : w = v := Option.some.inj (hw.symm.trans hv.waiter)
      simp [hv.under _ (successSubject_mem _)] at hnone

theorem Effect.invariant {e : Event ι Body} {s' : FspiopResponseSubscriber ι Body}
    (h : s.Effect e s') (hs : s.Invariant) : s'.Invariant := by
  cases h with
  | idle _ hwaiters hpending => exact hs.congr hwaiters hpending
  | answer id w _ hfresh _ htimer hwaiters hpending =>
    exact hs.answered hfresh hpending hwaiters htimer
  | enroll id args _ hfresh hfree hwaiters hpending =>
    exact hs.enroll hfresh hfree hwaiters hpending
  | finish id w w' hw _ _ hc _ => exact hs.finish hw hc.1

theorem Effect.registered {e : Event ι Body} {s' : FspiopResponseSubscriber ι Body}
    (h : s.Effect e s') (hv : s.Registered id w) (hu : s.Untouched e id w) :
    s'.Registered id w := by
  cases h with
  | idle _ hwaiters hpending => exact hv.congr (by rw [hwaiters]) fun _ _ => by rw [hpending]
  | answer id' w' _ hfresh _ _ hwaiters hpending =>
    exact hv.congr (by rw [hwaiters, Function.update_of_ne (hv.ne_of_fresh hfresh)])
      fun _ _ => by rw [hpending]
  | enroll id' args _ hfresh hfree hwaiters hpending =>
    exact (registered_enroll hfree hwaiters hpending).2 id w (hv.ne_of_fresh hfresh) hv
  | finish id' v v' hw hnot _ _ _ =>
    refine hv.finish_ne ?_ hw
    rintro rfl
    exact hnot (hw.unique hv ▸ hu)

theorem Effect.independent {e : Event ι Body} (h : s.Effect e (s.step e)) : s.Independent e := by
  intro id w hw
  refine ⟨h.registered hw, fun htouched => ?_⟩
  generalize s.step e = s' at h ⊢
  cases h with
  | idle hall _ _ => exact absurd (hall id w hw) htouched
  | answer id' w' hall => exact absurd (hall id w hw) htouched
  | enroll id' args hall => exact absurd (hall id w hw) htouched
  | finish id' v v' hv _ hothers hc _ =>
    by_cases hid : id = id'
    · subst hid
      obtain rfl := hw.unique hv
      refine ⟨v', setWaiter_self, hc, fun subject hs => ?_⟩
      rw [finish_pending, if_pos hs]
    · exact absurd (hothers id w hid hw) htouched

/-- Every waiter is waiting, settled, or withdrawn by its own caller. -/
def Accounted (s : FspiopResponseSubscriber ι Body) (es : List (Event ι Body)) : Prop :=
  ∀ id w, s.waiters id = some w → s.Registered id w ∨ w.outcome.isSome ∨ Event.cancel id ∈ es

theorem Effect.accounted {e : Event ι Body} {s' : FspiopResponseSubscriber ι Body}
    (h : s.Effect e s') {es : List (Event ι Body)} (hs : s.Accounted es) :
    s'.Accounted (es ++ [e]) := by
  have hold : ∀ id w, s.waiters id = some w → s.Untouched e id w ∨ ¬ s.Registered id w →
      s'.Registered id w ∨ w.outcome.isSome ∨ Event.cancel id ∈ es ++ [e] := by
    intro id w hw hkeep
    rcases hs id w hw with hreg | hout | hcancel
    · exact .inl (h.registered hreg (hkeep.resolve_right fun hn => hn hreg))
    · exact .inr (.inl hout)
    · exact .inr (.inr (List.mem_append_left _ hcancel))
  have hnew : ∀ {id v}, s'.waiters = Function.update s.waiters id (some v) →
      (s'.Registered id v ∨ v.outcome.isSome ∨ Event.cancel id ∈ es ++ [e]) →
      (∀ id' w, id' ≠ id → s.Registered id' w → s.Untouched e id' w) →
      s'.Accounted (es ++ [e]) := by
    intro id v hwaiters hv hothers id' w hw
    by_cases hid : id' = id
    · subst hid
      obtain rfl : v = w := by simpa [hwaiters] using hw
      exact hv
    · rw [hwaiters, Function.update_of_ne hid] at hw
      refine hold id' w hw ?_
      by_cases hreg : s.Registered id' w
      · exact .inl (hothers id' w hid hreg)
      · exact .inr hreg
  cases h with
  | idle hall hwaiters _ =>
    intro id w hw
    rw [hwaiters] at hw
    refine hold id w hw ?_
    by_cases hreg : s.Registered id w
    · exact .inl (hall id w hreg)
    · exact .inr hreg
  | answer id v hall _ hout _ hwaiters _ =>
    exact hnew hwaiters (.inr (.inl hout)) fun id' w _ => hall id' w
  | enroll id args hall _ hfree hwaiters hpending =>
    exact hnew hwaiters (.inl (registered_enroll hfree hwaiters hpending).1)
      fun id' w _ => hall id' w
  | finish id w v _ _ hothers _ hend =>
    refine @hnew id v rfl ?_ hothers
    rcases hend with hout | rfl
    · exact .inr (.inl hout)
    · exact .inr (.inr (by simp))

theorem Runs.invariant {ok : FspiopResponseSubscriber ι Body → Event ι Body → Prop}
    {es : List (Event ι Body)} (h : Runs ok es s) (hok : ∀ s e, ok s e → s.Apart e) :
    s.Invariant ∧ s.Accounted es := by
  induction h with
  | start => exact ⟨⟨fun _ _ h => by simp [initial] at h, fun _ _ h => by simp [initial] at h⟩,
      fun _ _ h => by simp [initial] at h⟩
  | step _ hp ho ih =>
    have heffect := effect_step ih.1 hp (hok _ _ ho)
    exact ⟨heffect.invariant ih.1, heffect.accounted ih.2⟩

/-- In every run that keeps the waiters apart: each waiter is waiting, settled or withdrawn by
its own caller, and no event touches a waiter it is not about. -/
theorem waiters_independent {es : List (Event ι Body)} (h : Runs Apart es s) :
    s.Accounted es ∧ ∀ e, s.Possible e → s.Apart e → s.Independent e := by
  have hinv := h.invariant fun _ _ hapart => hapart
  exact ⟨hinv.2, fun e hp ha => (effect_step hinv.1 hp ha).independent⟩

end

/-- A lookup of the party with the given identifier. -/
def sampleLookup (partyId : String) : WaitFor where
  successSubject := Parties.forSuccess "a" (some "b") .msisdn partyId none
  errorSubject := Parties.forError "a" (some "b") .msisdn partyId none
  hubErrorSubject := none
  timeoutMs := defaultTimeoutMs

/-- Two lookups, the first of which times out. -/
def sampleEvents (partyId partyId' : String) : List (Event ℕ Unit) :=
  [.waitFor 0 (sampleLookup partyId) 0, .waitFor 1 (sampleLookup partyId') 0, .fire 0]

/-- When they are about different parties, the second still gets its callback. -/
theorem waiters_independent_sample :
    ((sampleEvents "1" "2").foldl step initial).Accounted (sampleEvents "1" "2") ∧
      ((sampleEvents "1" "2").foldl step initial).Independent
        (.dispatch (sampleLookup "2").successSubject (.success ()) 1) := by
  have hstart : Runs (ι := ℕ) Apart [] (initial : FspiopResponseSubscriber ℕ Unit) := .start
  have hfirst := hstart.step (e := .waitFor 0 (sampleLookup "1") 0) rfl (.inr (by decide +kernel))
  have hsecond := hfirst.step (e := .waitFor 1 (sampleLookup "2") 0) rfl (.inr (by decide +kernel))
  have hfired := hsecond.step (e := .fire 0) ⟨_, rfl, rfl⟩ trivial
  have h := waiters_independent hfired
  exact ⟨h.1, h.2 _ trivial (.inl (by simp))⟩

/-- Without the conditions they are not: of two lookups of the same party the first times out,
and the second is registered nowhere and has no timer. -/
theorem not_waiters_independent :
    ¬ ∀ (es : List (Event ℕ Unit)) s, Runs (fun _ _ => True) es s → s.Accounted es := by
  intro h
  have hstart : Runs (fun _ _ => True) [] (initial : FspiopResponseSubscriber ℕ Unit) := .start
  have hfirst := hstart.step (e := .waitFor 0 (sampleLookup "1") 0) rfl trivial
  have hsecond := hfirst.step (e := .waitFor 1 (sampleLookup "1") 0) rfl trivial
  have hfired := hsecond.step (e := .fire 0) ⟨_, rfl, rfl⟩ trivial
  have haccounted := h (sampleEvents "1" "1") _ hfired 1
    { sampleLookup "1" with timer := false, outcome := none } rfl
  revert haccounted
  decide +kernel

end Fspiop.FspiopResponseSubscriber
