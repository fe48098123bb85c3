import Pivotal.Async.Allocation
import Pivotal.Pkcs11.SessionPool

/-! Each pooled session is free or lent to one caller, and the callers that wait for one are
served in the order they came. -/
namespace Pkcs11
open Async.Program (lift perform)
open Async (Allocated Config Event Label Monitor Process Program System Written forall_update
  update_eq_some)
open Fspiop (JsError)

/-- Where a call stands with its session. -/
inductive Lease where
  | new
  | signs
  | provisions
  | waits (promise : ℕ)
  | holds (session : ℕ)
  | worked (session : ℕ) (result : Except JsError Unit)
  | served (result : Except JsError Unit)

namespace Lease

def next : Lease → (op : PoolOp) → PoolAnswer op → Lease
  | .new, .status, status => if status = (true, true) then .signs else .provisions
  | .signs, .acquire, .inl session => .holds session
  | .signs, .acquire, .inr promise => .waits promise
  | .waits _, .session _, session => .holds session
  | .holds _, .work session, result => .worked session result
  | .worked _ result, .release _, _ => .served result
  | lease, _, _ => lease

def allows : Lease → PoolOp → Prop
  | .new, op => op = .status
  | .signs, op => op = .acquire
  | .provisions, _ => True
  | .waits promise, op => op = .session promise
  | .holds session, op => op = .work session
  | .worked session _, op => op = .release session
  | .served _, _ => False

/-- The session that is lent, also when the caller has not yet taken it up. -/
def session (handed : List (ℕ × ℕ)) : Lease → Option ℕ
  | .waits promise => handed.lookup promise
  | .holds session | .worked session _ => some session
  | _ => none

/-- How a call ends. One that has passed the checks of the pool has done its work, with the result
that it returns, and has released its session. -/
def Ends : PoolJob → Lease → Except JsError Unit → Prop
  | _, .provisions, _ => True
  | .withSession, lease, result => lease = .served result
  | .withTenantLogin _, lease, _ => lease = .signs

variable {lease : Lease} {op : PoolOp} {a : PoolAnswer op} {session : ℕ}
  {result : Except JsError Unit}

theorem Ends.session_eq_none {job : PoolJob} (h : lease.Ends job result)
    (hchecked : lease ≠ .provisions) (handed : List (ℕ × ℕ)) : lease.session handed = none := by
  cases lease with
  | provisions => exact (hchecked rfl).elim
  | _ =>
    cases job with
    | withSession => cases h <;> rfl
    | withTenantLogin credential => cases h <;> rfl

theorem Ends.eq_served (h : lease.Ends .withSession result) (hchecked : lease ≠ .provisions) :
    lease = .served result := by
  cases lease with
  | provisions => exact (hchecked rfl).elim
  | _ => exact h

theorem next_eq_worked (h : lease.next op a = .worked session result) :
    (⟨op, a⟩ : Event PoolOp PoolAnswer) = ⟨.work session, result⟩ ∨
      lease = .worked session result := by
  cases lease with
  | holds held =>
    cases op with
    | work session' =>
      cases h
      exact .inl rfl
    | _ => cases h
  | worked held result' =>
    cases op with
    | release _ => cases h
    | _ => exact .inr h
  | new =>
    cases op with
    | status =>
      rw [next] at h
      split at h <;> cases h
    | _ => cases h
  | signs =>
    cases op with
    | acquire => cases a <;> cases h
    | _ => cases h
  | _ => cases op <;> cases h

/-- A call is served once it has released the session that it worked on. -/
theorem next_eq_served (h : lease.next op a = .served result) :
    (∃ session, lease = .worked session result) ∨ lease = .served result := by
  cases lease with
  | worked held result' =>
    cases op with
    | release _ =>
      cases h
      exact .inl ⟨held, rfl⟩
    | _ => cases h
  | served result' => exact .inr (by cases op <;> exact h)
  | new =>
    cases op with
    | status =>
      rw [next] at h
      split at h <;> cases h
    | _ => cases h
  | signs =>
    cases op with
    | acquire => cases a <;> cases h
    | _ => cases h
  | _ => cases op <;> cases h

end Lease

def leases : Monitor PoolOp PoolAnswer Lease where
  next := Lease.next
  allows := Lease.allows

/-- A call that provisions is not followed further. -/
theorem obeys_leases_of_provisions {job : PoolJob} (p : PoolProgram Unit) :
    p.Obeys leases .provisions (Lease.Ends job) := by
  induction p with
  | done r => trivial
  | call op resume ih => exact ⟨trivial, ih⟩

theorem obeys_leases_of_holds (session : ℕ) :
    ((do lift (← perform (PoolOp.work session))).tryFinally
      (perform (PoolOp.release session)) : PoolProgram Unit).Obeys leases (.holds session)
      (Lease.Ends .withSession) := by
  refine ⟨rfl, ?_⟩
  rintro (e | _)
  · exact ⟨rfl, fun _ => rfl⟩
  · exact ⟨rfl, fun _ => rfl⟩

theorem execute_obeys_leases (job : PoolJob) :
    job.execute.Obeys leases .new (Lease.Ends job) := by
  cases job with
  | withSession =>
    refine ⟨rfl, ?_⟩
    rintro ⟨_ | _, _ | _⟩
    · trivial
    · trivial
    · trivial
    · refine ⟨rfl, ?_⟩
      rintro (free | promise)
      · exact obeys_leases_of_holds free
      · exact ⟨rfl, obeys_leases_of_holds⟩
  | withTenantLogin credential =>
    refine ⟨rfl, ?_⟩
    rintro ⟨_ | _, _ | _⟩
    · trivial
    · trivial
    · exact obeys_leases_of_provisions _
    · rfl

/-- What is known of the work of a call is what the work was answered. -/
theorem work_of_lease (t : List (Event PoolOp PoolAnswer)) (result : Except JsError Unit) :
    (∀ session, leases.after .new t = .worked session result → ⟨.work session, result⟩ ∈ t) ∧
      (leases.after .new t = .served result → ∃ session, ⟨.work session, result⟩ ∈ t) := by
  induction t using List.reverseRecOn with
  | nil => exact ⟨nofun, nofun⟩
  | append_singleton t e ih =>
    obtain ⟨hworked, hserved⟩ := ih
    rw [Monitor.after_append, Monitor.after_cons, Monitor.after_nil]
    constructor
    · intro session h
      rcases Lease.next_eq_worked h with he | hlease
      · exact List.mem_append_right _ (List.mem_singleton.mpr he.symm)
      · exact List.mem_append_left _ (hworked session hlease)
    · intro h
      rcases Lease.next_eq_served h with ⟨session, hlease⟩ | hlease
      · exact ⟨session, List.mem_append_left _ (hworked session hlease)⟩
      · obtain ⟨session, hmem⟩ := hserved hlease
        exact ⟨session, List.mem_append_left _ hmem⟩

variable {ι : Type}

/-- The session that is lent to each call. -/
def lent (pool : SessionPool) (f : ι → Option Lease) : ι → Option ℕ :=
  fun i => (f i).bind (Lease.session pool.handed)

/-- The promises of a session are kept in the order they were made, each to one call, and none
is waited for while a session is free. -/
structure Orderly (pool : SessionPool) (f : ι → Option Lease) : Prop where
  started : pool.started = true
  standing : pool.hasStandingLogin = true
  signs : ∀ i, f i ≠ some .provisions
  ordered : (pool.handed.map Prod.fst).reverse ++ pool.waiting = List.range pool.nextWaiting
  busy : pool.waiting ≠ [] → pool.available = []
  owned : ∀ p ∈ pool.waiting, ∃ i, f i = some (.waits p)
  promised : ∀ i p, f i = some (.waits p) → p < pool.nextWaiting
  alone : ∀ i j p, f i = some (.waits p) → f j = some (.waits p) → i = j

theorem lookup_isSome_iff (handed : List (ℕ × ℕ)) (p : ℕ) :
    (handed.lookup p).isSome ↔ p ∈ handed.map Prod.fst := by
  induction handed with
  | nil => simp
  | cons entry handed ih =>
    obtain ⟨q, x⟩ := entry
    by_cases hpq : p = q
    · simp [hpq]
    · simp [List.lookup_cons, hpq, beq_eq_false_iff_ne.mpr hpq, ih]

namespace Orderly

variable {pool : SessionPool} {f : ι → Option Lease}

theorem initial (hstarted : pool.started = true) (hstanding : pool.hasStandingLogin = true)
    (hwaiting : pool.waiting = []) (hhanded : pool.handed = []) (hnext : pool.nextWaiting = 0) :
    Orderly pool fun _ : ι => none :=
  ⟨hstarted, hstanding, nofun, by simp [hwaiting, hhanded, hnext], by simp [hwaiting], by simp [hwaiting],
    nofun, nofun⟩

theorem nodup (h : Orderly pool f) :
    ((pool.handed.map Prod.fst).reverse ++ pool.waiting).Nodup := by
  rw [h.ordered]
  exact List.nodup_range

/-- A promise that is still waited for has not been kept. -/
theorem lookup_waiting (h : Orderly pool f) {p : ℕ} (hp : p ∈ pool.waiting) :
    pool.handed.lookup p = none := by
  rw [← Option.not_isSome_iff_eq_none, lookup_isSome_iff]
  intro hkept
  exact (List.nodup_append.mp h.nodup).2.2 p (List.mem_reverse.mpr hkept) p hp rfl

theorem lookup_next (h : Orderly pool f) : pool.handed.lookup pool.nextWaiting = none := by
  rw [← Option.not_isSome_iff_eq_none, lookup_isSome_iff]
  intro hkept
  have hmem : pool.nextWaiting ∈ List.range pool.nextWaiting := by
    rw [← h.ordered]
    exact List.mem_append_left _ (List.mem_reverse.mpr hkept)
  simp at hmem

/-- A promise that is not kept yet stands in the queue. -/
theorem mem_waiting (h : Orderly pool f) {p : ℕ} (hp : p < pool.nextWaiting)
    (hkept : pool.handed.lookup p = none) : p ∈ pool.waiting := by
  have hmem : p ∈ List.range pool.nextWaiting := List.mem_range.mpr hp
  rw [← h.ordered] at hmem
  rcases List.mem_append.mp hmem with hmem | hmem
  · have hsome := (lookup_isSome_iff _ p).mpr (List.mem_reverse.mp hmem)
    rw [hkept] at hsome
    cases hsome
  · exact hmem

/-- While nobody waits the free sessions do not matter. -/
theorem withAvailable (h : Orderly pool f) (hwaiting : pool.waiting = []) (free : List ℕ) :
    Orderly { pool with available := free } f :=
  ⟨h.started, h.standing, h.signs, h.ordered, fun hne => (hne hwaiting).elim, h.owned, h.promised, h.alone⟩

/-- The first promise that is waited for is kept. -/
theorem hands (h : Orderly pool f) {p : ℕ} {rest : List ℕ} (hwaiting : pool.waiting = p :: rest)
    (session : ℕ) :
    Orderly { pool with waiting := rest, handed := (p, session) :: pool.handed } f where
  started := h.started
  standing := h.standing
  signs := h.signs
  ordered := by
    rw [← h.ordered, hwaiting]
    simp
  busy := fun _ => h.busy (by simp [hwaiting])
  owned := fun q hq => h.owned q (by simp [hwaiting, hq])
  promised := h.promised
  alone := h.alone

variable [DecidableEq ι] {i : ι}

theorem goesOn (h : Orderly pool f) {r : Lease} (hr : r ≠ .provisions)
    (hwaits : ∀ p, r ≠ .waits p) (hwaited : ∀ p ∈ pool.waiting, f i ≠ some (.waits p)) :
    Orderly pool (Function.update f i (some r)) where
  started := h.started
  standing := h.standing
  signs := by
    intro j hj
    rcases update_eq_some.mp hj with ⟨-, hj⟩ | ⟨-, hj⟩
    · exact hr (Option.some.inj hj)
    · exact h.signs j hj
  ordered := h.ordered
  busy := h.busy
  owned := by
    intro p hp
    obtain ⟨j, hj⟩ := h.owned p hp
    refine ⟨j, update_eq_some.mpr (.inr ⟨?_, hj⟩)⟩
    rintro rfl
    exact hwaited p hp hj
  promised := by
    intro j p hj
    rcases update_eq_some.mp hj with ⟨-, hj⟩ | ⟨-, hj⟩
    · exact (hwaits p (Option.some.inj hj)).elim
    · exact h.promised j p hj
  alone := by
    intro j k p hj hk
    rcases update_eq_some.mp hj with ⟨-, hj⟩ | ⟨-, hj⟩
    · exact (hwaits p (Option.some.inj hj)).elim
    · rcases update_eq_some.mp hk with ⟨-, hk⟩ | ⟨-, hk⟩
      · exact (hwaits p (Option.some.inj hk)).elim
      · exact h.alone j k p hj hk

theorem queues (h : Orderly pool f) (hfree : pool.available = [])
    (hi : ∀ p, f i ≠ some (.waits p)) :
    Orderly { pool with waiting := pool.waiting ++ [pool.nextWaiting]
                        nextWaiting := pool.nextWaiting + 1 }
      (Function.update f i (some (.waits pool.nextWaiting))) where
  started := h.started
  standing := h.standing
  signs := by
    intro j hj
    rcases update_eq_some.mp hj with ⟨-, hj⟩ | ⟨-, hj⟩
    · cases hj
    · exact h.signs j hj
  ordered := by
    rw [List.range_succ, ← h.ordered, List.append_assoc]
  busy := fun _ => hfree
  owned := by
    intro p hp
    rcases List.mem_append.mp hp with hp | hp
    · obtain ⟨j, hj⟩ := h.owned p hp
      refine ⟨j, update_eq_some.mpr (.inr ⟨?_, hj⟩)⟩
      rintro rfl
      exact hi p hj
    · rw [List.mem_singleton] at hp
      exact ⟨i, update_eq_some.mpr (.inl ⟨rfl, by rw [hp]⟩)⟩
  promised := by
    intro j p hj
    rcases update_eq_some.mp hj with ⟨-, hj⟩ | ⟨-, hj⟩
    · cases hj
      exact Nat.lt_succ_self _
    · exact Nat.lt_succ_of_lt (h.promised j p hj)
  alone := by
    intro j k p hj hk
    rcases update_eq_some.mp hj with ⟨hji, hjp⟩ | ⟨-, hj⟩
    · cases hjp
      rcases update_eq_some.mp hk with ⟨hki, -⟩ | ⟨-, hk⟩
      · rw [hji, hki]
      · exact (Nat.lt_irrefl _ (h.promised k _ hk)).elim
    · rcases update_eq_some.mp hk with ⟨-, hkp⟩ | ⟨-, hk⟩
      · cases hkp
        exact (Nat.lt_irrefl _ (h.promised j _ hj)).elim
      · exact h.alone j k p hj hk

end Orderly

section Lent

variable [DecidableEq ι] {i : ι}

theorem lent_update (pool : SessionPool) (f : ι → Option Lease) (i : ι) (r : Lease) :
    lent pool (Function.update f i (some r)) =
      Function.update (lent pool f) i (r.session pool.handed) := by
  funext j
  by_cases hj : j = i
  · subst hj
    simp [lent]
  · simp [lent, hj]

/-- A call that goes on with the session it has, or without one. -/
theorem lent_goesOn {pool : SessionPool} {f : ι → Option Lease} {r : Lease}
    (h : lent pool f i = r.session pool.handed) :
    lent pool (Function.update f i (some r)) = lent pool f := by
  rw [lent_update, ← h, Function.update_eq_self]

/-- A kept promise lends its session to the call that waits for it. -/
theorem lent_hands {pool : SessionPool} {f : ι → Option Lease} {p : ℕ} (rest : List ℕ)
    (session : ℕ) (h : Orderly pool f) (hi : f i = some (.waits p)) :
    lent { pool with waiting := rest, handed := (p, session) :: pool.handed } f =
      Function.update (lent pool f) i (some session) := by
  funext j
  by_cases hj : j = i
  · subst hj
    simp [lent, hi, Lease.session]
  · rw [Function.update_of_ne hj]
    cases hfj : f j with
    | none => simp [lent, hfj]
    | some r =>
      cases r with
      | waits q =>
        have hqp : q ≠ p := by
          rintro rfl
          exact hj (h.alone j i q hfj hi)
        simp [lent, hfj, Lease.session, List.lookup_cons, beq_eq_false_iff_ne.mpr hqp]
      | _ => simp [lent, hfj, Lease.session]

end Lent

/-- What holds of the pool and of its calls in every run. -/
structure Conserves (all : List ℕ) (pool : SessionPool) (f : ι → Option Lease) : Prop where
  orderly : Orderly pool f
  allocated : Allocated all pool.available (lent pool f)

namespace Conserves

variable [DecidableEq ι] {all : List ℕ} {pool : SessionPool} {f : ι → Option Lease} {i : ι}

theorem goesOn (h : Conserves all pool f) {r : Lease} (hr : r ≠ .provisions)
    (hwaits : ∀ p, r ≠ .waits p) (hwaited : ∀ p ∈ pool.waiting, f i ≠ some (.waits p))
    (hlent : lent pool f i = r.session pool.handed) :
    Conserves all pool (Function.update f i (some r)) := by
  refine ⟨h.orderly.goesOn hr hwaits hwaited, ?_⟩
  rw [lent_goesOn hlent]
  exact h.allocated

/-- `acquire` takes a free session, or queues for one. -/
theorem acquires (h : Conserves all pool f) (hi : f i = some .signs) :
    Conserves all pool.acquire.2
      (Function.update f i (some (Lease.signs.next .acquire pool.acquire.1))) := by
  have hnone : lent pool f i = none := by simp [lent, hi, Lease.session]
  have hwaits : ∀ p, f i ≠ some (.waits p) := by simp [hi]
  cases hfree : pool.available.getLast? with
  | some free =>
    have hacquire : pool.acquire =
        (.inl free, { pool with available := pool.available.dropLast }) := by
      simp [SessionPool.acquire, hfree]
    have hperm : pool.available.Perm (free :: pool.available.dropLast) := by
      have hlast := List.perm_append_singleton free pool.available.dropLast
      rwa [List.dropLast_append_getLast? free hfree] at hlast
    have hwaiting : pool.waiting = [] := by
      by_contra hne
      rw [h.orderly.busy hne] at hfree
      cases hfree
    rw [hacquire]
    constructor
    · exact (h.orderly.goesOn (r := .holds free) (by simp) (by simp) fun p _ => hwaits p).withAvailable
        hwaiting _
    · rw [lent_update]
      exact h.allocated.take hperm hnone
  | none =>
    have hempty := List.getLast?_eq_none_iff.mp hfree
    have hacquire : pool.acquire = (.inr pool.nextWaiting, { pool with
        waiting := pool.waiting ++ [pool.nextWaiting]
        nextWaiting := pool.nextWaiting + 1 }) := by
      simp [SessionPool.acquire, hfree]
    rw [hacquire]
    refine ⟨h.orderly.queues hempty hwaits, ?_⟩
    rw [lent_goesOn]
    · exact h.allocated
    · exact hnone.trans h.orderly.lookup_next.symm

/-- `release` hands the session to the first call that waits, or frees it. -/
theorem releases (h : Conserves all pool f) {session : ℕ} {result : Except JsError Unit}
    (hi : f i = some (.worked session result)) :
    Conserves all (pool.release session) (Function.update f i (some (.served result))) := by
  have hlent : lent pool f i = some session := by simp [lent, hi, Lease.session]
  have hgone : Orderly pool (Function.update f i (some (.served result))) :=
    h.orderly.goesOn (by simp) (by simp) (by simp [hi])
  cases hwaiting : pool.waiting with
  | nil =>
    have hrelease : pool.release session =
        { pool with available := pool.available ++ [session] } := by
      simp [SessionPool.release, hwaiting]
    rw [hrelease]
    refine ⟨hgone.withAvailable hwaiting _, ?_⟩
    rw [lent_update]
    exact h.allocated.give hlent (List.perm_append_singleton _ _)
  | cons p rest =>
    have hrelease : pool.release session =
        { pool with waiting := rest, handed := (p, session) :: pool.handed } := by
      simp [SessionPool.release, hwaiting]
    rw [hrelease]
    refine ⟨hgone.hands hwaiting session, ?_⟩
    obtain ⟨j, hj⟩ := h.orderly.owned p (by simp [hwaiting])
    have hjnone : lent pool f j = none := by
      simpa [lent, hj, Lease.session] using h.orderly.lookup_waiting (p := p) (by simp [hwaiting])
    have hji : j ≠ i := by
      rintro rfl
      rw [hi] at hj
      cases hj
    rw [lent_hands rest session hgone (update_eq_some.mpr (.inr ⟨hji, hj⟩)), lent_update]
    exact h.allocated.pass hlent hjnone

/-- A call that has not got to wait, and goes on without a session. -/
theorem enters (h : Conserves all pool f) {r : Lease} (hr : r = .new ∨ r = .signs)
    (hi : f i = none ∨ f i = some .new) : Conserves all pool (Function.update f i (some r)) := by
  apply h.goesOn
  · rcases hr with rfl | rfl <;> simp
  · rcases hr with rfl | rfl <;> simp
  · rcases hi with hi | hi <;> simp [hi]
  · rcases hr with rfl | rfl <;> rcases hi with hi | hi <;> simp [lent, hi, Lease.session]

/-- One step of one call, where `withTenantLogin` is refused. -/
theorem call {s s' : Token} (h : Conserves all s.pool f) {r : Lease} {op : PoolOp}
    {a : PoolAnswer op} (hi : f i = some r) (hr : r.allows op) (hp : s.performs op a s') :
    Conserves all s'.pool (Function.update f i (some (r.next op a))) := by
  cases r with
  | new =>
    cases hr
    obtain ⟨ha, rfl⟩ := hp
    have hnext : Lease.new.next .status a = .signs := by
      simp [ha, Lease.next, h.orderly.started, h.orderly.standing]
    rw [hnext]
    exact h.enters (.inr rfl) (.inr hi)
  | signs =>
    cases hr
    obtain ⟨rfl, rfl⟩ := hp
    exact h.acquires hi
  | provisions => exact (h.orderly.signs i hi).elim
  | waits p =>
    cases hr
    obtain ⟨hkept, rfl⟩ := hp
    have hnext : Lease.next (.waits p) (.session p) a = .holds a := rfl
    rw [hnext]
    apply h.goesOn (by simp) (by simp)
    · intro q hq hiq
      rw [hi] at hiq
      cases hiq
      rw [h.orderly.lookup_waiting hq] at hkept
      cases hkept
    · simpa [lent, hi, Lease.session] using hkept
  | holds session =>
    cases hr
    cases hp
    have hnext : Lease.next (.holds session) (.work session) a = .worked session a := rfl
    rw [hnext]
    exact h.goesOn (by simp) (by simp) (by simp [hi]) (by simp [lent, hi, Lease.session])
  | worked session result =>
    cases hr
    cases hp
    exact h.releases hi
  | served => exact hr.elim

end Conserves

section Start

variable {settings : Settings} {device : SessionPool.Device}

open SessionPool (openSessions start)

theorem openSessions_spec {n i : ℕ} {pool pool' : SessionPool}
    (h : openSessions device n i pool = (.ok (), pool')) : ∃ opened : List ℕ,
      pool' = { pool with available := pool.available ++ opened } ∧
      opened.map .ok = (List.range' i n).map device.openSession := by
  induction n generalizing i pool with
  | zero =>
    cases h
    exact ⟨[], by simp, rfl⟩
  | succ n ih =>
    rw [openSessions] at h
    cases hopen : device.openSession i with
    | error e =>
      rw [hopen] at h
      cases h
    | ok session =>
      rw [hopen] at h
      obtain ⟨opened, rfl, hopened⟩ := ih h
      exact ⟨session :: opened, by simp, by simp [List.range'_succ, hopen, hopened]⟩

theorem nodup_of_opened
    (hdistinct : ∀ i j x, device.openSession i = .ok x → device.openSession j = .ok x → i = j)
    {opened : List ℕ} {n : ℕ}
    (h : opened.map Except.ok = (List.range n).map device.openSession) : opened.Nodup := by
  have hmap : (opened.map (Except.ok : ℕ → Except JsError ℕ)).Nodup := by
    rw [h]
    refine List.Nodup.map_on ?_ List.nodup_range
    intro i hi j hj hij
    have hmem : device.openSession i ∈ opened.map Except.ok := by
      rw [h]
      exact List.mem_map_of_mem hi
    obtain ⟨x, -, hx⟩ := List.mem_map.mp hmem
    exact hdistinct i j x hx.symm (hij.symm.trans hx.symm)
  exact hmap.of_map Except.ok

/-- A pool that has started with a credential: its sessions are those that were opened, each at
most once when the device opens different ones. -/
theorem start_spec {credential : Credential} {pool : SessionPool}
    (hsize : 1 ≤ settings.poolSize)
    (h : start settings device (some credential) .new = (.ok (), pool))
    (hdistinct : ∀ i j x, device.openSession i = .ok x → device.openSession j = .ok x → i = j) :
    pool.available.Nodup ∧ pool.available.length = settings.poolSize ∧
      Orderly pool fun _ : ι => none := by
  cases hload : device.load with
  | error e => simp [start, SessionPool.new, hload] at h
  | ok _ =>
    cases hslot : SessionPool.findSlot settings device.tokens with
    | error e => simp [start, SessionPool.new, hload, hslot] at h
    | ok slot =>
      cases hfirst : device.openSession 0 with
      | error e => simp [start, SessionPool.new, hload, hslot, hfirst] at h
      | ok first =>
        cases hlogin : device.login (pin credential.username credential.password) with
        | error e => simp [start, SessionPool.new, hload, hslot, hfirst, hlogin] at h
        | ok _ =>
          simp only [start, SessionPool.new, Bool.false_eq_true, if_false, hload, hslot, hfirst,
            hlogin] at h
          obtain ⟨opened, rfl, hopened⟩ := openSessions_spec h
          have hall : (first :: opened).map Except.ok =
              (List.range settings.poolSize).map device.openSession := by
            rw [List.map_cons, hopened, ← hfirst, List.range_eq_range',
              ← Nat.sub_add_cancel hsize, List.range'_succ, List.map_cons]
            simp
          refine ⟨nodup_of_opened hdistinct hall, ?_, .initial rfl rfl rfl rfl rfl⟩
          simpa using congrArg List.length hall

end Start

/-- The session that each call of a pool is lent. -/
def Sessions.lent (c : Sessions ι) : ι → Option ℕ :=
  Pkcs11.lent c.shared.pool (c.records leases fun _ => .new)

variable [DecidableEq ι]

theorem conserves_reached {all : List ℕ} {s : Token} {c : Sessions ι}
    (h : sessions.Reaches System.NoCrash (.initial s) c)
    (h₀ : Conserves all s.pool fun _ : ι => none) :
    Conserves all c.shared.pool (c.records leases fun _ => .new) := by
  refine System.Reaches.records_invariant (fun _ _ l => ∀ i, l ≠ .crash i)
    (fun s f => Conserves all s.pool f) h execute_obeys_leases h₀ ?_
  intro s f l s' f' hinv hl hmove
  cases hmove with
  | start job hi => exact hinv.enters (.inl rfl) (.inl hi)
  | call hi hr hp => exact hinv.call hi hr hp
  | crash hi hr => exact (hl _ rfl).elim
  | background hb => exact hb.elim

theorem lease_of_awaits {s : Token} {c : Sessions ι}
    (h : sessions.Reaches System.NoCrash (.initial s) c) {i : ι} {op : PoolOp}
    (hi : c.awaits i = some op) :
    ∃ r : Lease, c.records leases (fun _ => .new) i = some r ∧ r.allows op := by
  obtain ⟨job, t, resume, hp⟩ := Sessions.awaits_eq_some hi
  exact ⟨_, Config.records_eq hp, h.allows execute_obeys_leases hp⟩

/-- In every run of a pool that has started with a credential, no session is lent to two calls,
the free sessions and the lent ones are as many as were opened, a call waits for a session only
while none is free, and the promises are kept in the order they were made. The work of a call
runs on the session that it is lent, and a call that has ended holds none: it has done its work,
and returns or throws as that did. -/
theorem sessions_exclusive_and_conserved {settings : Settings} {device : SessionPool.Device}
    {credential : Credential} {s : Token} {c : Sessions ι} (hsize : 1 ≤ settings.poolSize)
    (hdistinct : ∀ i j x, device.openSession i = .ok x → device.openSession j = .ok x → i = j)
    (hstart : SessionPool.start settings device (some credential) .new = (.ok (), s.pool))
    (h : sessions.Reaches System.NoCrash (.initial s) c) :
    (∀ i j x, c.lent i = some x → c.lent j = some x → i = j) ∧
      c.shared.pool.available.length + Set.ncard {i | (c.lent i).isSome} = settings.poolSize ∧
      (∀ i p, c.awaits i = some (.session p) →
        c.shared.pool.handed.lookup p = none → c.shared.pool.available = []) ∧
      (c.shared.pool.handed.map Prod.fst).reverse ++ c.shared.pool.waiting =
        List.range c.shared.pool.nextWaiting ∧
      (∀ i x, c.awaits i = some (.work x) → c.lent i = some x) ∧
      (∀ i job t result, c.process i = some ⟨job, t, .done result⟩ → c.lent i = none) ∧
      ∀ i t result, c.process i = some ⟨.withSession, t, .done result⟩ →
        ∃ x, ⟨.work x, result⟩ ∈ t := by
  obtain ⟨hnodup, hlength, horderly⟩ := start_spec (ι := ι) hsize hstart hdistinct
  have hinv := conserves_reached h ⟨horderly, .initial hnodup⟩
  have hends : ∀ i job t result, c.process i = some ⟨job, t, .done result⟩ →
      ∃ r : Lease, c.records leases (fun _ => .new) i = some r ∧ r = leases.after .new t ∧
        r ≠ .provisions ∧ r.Ends job result := by
    intro i job t result hi
    have hrecord : c.records leases (fun _ => .new) i = some (leases.after .new t) :=
      Config.records_eq hi
    refine ⟨_, hrecord, rfl, ?_, h.settled execute_obeys_leases hi⟩
    rintro hprovisions
    exact hinv.orderly.signs i (hrecord.trans (congrArg some hprovisions))
  refine ⟨hinv.allocated.exclusive, ?_, ?_, hinv.orderly.ordered, ?_, ?_, ?_⟩
  · rw [← hlength]
    exact hinv.allocated.length_add_ncard hnodup
  · intro i p hi hkept
    obtain ⟨r, hr, hallows⟩ := lease_of_awaits h hi
    cases r with
    | waits q =>
      obtain rfl : p = q := by simpa [Lease.allows] using hallows
      have hmem := hinv.orderly.mem_waiting (hinv.orderly.promised i p hr) hkept
      exact hinv.orderly.busy (List.ne_nil_of_mem hmem)
    | provisions => exact (hinv.orderly.signs i hr).elim
    | _ => simp [Lease.allows] at hallows
  · intro i x hi
    obtain ⟨r, hr, hallows⟩ := lease_of_awaits h hi
    cases r with
    | holds y =>
      obtain rfl : x = y := by simpa [Lease.allows] using hallows
      simp [Sessions.lent, lent, hr, Lease.session]
    | provisions => exact (hinv.orderly.signs i hr).elim
    | _ => simp [Lease.allows] at hallows
  · intro i job t result hi
    obtain ⟨r, hr, -, hchecked, hended⟩ := hends i job t result hi
    rw [Sessions.lent, lent, hr]
    exact hended.session_eq_none hchecked _
  · intro i t result hi
    obtain ⟨r, -, rfl, hchecked, hended⟩ := hends i .withSession t result hi
    exact (work_of_lease t result).2 (hended.eq_served hchecked)

section Sample

def sampleSigner : Token where
  pool := (SessionPool.start sampleSettings sampleDevice (some ⟨"signer", "1234"⟩) .new).2
  login := some "signer:1234"
  sessions := [0]

/-- The first call works on the only session, and the second one waits for it. -/
def sampleBusy : Sessions Bool :=
  (Sessions.begin ((Sessions.begin (Config.initial sampleSigner) false .withSession).advance
    (Token.respond true) false 2) true .withSession).advance (Token.respond true) true 2

theorem sampleBusy_reached :
    sessions.Reaches System.NoCrash (Config.initial sampleSigner) sampleBusy := by
  have hstart : sessions.Reaches System.NoCrash (.initial sampleSigner)
      (.initial sampleSigner : Sessions Bool) := .refl
  have hfirst := Sessions.reaches_begin (i := false) hstart .withSession rfl
  have hheld := Sessions.reaches_advance hfirst true false 2 (by rintro _ ⟨⟩; decide)
  have hsecond := Sessions.reaches_begin (i := true) hheld .withSession rfl
  exact Sessions.reaches_advance hsecond true true 2 (by rintro _ ⟨⟩; decide)

/-- Once the first call is done, its session passes to the second one. -/
def samplePassed : Sessions Bool :=
  (sampleBusy.advance (Token.respond true) false 2).advance (Token.respond true) true 1

theorem samplePassed_reached :
    sessions.Reaches System.NoCrash (Config.initial sampleSigner) samplePassed := by
  have hdone := Sessions.reaches_advance sampleBusy_reached true false 2 (by rintro _ ⟨⟩; decide)
  exact Sessions.reaches_advance hdone true true 1 (by rintro _ ⟨⟩; decide)

theorem sessions_exclusive_and_conserved_sample :
    samplePassed.shared.pool.handed = [(0, 0)] ∧ samplePassed.awaits true = some (.work 0) ∧
      samplePassed.lent true = some 0 ∧
      (∃ t, samplePassed.process false = some ⟨.withSession, t, .done (.ok ())⟩ ∧
        samplePassed.lent false = none ∧ ∃ x, ⟨.work x, .ok ()⟩ ∈ t) ∧
      samplePassed.shared.pool.available.length + Set.ncard {i | (samplePassed.lent i).isSome} =
        1 := by
  have hstart : SessionPool.start sampleSettings sampleDevice (some ⟨"signer", "1234"⟩) .new =
      (.ok (), sampleSigner.pool) := rfl
  have hdistinct : ∀ i j x, sampleDevice.openSession i = .ok x →
      sampleDevice.openSession j = .ok x → i = j := by
    intro i j x hi hj
    cases hi
    cases hj
    rfl
  obtain ⟨-, hconserved, -, -, hworks, hends, hserved⟩ :=
    sessions_exclusive_and_conserved (by decide) hdistinct hstart samplePassed_reached
  have hawaits : samplePassed.awaits true = some (.work 0) := by decide +kernel
  refine ⟨by decide +kernel, hawaits, hworks true 0 hawaits, ?_, hconserved⟩
  exact ⟨_, rfl, hends false _ _ _ rfl, hserved false _ _ rfl⟩

end Sample

end Pkcs11
