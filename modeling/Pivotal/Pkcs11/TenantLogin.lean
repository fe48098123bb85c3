import Pivotal.Pkcs11.SessionPool

/-! One tenant after the other, and what a session that does not open does to those that wait. -/
namespace Pkcs11
open Async.Program (lift perform)
open Async (Config Event Label Monitor Process Program System Written forall_update update_eq_some)
open Fspiop (JsError)

/-- How far a call has come that has its place in the queue. -/
inductive Phase where
  | queued (previous : ℕ)
  | turn
  | failed
  | opened
  | inside
  | leaving
  | gone
  deriving DecidableEq

inductive Stage where
  | new
  | signs
  | admitted
  | ticket (own : ℕ) (phase : Phase)
  deriving DecidableEq

/-- Where a call stands, and the pin that it logs in with. -/
structure Visit where
  pin : String
  stage : Stage
  deriving DecidableEq

namespace Stage

def next : Stage → (op : PoolOp) → PoolAnswer op → Stage
  | .new, .status, status => if status.2 then .signs else .admitted
  | .admitted, .queue, turns => .ticket turns.2 (.queued turns.1)
  | .ticket own (.queued _), .turn _, _ => .ticket own .turn
  | .ticket own .turn, .openSession, .ok _ => .ticket own .opened
  | .ticket own .turn, .openSession, .error _ => .ticket own .failed
  | .ticket own .opened, .login _ _, .done _ => .ticket own .inside
  | .ticket own .opened, .login _ _, _ => .ticket own .leaving
  | .ticket own .inside, .work _, _ => .ticket own .leaving
  | .ticket own .leaving, .releaseTurn _, _ => .ticket own .gone
  | stage, _, _ => stage

def allows (pin : String) : Stage → PoolOp → Prop
  | .new, op => op = .status
  | .signs, _ => True
  | .admitted, op => op = .queue
  | .ticket _ (.queued previous), op => op = .turn previous
  | .ticket _ .turn, op => op = .openSession
  | .ticket _ .opened, op => ∃ session, op = .login session pin
  | .ticket _ .inside, op => ∃ session, op = .work session
  | .ticket own .leaving, op =>
    (∃ session, op = .logout session ∨ op = .closeSession session) ∨ op = .releaseTurn own
  | .ticket _ .failed, _ => False
  | .ticket _ .gone, _ => False

/-- Where a call may settle: it is refused, or its session does not open, or its turn is over. -/
def Settled : Stage → Prop
  | .new => True
  | .signs => True
  | .admitted => True
  | .ticket _ phase => phase = .failed ∨ phase = .gone

end Stage

def visits : Monitor PoolOp PoolAnswer Visit where
  next r op a := ⟨r.pin, r.stage.next op a⟩
  allows r op := r.stage.allows r.pin op

def PoolJob.visit : PoolJob → Visit
  | .withSession => ⟨"", .new⟩
  | .withTenantLogin credential => ⟨pin credential.username credential.password, .new⟩

@[simp] theorem PoolJob.visit_withTenantLogin (credential : Credential) :
    (PoolJob.withTenantLogin credential).visit =
      ⟨pin credential.username credential.password, .new⟩ := rfl

/-- A call that signs is not followed further. -/
theorem obeys_visits_of_signs (pin : String) (p : PoolProgram Unit) :
    p.Obeys visits ⟨pin, .signs⟩ fun r _ => r.stage.Settled := by
  induction p with
  | done r => trivial
  | call op resume ih => exact ⟨trivial, ih⟩

theorem obeys_visits_of_leaving (pin : String) (session own : ℕ) (r : Except JsError Unit) :
    ((do
      SessionPool.ignore (.logout session)
      SessionPool.ignore (.closeSession session)
      perform (PoolOp.releaseTurn own)).settle (Program.onOk fun _ => .done r) :
      PoolProgram Unit).Obeys visits ⟨pin, .ticket own .leaving⟩ fun r _ => r.stage.Settled :=
  ⟨.inl ⟨session, .inl rfl⟩, fun _ => ⟨.inl ⟨session, .inr rfl⟩, fun _ =>
    ⟨.inr rfl, fun _ => .inr rfl⟩⟩⟩

theorem obeys_visits_of_opened {credential : Credential} {p : String}
    (hp : pin credential.username credential.password = p) (session own : ℕ) :
    (SessionPool.underLogin credential session own).Obeys visits ⟨p, .ticket own .opened⟩
      fun r _ => r.stage.Settled := by
  refine ⟨⟨session, congrArg (PoolOp.login session) hp⟩, ?_⟩
  rintro (_ | e | e)
  · exact ⟨⟨session, rfl⟩, obeys_visits_of_leaving _ session own⟩
  · exact obeys_visits_of_leaving _ session own (.error e)
  · exact obeys_visits_of_leaving _ session own (.error e)

theorem execute_obeys_visits (job : PoolJob) :
    job.execute.Obeys visits job.visit fun r _ => r.stage.Settled := by
  cases job with
  | withSession =>
    refine ⟨rfl, ?_⟩
    rintro ⟨_ | _, _ | _⟩
    · trivial
    · trivial
    · trivial
    · exact obeys_visits_of_signs _ _
  | withTenantLogin credential =>
    refine ⟨rfl, ?_⟩
    rintro ⟨_ | _, _ | _⟩
    · trivial
    · trivial
    · refine ⟨rfl, ?_⟩
      rintro ⟨previous, own⟩
      refine ⟨rfl, fun _ => ⟨rfl, ?_⟩⟩
      rintro (e | session)
      · exact Or.inl rfl
      · refine obeys_visits_of_opened ?_ session own
        simp only [visits, PoolJob.visit]
    · trivial

variable {ι : Type}

/-- What the promises of the queue say of a call in it. -/
def Phase.Fits (released : List ℕ) (own : ℕ) : Phase → Prop
  | .queued previous => previous + 1 = own ∧ own ∉ released
  | .gone => own ∈ released
  | _ => own - 1 ∈ released ∧ own ∉ released

/-- Whether a call has had its turn, and has not ended it. -/
def Phase.IsActive : Phase → Prop
  | .queued _ => False
  | .gone => False
  | _ => True

/-- The turns are ended in order, each by the call that has it, and only the call whose turn it is
logs in. -/
structure Serial (s : Token) (f : ι → Option Visit) : Prop where
  provisions : s.pool.hasStandingLogin = false
  admitted : ∀ i r, f i = some r → r.stage ≠ .signs
  zero : 0 ∈ s.pool.released
  down : ∀ p, p + 1 ∈ s.pool.released → p ∈ s.pool.released
  made : ∀ p ∈ s.pool.released, p ≤ s.pool.tenantLogin
  fits : ∀ i pin own phase, f i = some ⟨pin, .ticket own phase⟩ →
    0 < own ∧ own ≤ s.pool.tenantLogin ∧ phase.Fits s.pool.released own
  alone : ∀ i j pin pin' own phase phase', f i = some ⟨pin, .ticket own phase⟩ →
    f j = some ⟨pin', .ticket own phase'⟩ → i = j
  owned : ∀ p, 0 < p → p ≤ s.pool.tenantLogin →
    ∃ i pin phase, f i = some ⟨pin, .ticket p phase⟩
  login : ∀ i pin own, f i = some ⟨pin, .ticket own .inside⟩ → s.login = some pin

theorem Phase.IsActive.fits {phase : Phase} (h : phase.IsActive) {released : List ℕ} {own : ℕ}
    (hfits : phase.Fits released own) : own - 1 ∈ released ∧ own ∉ released := by
  cases phase with
  | queued previous => exact h.elim
  | gone => exact h.elim
  | _ => exact hfits

theorem Phase.Fits.releases {phase : Phase} {released : List ℕ} {own own' : ℕ}
    (h : phase.Fits released own') (hother : own' ≠ own) : phase.Fits (own :: released) own' := by
  cases phase with
  | queued previous => exact ⟨h.1, by simp [hother, h.2]⟩
  | gone => exact List.mem_cons_of_mem _ h
  | _ => exact ⟨List.mem_cons_of_mem _ h.1, by simp [hother, h.2]⟩

namespace Serial

variable {s : Token} {f : ι → Option Visit}

theorem mem_of_le (h : Serial s f) {p q : ℕ} (hp : p ∈ s.pool.released) (hq : q ≤ p) :
    q ∈ s.pool.released := by
  induction p with
  | zero =>
    obtain rfl := Nat.le_zero.mp hq
    exact hp
  | succ p ih =>
    rcases Nat.le_succ_iff.mp hq with hq | rfl
    · exact ih (h.down p hp) hq
    · exact hp

theorem login_of_work (h : Serial s f) {i : ι} {r : Visit} {session : ℕ} (hi : f i = some r)
    (hr : visits.allows r (.work session)) : some r.pin = s.login := by
  obtain ⟨pin, stage⟩ := r
  rcases stage with _ | _ | _ | ⟨own, phase⟩
  · cases hr
  · exact (h.admitted i _ hi rfl).elim
  · cases hr
  · cases phase with
    | inside => exact (h.login i pin own hi).symm
    | leaving => simp [visits, Stage.allows] at hr
    | opened => simp [visits, Stage.allows] at hr
    | _ => cases hr

/-- The promise that a call waits for is another call's. -/
theorem made_of_turn (h : Serial s f) {i : ι} {r : Visit} {previous : ℕ} (hi : f i = some r)
    (hr : visits.allows r (.turn previous)) : previous ≤ s.pool.tenantLogin := by
  obtain ⟨pin, stage⟩ := r
  rcases stage with _ | _ | _ | ⟨own, phase⟩
  · cases hr
  · exact (h.admitted i _ hi rfl).elim
  · cases hr
  · cases phase with
    | queued previous' =>
      cases hr
      obtain ⟨-, hmade, rfl, -⟩ := h.fits i _ _ _ hi
      exact Nat.le_of_succ_le hmade
    | leaving => simp [visits, Stage.allows] at hr
    | inside => simp [visits, Stage.allows] at hr
    | opened => simp [visits, Stage.allows] at hr
    | _ => cases hr

theorem active_unique (h : Serial s f) {i j : ι} {pin pin' : String} {own own' : ℕ}
    {phase phase' : Phase} (hi : f i = some ⟨pin, .ticket own phase⟩)
    (hj : f j = some ⟨pin', .ticket own' phase'⟩) (hphase : phase.IsActive)
    (hphase' : phase'.IsActive) : i = j := by
  obtain ⟨hpos, -, hfits⟩ := h.fits i pin own phase hi
  obtain ⟨hpos', -, hfits'⟩ := h.fits j pin' own' phase' hj
  obtain ⟨hbefore, hnot⟩ := hphase.fits hfits
  obtain ⟨hbefore', hnot'⟩ := hphase'.fits hfits'
  have hown : own = own' := by
    rcases Nat.lt_trichotomy own own' with hlt | heq | hlt
    · exact (hnot (h.mem_of_le hbefore' (by omega))).elim
    · exact heq
    · exact (hnot' (h.mem_of_le hbefore (by omega))).elim
  subst hown
  exact h.alone i j _ _ _ _ _ hi hj

variable [DecidableEq ι] {i : ι}

/-- A call that has no place in the queue yet. -/
theorem waits (h : Serial s f) {pin : String} {stage : Stage}
    (hstage : stage = .new ∨ stage = .admitted)
    (hi : ∀ pin own phase, f i ≠ some ⟨pin, .ticket own phase⟩) :
    Serial s (Function.update f i (some ⟨pin, stage⟩)) := by
  have hother : ∀ j pin' own phase,
      Function.update f i (some ⟨pin, stage⟩) j = some ⟨pin', .ticket own phase⟩ →
      f j = some ⟨pin', .ticket own phase⟩ := by
    intro j pin' own phase hj
    rcases update_eq_some.mp hj with ⟨-, hj⟩ | ⟨-, hj⟩
    · rcases hstage with rfl | rfl <;> cases hj
    · exact hj
  refine ⟨h.provisions, ?_, h.zero, h.down, h.made, ?_, ?_, ?_, ?_⟩
  · intro j r hj
    rcases update_eq_some.mp hj with ⟨-, hj⟩ | ⟨-, hj⟩
    · cases hj
      rcases hstage with rfl | rfl <;> simp
    · exact h.admitted j r hj
  · exact fun j pin own phase hj => h.fits j pin own phase (hother _ _ _ _ hj)
  · exact fun j k _ _ _ _ _ hj hk => h.alone j k _ _ _ _ _ (hother _ _ _ _ hj) (hother _ _ _ _ hk)
  · intro p hpos hp
    obtain ⟨j, pin', phase, hj⟩ := h.owned p hpos hp
    refine ⟨j, pin', phase, update_eq_some.mpr (.inr ⟨?_, hj⟩)⟩
    rintro rfl
    exact hi _ _ _ hj
  · exact fun j pin own hj => h.login j pin own (hother _ _ _ _ hj)

theorem proceeds (h : Serial s f) {s' : Token} (hs : s'.pool = s.pool) {pin : String} {own : ℕ}
    {phase phase' : Phase} (hi : f i = some ⟨pin, .ticket own phase⟩)
    (hfits : phase'.Fits s.pool.released own)
    (hlogin : s'.login = s.login ∨ phase.IsActive)
    (hinside : phase' = .inside → s'.login = some pin) :
    Serial s' (Function.update f i (some ⟨pin, .ticket own phase'⟩)) := by
  have hplace : ∀ j pin₁ own₁ phase₁,
      Function.update f i (some ⟨pin, .ticket own phase'⟩) j = some ⟨pin₁, .ticket own₁ phase₁⟩ →
      ∃ pin₂ phase₂, f j = some ⟨pin₂, .ticket own₁ phase₂⟩ := by
    intro j pin₁ own₁ phase₁ hj
    rcases update_eq_some.mp hj with ⟨hji, heq⟩ | ⟨-, hj⟩
    · cases heq
      exact ⟨pin, phase, hji ▸ hi⟩
    · exact ⟨_, _, hj⟩
  constructor <;> try rw [hs]
  · exact h.provisions
  · intro j r hj
    rcases update_eq_some.mp hj with ⟨-, hj⟩ | ⟨-, hj⟩
    · cases hj
      simp
    · exact h.admitted j r hj
  · exact h.zero
  · exact h.down
  · exact h.made
  · intro j pin₁ own₁ phase₁ hj
    rcases update_eq_some.mp hj with ⟨-, hj⟩ | ⟨-, hj⟩
    · cases hj
      obtain ⟨hpos, hmade, -⟩ := h.fits i pin own phase hi
      exact ⟨hpos, hmade, hfits⟩
    · exact h.fits j pin₁ own₁ phase₁ hj
  · intro j k _ _ own₁ _ _ hj hk
    obtain ⟨_, _, hj⟩ := hplace _ _ _ _ hj
    obtain ⟨_, _, hk⟩ := hplace _ _ _ _ hk
    exact h.alone j k _ _ _ _ _ hj hk
  · intro p hpos hp
    obtain ⟨j, pin₁, phase₁, hj⟩ := h.owned p hpos hp
    by_cases hji : j = i
    · subst hji
      rw [hi] at hj
      cases hj
      exact ⟨j, pin, phase', Function.update_self ..⟩
    · exact ⟨j, pin₁, phase₁, by rwa [Function.update_of_ne hji]⟩
  · intro j pin₁ own₁ hj
    rcases update_eq_some.mp hj with ⟨-, hj⟩ | ⟨hji, hj⟩
    · cases hj
      exact hinside rfl
    · rcases hlogin with hlogin | hactive
      · rw [hlogin]
        exact h.login j pin₁ own₁ hj
      · exact (hji (h.active_unique hj hi trivial hactive)).elim

/-- A call takes its place behind all others. -/
theorem queues (h : Serial s f) {pin : String} (hi : f i = some ⟨pin, .admitted⟩) :
    Serial (s.withPool s.pool.queue.2) (Function.update f i
      (some ⟨pin, .ticket (s.pool.tenantLogin + 1) (.queued s.pool.tenantLogin)⟩)) where
  provisions := h.provisions
  admitted := by
    intro j r hj
    rcases update_eq_some.mp hj with ⟨-, hj⟩ | ⟨-, hj⟩
    · cases hj
      simp
    · exact h.admitted j r hj
  zero := h.zero
  down := h.down
  made := fun p hp => Nat.le_succ_of_le (h.made p hp)
  fits := by
    intro j pin' own phase hj
    rcases update_eq_some.mp hj with ⟨-, hj⟩ | ⟨-, hj⟩
    · cases hj
      refine ⟨Nat.succ_pos _, Nat.le_refl _, rfl, fun hmade => ?_⟩
      exact Nat.not_succ_le_self _ (h.made _ hmade)
    · obtain ⟨hpos, hmade, hfits⟩ := h.fits j pin' own phase hj
      exact ⟨hpos, Nat.le_succ_of_le hmade, hfits⟩
  alone := by
    intro j k _ _ own _ _ hj hk
    rcases update_eq_some.mp hj with ⟨hji, heq⟩ | ⟨-, hj⟩
    · cases heq
      rcases update_eq_some.mp hk with ⟨hki, -⟩ | ⟨-, hk⟩
      · rw [hji, hki]
      · exact (Nat.not_succ_le_self _ (h.fits k _ _ _ hk).2.1).elim
    · rcases update_eq_some.mp hk with ⟨-, heq⟩ | ⟨-, hk⟩
      · cases heq
        exact (Nat.not_succ_le_self _ (h.fits j _ _ _ hj).2.1).elim
      · exact h.alone j k _ _ _ _ _ hj hk
  owned := by
    intro p hpos hp
    rcases Nat.le_succ_iff.mp hp with hp | rfl
    · obtain ⟨j, pin', phase, hj⟩ := h.owned p hpos hp
      refine ⟨j, pin', phase, update_eq_some.mpr (.inr ⟨?_, hj⟩)⟩
      rintro rfl
      rw [hi] at hj
      cases hj
    · exact ⟨i, pin, _, Function.update_self ..⟩
  login := by
    intro j pin' own hj
    rcases update_eq_some.mp hj with ⟨-, hj⟩ | ⟨-, hj⟩
    · cases hj
    · exact h.login j pin' own hj

theorem releases (h : Serial s f) {pin : String} {own : ℕ}
    (hi : f i = some ⟨pin, .ticket own .leaving⟩) :
    Serial (s.withPool (s.pool.releaseTurn own))
      (Function.update f i (some ⟨pin, .ticket own .gone⟩)) where
  provisions := h.provisions
  admitted := by
    intro j r hj
    rcases update_eq_some.mp hj with ⟨-, hj⟩ | ⟨-, hj⟩
    · cases hj
      simp
    · exact h.admitted j r hj
  zero := List.mem_cons_of_mem _ h.zero
  down := by
    intro p hp
    rcases List.mem_cons.mp hp with rfl | hp
    · exact List.mem_cons_of_mem _ (h.fits i _ _ _ hi).2.2.1
    · exact List.mem_cons_of_mem _ (h.down p hp)
  made := by
    intro p hp
    rcases List.mem_cons.mp hp with rfl | hp
    · exact (h.fits i _ _ _ hi).2.1
    · exact h.made p hp
  fits := by
    intro j pin' own' phase hj
    rcases update_eq_some.mp hj with ⟨-, heq⟩ | ⟨hji, hplace⟩
    · cases heq
      obtain ⟨hpos, hmade, -⟩ := h.fits i _ _ _ hi
      exact ⟨hpos, hmade, List.mem_cons_self ..⟩
    · obtain ⟨hpos, hmade, hfits⟩ := h.fits j pin' own' phase hplace
      have hother : own' ≠ own := by
        rintro rfl
        exact hji (h.alone j i _ _ _ _ _ hplace hi)
      exact ⟨hpos, hmade, hfits.releases hother⟩
  alone := by
    intro j k _ _ own' _ _ hj hk
    rcases update_eq_some.mp hj with ⟨hji, heq⟩ | ⟨-, hplace⟩
    · cases heq
      rcases update_eq_some.mp hk with ⟨hki, -⟩ | ⟨-, hk⟩
      · rw [hji, hki]
      · exact hji.trans (h.alone i k _ _ _ _ _ hi hk)
    · rcases update_eq_some.mp hk with ⟨hki, heq⟩ | ⟨-, hk⟩
      · cases heq
        exact (h.alone j i _ _ _ _ _ hplace hi).trans hki.symm
      · exact h.alone j k _ _ _ _ _ hplace hk
  owned := by
    intro p hpos hp
    obtain ⟨j, pin', phase, hj⟩ := h.owned p hpos hp
    by_cases hji : j = i
    · subst hji
      rw [hi] at hj
      cases hj
      exact ⟨j, pin, .gone, Function.update_self ..⟩
    · exact ⟨j, pin', phase, by rwa [Function.update_of_ne hji]⟩
  login := by
    intro j pin' own' hj
    rcases update_eq_some.mp hj with ⟨-, hj⟩ | ⟨-, hj⟩
    · cases hj
    · exact h.login j pin' own' hj

/-- One step of one call, where `withSession` is refused. -/
theorem call (h : Serial s f) {r : Visit} {op : PoolOp} {a : PoolAnswer op} {s' : Token}
    (hi : f i = some r) (hr : visits.allows r op) (hp : s.performs op a s') :
    Serial s' (Function.update f i (some (visits.next r op a))) := by
  obtain ⟨pin, stage⟩ := r
  cases stage with
  | new =>
    cases hr
    obtain ⟨ha, rfl⟩ := hp
    have hnext : visits.next ⟨pin, .new⟩ .status a = ⟨pin, .admitted⟩ := by
      simp [visits, ha, Stage.next, h.provisions]
    rw [hnext]
    exact h.waits (.inr rfl) (by simp [hi])
  | signs => exact (h.admitted i _ hi rfl).elim
  | admitted =>
    cases hr
    obtain ⟨rfl, rfl⟩ := hp
    exact h.queues hi
  | ticket own phase =>
    obtain ⟨hpos, hmade, hfits⟩ := h.fits i _ _ _ hi
    cases phase with
    | queued previous =>
      cases hr
      obtain ⟨hreleased, rfl⟩ := hp
      obtain ⟨rfl, hnot⟩ := hfits
      exact h.proceeds rfl hi ⟨hreleased, hnot⟩ (.inl rfl) nofun
    | turn =>
      cases hr
      cases a with
      | ok session =>
        obtain ⟨-, rfl⟩ := hp
        refine h.proceeds ?_ hi hfits (.inr trivial) nofun
        rfl
      | error e =>
        obtain rfl : s' = s := hp
        exact h.proceeds rfl hi hfits (.inl rfl) nofun
    | failed => exact hr.elim
    | opened =>
      obtain ⟨session, rfl⟩ := hr
      obtain rfl : s' = a.applies s (s.withLogin (some pin)) := hp
      have hpool : (a.applies s (s.withLogin (some pin))).pool = s.pool := by cases a <;> rfl
      cases a with
      | done _ => exact h.proceeds hpool hi hfits (.inr trivial) fun _ => rfl
      | lost e => exact h.proceeds hpool hi hfits (.inr trivial) nofun
      | rejected e => exact h.proceeds hpool hi hfits (.inr trivial) nofun
    | inside =>
      obtain ⟨session, rfl⟩ := hr
      obtain rfl : s' = s := hp
      exact h.proceeds rfl hi hfits (.inl rfl) nofun
    | leaving =>
      rcases hr with ⟨session, rfl | rfl⟩ | rfl
      · obtain rfl : s' = a.applies s (s.withLogin none) := hp
        refine h.proceeds ?_ hi hfits (.inr trivial) nofun
        cases a <;> rfl
      · obtain rfl : s' = a.applies s (s.close session) := hp
        refine h.proceeds ?_ hi hfits (.inr trivial) nofun
        cases a <;> rfl
      · obtain rfl : s' = s.withPool (s.pool.releaseTurn own) := hp
        exact h.releases hi
    | gone => exact hr.elim

end Serial

/-- The promise that a call keeps when its turn ends. -/
def Stage.place : Stage → Option ℕ
  | .ticket own _ => some own
  | _ => none

namespace Stage

theorem place_next {stage : Stage} {own : ℕ} (h : stage.place = some own) (op : PoolOp)
    (a : PoolAnswer op) : (stage.next op a).place = some own := by
  cases stage with
  | ticket own' phase =>
    obtain rfl : own' = own := Option.some.inj h
    unfold next
    split <;> simp_all [place]
  | _ => cases h

theorem queue_of_place {stage : Stage} {own : ℕ} {op : PoolOp} {a : PoolAnswer op}
    (hstage : stage.place = none) (h : (stage.next op a).place = some own) :
    ∃ previous, (⟨op, a⟩ : Event PoolOp PoolAnswer) = ⟨.queue, (previous, own)⟩ := by
  unfold next at h
  split at h
  · split at h <;> cases h
  · rename_i turns
    obtain rfl := Option.some.inj h
    exact ⟨turns.1, rfl⟩
  all_goals simp_all [place]

theorem openSession_of_failed {stage : Stage} {own : ℕ} {op : PoolOp} {a : PoolAnswer op}
    (hstage : stage ≠ .ticket own .failed) (h : stage.next op a = .ticket own .failed) :
    ∃ e, (⟨op, a⟩ : Event PoolOp PoolAnswer) = ⟨.openSession, .error e⟩ := by
  unfold next at h
  split at h
  · split at h <;> cases h
  all_goals first | exact ⟨_, rfl⟩ | (exact (hstage h).elim) | cases h

end Stage

section Trace

variable {r : Visit} {own : ℕ}

theorem place_after (t : List (Event PoolOp PoolAnswer)) (h : r.stage.place = some own) :
    (visits.after r t).stage.place = some own := by
  induction t generalizing r with
  | nil => exact h
  | cons e t ih => exact ih (Stage.place_next h e.op e.answer)

theorem queued_of_place (t : List (Event PoolOp PoolAnswer)) (hr : r.stage.place = none)
    (h : (visits.after r t).stage.place = some own) :
    ∃ previous, ⟨.queue, (previous, own)⟩ ∈ t := by
  induction t generalizing r with
  | nil =>
    rw [Monitor.after_nil, hr] at h
    cases h
  | cons e t ih =>
    cases hnext : (visits.next r e.op e.answer).stage.place with
    | none =>
      obtain ⟨previous, hmem⟩ := ih hnext h
      exact ⟨previous, List.mem_cons_of_mem _ hmem⟩
    | some own' =>
      rw [Monitor.after_cons, place_after t hnext] at h
      cases h
      obtain ⟨previous, he⟩ := Stage.queue_of_place hr hnext
      exact ⟨previous, he ▸ List.mem_cons_self ..⟩

theorem openSession_of_failed_after (t : List (Event PoolOp PoolAnswer))
    (hr : r.stage ≠ .ticket own .failed) (h : (visits.after r t).stage = .ticket own .failed) :
    ∃ e, ⟨.openSession, .error e⟩ ∈ t := by
  induction t generalizing r with
  | nil => exact (hr h).elim
  | cons event t ih =>
    by_cases hnext : (visits.next r event.op event.answer).stage = .ticket own .failed
    · obtain ⟨e, he⟩ := Stage.openSession_of_failed hr hnext
      exact ⟨e, he ▸ List.mem_cons_self ..⟩
    · obtain ⟨e, he⟩ := ih hnext h
      exact ⟨e, List.mem_cons_of_mem _ he⟩

end Trace

section Run

variable [DecidableEq ι] {s : Token} {c : Sessions ι} {i : ι}

/-- Where each call stands with the queue. -/
def Sessions.visit (c : Sessions ι) : ι → Option Visit := c.records visits PoolJob.visit

theorem serial_reached (h : sessions.Reaches System.NoCrash (.initial s) c)
    (h₀ : Serial s fun _ : ι => none) : Serial c.shared c.visit := by
  refine System.Reaches.records_invariant (fun _ _ l => ∀ i, l ≠ .crash i)
    (fun s f => Serial s f) h execute_obeys_visits h₀ ?_
  intro s f l s' f' hinv hl hmove
  cases hmove with
  | start job hi =>
    obtain ⟨pin, hvisit⟩ : ∃ pin, job.visit = ⟨pin, .new⟩ := by cases job <;> exact ⟨_, rfl⟩
    rw [hvisit]
    exact hinv.waits (.inl rfl) (by simp [hi])
  | call hi hr hp => exact hinv.call hi hr hp
  | crash hi hr => exact (hl _ rfl).elim
  | background hb => exact hb.elim

theorem PoolJob.place_visit (job : PoolJob) : job.visit.stage.place = none := by
  cases job <;> rfl

/-- A call was allowed what it has been answered. -/
theorem allowed_of_answered (h : sessions.Reaches System.NoCrash (.initial s) c) {op : PoolOp}
    {a : PoolAnswer op} (hi : c.Answered i op a) :
    ∃ r t, visits.allows r op ∧ c.visit i = some (visits.after (visits.next r op a) t) ∧
      ∀ e t', t = e :: t' → visits.allows (visits.next r op a) e.op := by
  obtain ⟨p, hp, hmem⟩ := hi
  obtain ⟨t, t', htrace⟩ := List.mem_iff_append.mp hmem
  have hruns := h.process_runs hp
  have hobeys := execute_obeys_visits p.job
  refine ⟨visits.after p.job.visit t, t', ?_, ?_, ?_⟩
  · rw [htrace] at hruns
    exact hobeys.allowed hruns
  · rw [Sessions.visit, Config.records_eq hp, Process.record, htrace, Monitor.after_append,
      Monitor.after_cons]
  · rintro e t'' rfl
    rw [htrace, List.append_cons] at hruns
    have hallows := hobeys.allowed hruns
    rwa [Monitor.after_append] at hallows

theorem pin_after (r : Visit) (t : List (Event PoolOp PoolAnswer)) :
    (visits.after r t).pin = r.pin := by
  induction t generalizing r with
  | nil => rfl
  | cons e t ih => exact ih _

theorem signs_after (pin : String) (t : List (Event PoolOp PoolAnswer)) :
    visits.after ⟨pin, .signs⟩ t = ⟨pin, .signs⟩ := by
  induction t with
  | nil => rfl
  | cons e t ih => exact ih

theorem visit_of_queued (h : sessions.Reaches System.NoCrash (.initial s) c)
    (hinv : Serial c.shared c.visit) {previous own : ℕ}
    (hi : c.Answered i .queue (previous, own)) :
    ∃ pin phase, c.visit i = some ⟨pin, .ticket own phase⟩ := by
  obtain ⟨⟨pin, stage⟩, t, hallows, hvisit, -⟩ := allowed_of_answered h hi
  have hstage : stage = .admitted ∨ stage = .signs := by
    rcases stage with _ | _ | _ | ⟨_, _ | _⟩ <;> simp [visits, Stage.allows] at hallows ⊢
  rcases hstage with rfl | rfl
  · have hplace := place_after (r := visits.next ⟨pin, .admitted⟩ .queue (previous, own)) t rfl
    rcases hr : visits.after (visits.next ⟨pin, .admitted⟩ .queue (previous, own)) t
      with ⟨pin', _ | _ | _ | ⟨own', phase⟩⟩
    · simp [hr, Stage.place] at hplace
    · simp [hr, Stage.place] at hplace
    · simp [hr, Stage.place] at hplace
    · obtain rfl : own' = own := by simpa [hr, Stage.place] using hplace
      exact ⟨pin', phase, by rw [hvisit, hr]⟩
  · refine (hinv.admitted i _ hvisit ?_).elim
    exact congrArg Visit.stage (signs_after pin t)

/-- A call whose session does not open stays as it is. -/
theorem visit_of_openSession (h : sessions.Reaches System.NoCrash (.initial s) c)
    (hinv : Serial c.shared c.visit) {e : JsError} (hi : c.Answered i .openSession (.error e)) :
    ∃ pin own, c.visit i = some ⟨pin, .ticket own .failed⟩ := by
  obtain ⟨⟨pin, stage⟩, t, hallows, hvisit, hlast⟩ := allowed_of_answered h hi
  have hstage : (∃ own, stage = .ticket own .turn) ∨ stage = .signs := by
    rcases stage with _ | _ | _ | ⟨_, _ | _⟩ <;> simp [visits, Stage.allows] at hallows ⊢
  rcases hstage with ⟨own, rfl⟩ | rfl
  · cases t with
    | nil => exact ⟨pin, own, hvisit⟩
    | cons e' t' => exact (hlast e' t' rfl).elim
  · refine (hinv.admitted i _ hvisit ?_).elim
    exact congrArg Visit.stage (signs_after pin t)

omit [DecidableEq ι] in
/-- What the monitor knows of a place in the queue has been answered. -/
theorem queued_of_visit {pin : String} {own : ℕ} {phase : Phase}
    (hi : c.visit i = some ⟨pin, .ticket own phase⟩) :
    ∃ previous, c.Answered i .queue (previous, own) := by
  obtain ⟨p, hp, hrecord⟩ := Option.map_eq_some_iff.mp hi
  have hplace : (visits.after p.job.visit p.trace).stage.place = some own := by
    rw [show visits.after p.job.visit p.trace = _ from hrecord]
    rfl
  obtain ⟨previous, hmem⟩ := queued_of_place p.trace p.job.place_visit hplace
  exact ⟨previous, p, hp, hmem⟩

omit [DecidableEq ι] in
theorem openSession_of_visit {pin : String} {own : ℕ}
    (hi : c.visit i = some ⟨pin, .ticket own .failed⟩) :
    ∃ e, c.Answered i .openSession (.error e) := by
  obtain ⟨p, hp, hrecord⟩ := Option.map_eq_some_iff.mp hi
  have hstage : p.job.visit.stage ≠ .ticket own .failed := by
    intro heq
    have hplace := p.job.place_visit
    rw [heq] at hplace
    cases hplace
  obtain ⟨e, hmem⟩ := openSession_of_failed_after p.trace hstage (congrArg Visit.stage hrecord)
  exact ⟨e, p, hp, hmem⟩

/-- A call has settled where the monitor lets it. -/
theorem settled_visit (h : sessions.Reaches System.NoCrash (.initial s) c) {pin : String}
    {stage : Stage} (hi : c.visit i = some ⟨pin, stage⟩) (hsettled : c.Settled i) :
    stage.Settled := by
  obtain ⟨⟨job, t, p⟩, hp, hdone⟩ := hsettled
  cases p with
  | call op resume => cases hdone
  | done r =>
    have hstage := h.settled execute_obeys_visits hp
    rw [Sessions.visit, Config.records_eq hp, Option.some.injEq] at hi
    rwa [show visits.after job.visit t = _ from hi] at hstage

theorem settled_of_failed (h : sessions.Reaches System.NoCrash (.initial s) c) {pin : String}
    {own : ℕ} (hi : c.visit i = some ⟨pin, .ticket own .failed⟩) : c.Settled i := by
  obtain ⟨⟨job, t, p⟩, hp, hrecord⟩ := Option.map_eq_some_iff.mp hi
  refine ⟨_, hp, ?_⟩
  cases p with
  | done r => rfl
  | call op resume =>
    have hallows := h.allows execute_obeys_visits hp
    rw [hrecord] at hallows
    exact hallows.elim

/-- A turn that a call has not ended when its session did not open never ends. -/
theorem blocked_of_failed (h : sessions.Reaches System.NoCrash (.initial s) c)
    (h₀ : Serial s fun _ : ι => none) {pin : String} {own : ℕ}
    (hi : c.visit i = some ⟨pin, .ticket own .failed⟩) {c' : Sessions ι}
    (hc : sessions.Reaches System.NoCrash c c') : own ∉ c'.shared.pool.released := by
  obtain ⟨⟨job, t, p⟩, hp, hdone⟩ := settled_of_failed h hi
  obtain ⟨r, hr⟩ := Option.isSome_iff_exists.mp hdone
  cases p with
  | call op resume => cases hr
  | done r' =>
    have hstays := hc.settled_stays hp
    have hvisit : c'.visit i = c.visit i := by
      rw [Sessions.visit, Sessions.visit, Config.records_eq hp, Config.records_eq hstays]
    have hinv := serial_reached (h.trans hc) h₀
    exact (hinv.fits i pin own .failed (hvisit.trans hi)).2.2.2

theorem visit_of_awaits (h : sessions.Reaches System.NoCrash (.initial s) c) {op : PoolOp}
    (hi : c.awaits i = some op) : ∃ r, c.visit i = some r ∧ visits.allows r op := by
  obtain ⟨job, t, resume, hp⟩ := Sessions.awaits_eq_some hi
  exact ⟨_, Config.records_eq hp, h.allows execute_obeys_visits hp⟩

omit [DecidableEq ι] in
theorem serial_of_start {settings : Settings} {device : SessionPool.Device}
    (hstart : SessionPool.start settings device none .new = (.ok (), s.pool)) :
    Serial s fun _ : ι => none := by
  have hpool : s.pool.hasStandingLogin = false ∧ s.pool.released = [0] ∧ s.pool.tenantLogin = 0 := by
    cases hload : device.load with
    | error e => simp [SessionPool.start, SessionPool.new, hload] at hstart
    | ok _ =>
      cases hslot : SessionPool.findSlot settings device.tokens with
      | error e => simp [SessionPool.start, SessionPool.new, hload, hslot] at hstart
      | ok slot =>
        simp only [SessionPool.start, SessionPool.new, Bool.false_eq_true, if_false, hload, hslot,
          Prod.mk.injEq, true_and] at hstart
        rw [← hstart]
        exact ⟨rfl, rfl, rfl⟩
  obtain ⟨hstanding, hreleased, hlogin⟩ := hpool
  refine ⟨hstanding, by simp, by simp [hreleased], by simp [hreleased],
    by simp [hreleased, hlogin], by simp, by simp, ?_, by simp⟩
  intro p hpos hp
  omega

/-- Calls of the device that a tenant makes in its turn. -/
def PoolOp.UsesDevice : PoolOp → Prop
  | .openSession | .login _ _ | .work _ | .logout _ | .closeSession _ => True
  | _ => False

/-- A call that uses the device has its turn. -/
theorem active_of_usesDevice (h : sessions.Reaches System.NoCrash (.initial s) c)
    (hinv : Serial c.shared c.visit) {op : PoolOp} (hi : c.awaits i = some op)
    (hop : op.UsesDevice) :
    ∃ pin own phase, c.visit i = some ⟨pin, .ticket own phase⟩ ∧ phase.IsActive := by
  obtain ⟨⟨pin, stage⟩, hvisit, hallows⟩ := visit_of_awaits h hi
  rcases stage with _ | _ | _ | ⟨own, phase⟩
  · cases hallows
    exact hop.elim
  · exact (hinv.admitted i _ hvisit rfl).elim
  · cases hallows
    exact hop.elim
  · refine ⟨pin, own, phase, hvisit, ?_⟩
    cases phase with
    | queued previous =>
      cases hallows
      exact hop.elim
    | gone => exact hallows.elim
    | _ => trivial

theorem login_of_working (h : sessions.Reaches System.NoCrash (.initial s) c)
    (hinv : Serial c.shared c.visit) {credential : Credential} {t : List (Event PoolOp PoolAnswer)}
    {session : ℕ} {resume : PoolAnswer (.work session) → PoolProgram Unit}
    (hi : c.process i = some ⟨.withTenantLogin credential, t, .call (.work session) resume⟩) :
    c.shared.login = some (pin credential.username credential.password) := by
  have hvisit : c.visit i = some (visits.after (PoolJob.withTenantLogin credential).visit t) := by
    rw [Sessions.visit, Config.records_eq hi, Process.record]
  have hpin := pin_after (PoolJob.withTenantLogin credential).visit t
  rw [← hinv.login_of_work hvisit (h.allows execute_obeys_visits hi), hpin,
    PoolJob.visit_withTenantLogin]

/-- Without a session that does not open, a call ends its turn before it settles. -/
theorem released_of_settled (h : sessions.Reaches System.NoCrash (.initial s) c)
    (hinv : Serial c.shared c.visit) (hopened : ∀ i e, ¬ c.Answered i .openSession (.error e))
    {previous own : ℕ} (hi : c.Answered i .queue (previous, own)) (hsettled : c.Settled i) :
    own ∈ c.shared.pool.released := by
  obtain ⟨pin, phase, hvisit⟩ := visit_of_queued h hinv hi
  rcases settled_visit h hvisit hsettled with rfl | rfl
  · obtain ⟨e, he⟩ := openSession_of_visit hvisit
    exact (hopened i e he).elim
  · exact (hinv.fits i pin own .gone hvisit).2.2

/-- A call whose predecessors have all ended their turns has its own. -/
theorem turn_of_settled (h : sessions.Reaches System.NoCrash (.initial s) c)
    (hinv : Serial c.shared c.visit) {previous : ℕ} (hi : c.awaits i = some (.turn previous))
    (hreleased : ∀ j previous' own, c.Answered j .queue (previous', own) → own ≤ previous →
      own ∈ c.shared.pool.released) : previous ∈ c.shared.pool.released := by
  rcases Nat.eq_zero_or_pos previous with rfl | hpos
  · exact hinv.zero
  · obtain ⟨r, hvisit, hallows⟩ := visit_of_awaits h hi
    have hmade := hinv.made_of_turn hvisit hallows
    obtain ⟨j, pin, phase, hj⟩ := hinv.owned previous hpos hmade
    obtain ⟨previous', hqueued⟩ := queued_of_visit hj
    exact hreleased j previous' previous hqueued le_rfl

/-- In every run of a pool that has started without a credential, one tenant at a time uses the
device, and the work of each runs under its own login. Every call that has settled has ended its
turn, and every call whose predecessors have settled gets its turn, if and only if no call has
failed to open its session. -/
theorem tenant_logins_serialised {settings : Settings} {device : SessionPool.Device}
    (hstart : SessionPool.start settings device none .new = (.ok (), s.pool))
    (h : sessions.Reaches System.NoCrash (.initial s) c) :
    (∀ i j op op', c.awaits i = some op → c.awaits j = some op' → op.UsesDevice → op'.UsesDevice →
      i = j) ∧
    (∀ i credential t session resume, c.process i =
        some ⟨.withTenantLogin credential, t, .call (.work session) resume⟩ →
      c.shared.login = some (pin credential.username credential.password)) ∧
    (((∀ i previous own, c.Answered i .queue (previous, own) → c.Settled i →
        own ∈ c.shared.pool.released) ∧
      ∀ i previous, c.awaits i = some (.turn previous) →
        (∀ j previous' own, c.Answered j .queue (previous', own) → own ≤ previous → c.Settled j) →
        previous ∈ c.shared.pool.released) ↔
      ∀ i e, ¬ c.Answered i .openSession (.error e)) := by
  have hinv := serial_reached h (serial_of_start hstart)
  refine ⟨?_, fun i _ _ _ _ hi => login_of_working h hinv hi, ?_, ?_⟩
  · intro i j op op' hi hj hop hop'
    obtain ⟨_, _, _, hvisit, hactive⟩ := active_of_usesDevice h hinv hi hop
    obtain ⟨_, _, _, hvisit', hactive'⟩ := active_of_usesDevice h hinv hj hop'
    exact hinv.active_unique hvisit hvisit' hactive hactive'
  · rintro ⟨hreleased, -⟩ i e hi
    obtain ⟨pin, own, hvisit⟩ := visit_of_openSession h hinv hi
    obtain ⟨previous, hqueued⟩ := queued_of_visit hvisit
    exact (hinv.fits i pin own .failed hvisit).2.2.2
      (hreleased i previous own hqueued (settled_of_failed h hvisit))
  · intro hopened
    refine ⟨fun i _ _ hi hsettled => released_of_settled h hinv hopened hi hsettled, ?_⟩
    intro i previous hi hsettled
    refine turn_of_settled h hinv hi fun j previous' own hj hown => ?_
    exact released_of_settled h hinv hopened hj (hsettled j previous' own hj hown)

end Run

section Sample

def sampleProvisioner : Token where
  pool := (SessionPool.start sampleSettings sampleDevice none .new).2
  login := none
  sessions := []

theorem sampleProvisioner_started :
    SessionPool.start sampleSettings sampleDevice none .new = (.ok (), sampleProvisioner.pool) := rfl

/-- The work of the first tenant is about to run, and the second one waits for its turn. -/
def sampleQueued : Sessions Bool :=
  (Sessions.begin ((Sessions.begin (Config.initial sampleProvisioner) false
    (.withTenantLogin ⟨"a", "1"⟩)).advance (Token.respond true) false 5) true
    (.withTenantLogin ⟨"b", "2"⟩)).advance (Token.respond true) true 2

theorem sampleQueued_reached :
    sessions.Reaches System.NoCrash (Config.initial sampleProvisioner) sampleQueued := by
  have hstart : sessions.Reaches System.NoCrash (.initial sampleProvisioner)
      (.initial sampleProvisioner : Sessions Bool) := .refl
  have hfirst := Sessions.reaches_begin (i := false) hstart (.withTenantLogin ⟨"a", "1"⟩) rfl
  have hworks := Sessions.reaches_advance hfirst true false 5 (by rintro _ ⟨⟩; decide)
  have hsecond := Sessions.reaches_begin (i := true) hworks (.withTenantLogin ⟨"b", "2"⟩) rfl
  exact Sessions.reaches_advance hsecond true true 2 (by rintro _ ⟨⟩; decide)

theorem tenant_logins_serialised_sample : sampleQueued.shared.login = some "a:1" ∧
    sampleQueued.awaits true = some (.turn 1) ∧
    (∀ i j op op', sampleQueued.awaits i = some op → sampleQueued.awaits j = some op' →
      op.UsesDevice → op'.UsesDevice → i = j) ∧
    (∀ i credential t session resume, sampleQueued.process i =
        some ⟨.withTenantLogin credential, t, .call (.work session) resume⟩ →
      sampleQueued.shared.login = some (pin credential.username credential.password)) ∧
    (((∀ i previous own, sampleQueued.Answered i .queue (previous, own) → sampleQueued.Settled i →
        own ∈ sampleQueued.shared.pool.released) ∧
      ∀ i previous, sampleQueued.awaits i = some (.turn previous) →
        (∀ j previous' own, sampleQueued.Answered j .queue (previous', own) → own ≤ previous →
          sampleQueued.Settled j) →
        previous ∈ sampleQueued.shared.pool.released) ↔
      ∀ i e, ¬ sampleQueued.Answered i .openSession (.error e)) :=
  ⟨by decide +kernel, by decide +kernel,
    tenant_logins_serialised sampleProvisioner_started sampleQueued_reached⟩

/-- The session of the first tenant does not open, and the second one waits for its turn. -/
def sampleJammed : Sessions Bool :=
  (Sessions.begin ((Sessions.begin (Config.initial sampleProvisioner) false
    (.withTenantLogin ⟨"a", "1"⟩)).advance (Token.respond false) false 4) true
    (.withTenantLogin ⟨"b", "2"⟩)).advance (Token.respond true) true 2

theorem sampleJammed_reached :
    sessions.Reaches System.NoCrash (Config.initial sampleProvisioner) sampleJammed := by
  have hstart : sessions.Reaches System.NoCrash (.initial sampleProvisioner)
      (.initial sampleProvisioner : Sessions Bool) := .refl
  have hfirst := Sessions.reaches_begin (i := false) hstart (.withTenantLogin ⟨"a", "1"⟩) rfl
  have hfailed := Sessions.reaches_advance hfirst false false 4 (by rintro _ ⟨⟩; decide)
  have hsecond := Sessions.reaches_begin (i := true) hfailed (.withTenantLogin ⟨"b", "2"⟩) rfl
  exact Sessions.reaches_advance hsecond true true 2 (by rintro _ ⟨⟩; decide)

/-- The first call has settled, and the turn that the second one waits for never comes. -/
theorem not_tenant_logins_serialised :
    (sampleJammed.process false).bind (fun p => p.program.result) =
      some (.error (SessionPool.error "CKR_SESSION_COUNT")) ∧
    sampleJammed.awaits true = some (.turn 1) ∧
    ∀ c : Sessions Bool, sessions.Reaches System.NoCrash sampleJammed c →
      1 ∉ c.shared.pool.released := by
  refine ⟨by decide +kernel, by decide +kernel, fun c hc => ?_⟩
  have hvisit : sampleJammed.visit false = some ⟨"a:1", .ticket 1 .failed⟩ := by decide +kernel
  exact blocked_of_failed sampleJammed_reached (serial_of_start sampleProvisioner_started) hvisit hc

end Sample

end Pkcs11
