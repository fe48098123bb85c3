import Pivotal.Async.Pool

/-! The lock of the scheduled jobs: a key of Redis with a lease, drawn and given back by any
number of replicas. -/
namespace Audit
open Async

namespace RollupLock

/-- What a tick awaits; `ω` is what the job itself awaits. -/
inductive LockOp (ω : Type) where
  | randomUUID
  | set (token : String) (ttlMs : ℕ)
  | sleep (ms : ℕ)
  | eval (token : String)
  | work (w : ω)

/-- `set` answers whether it won, unless it throws. -/
@[reducible] def LockAnswer {ω : Type} (β : ω → Type) : LockOp ω → Type
  | .randomUUID => String
  | .set _ _ => Except Unit Bool
  | .sleep _ => Unit
  | .eval _ => Except Unit Unit
  | .work w => β w

variable {ω : Type} {β : ω → Type} {ε : Type}

abbrev LockProgram (β : ω → Type) (ε : Type) := Program (LockOp ω) (LockAnswer β) ε

def randomUUID : LockProgram β ε String := Program.perform LockOp.randomUUID

def set (token : String) (ttlMs : ℕ) : LockProgram β ε (Except Unit Bool) :=
  Program.perform (LockOp.set token ttlMs)

def sleep (ms : ℕ) : LockProgram β ε Unit := Program.perform (LockOp.sleep ms)

section

variable (backoffMs ttlMs : ℕ)

/-- The attempts from `attempt` on, of which `n` are left. -/
def acquireFrom (attempt : ℕ) : ℕ → LockProgram β ε (Option String)
  | 0 => pure none
  | n + 1 => do
    let token ← randomUUID
    let result ← set token ttlMs
    match result with
    | .ok won => pure (if won then some token else none)
    | .error _ =>
      if n = 0 then pure none
      else sleep (backoffMs * attempt) >>= fun _ => acquireFrom (attempt + 1) n

def acquire (maxAttempts : ℕ) : LockProgram β ε (Option String) :=
  acquireFrom backoffMs ttlMs 1 maxAttempts

end

/-- An error is swallowed. -/
def release (token : String) : LockProgram β ε Unit :=
  Program.perform (LockOp.eval token) >>= fun _ => pure ()

/-- A job that replicas run one at a time. -/
structure Job (β : ω → Type) (ε : Type) where
  maxAttempts : ℕ
  backoffMs : ℕ
  ttlMs : ℕ
  sync : Program ω β ε Unit

/-- The `tick` of a scheduler. -/
def tick (job : Job β ε) : LockProgram β ε Unit := do
  let token ← acquire job.backoffMs job.ttlMs job.maxAttempts
  match token with
  | none => pure ()
  | some token =>
    (tryCatch (job.sync.embed LockOp.work fun _ a => a) fun _ => pure ()).tryFinally (release token)

/-- The key, with the leases that were given on it. -/
structure Redis where
  now : ℕ
  entry : Option (String × ℕ)
  issued : List String
  granted : List (String × ℕ)

namespace Redis

def initial : Redis := ⟨0, none, [], []⟩

/-- The value of the key, as long as it has not expired. -/
def get (s : Redis) : Option String :=
  s.entry.bind fun (token, expiresAt) => if s.now < expiresAt then some token else none

/-- `SET … NX PX` -/
def set (s : Redis) (token : String) (ttlMs : ℕ) : Redis :=
  if s.get = none then
    { s with entry := some (token, s.now + ttlMs), granted := (token, s.now + ttlMs) :: s.granted }
  else s

/-- The script of `release`. -/
def release (s : Redis) (token : String) : Redis :=
  if s.get = some token then { s with entry := none } else s

def issue (s : Redis) (token : String) : Redis := { s with issued := token :: s.issued }

end Redis

/-- What Redis answers. A call that throws may have taken effect. -/
inductive Performs : Redis → (op : LockOp ω) → LockAnswer β op → Redis → Prop
  | randomUUID {s : Redis} {a : String} : a ∉ s.issued →
      Performs s .randomUUID a (s.issue a)
  | set (s : Redis) (token : String) (ttlMs : ℕ) :
      Performs s (.set token ttlMs) (.ok (s.get = none)) (s.set token ttlMs)
  | setLost (s : Redis) (token : String) (ttlMs : ℕ) :
      Performs s (.set token ttlMs) (.error ()) (s.set token ttlMs)
  | setRejected (s : Redis) (token : String) (ttlMs : ℕ) :
      Performs s (.set token ttlMs) (.error ()) s
  | sleep (s : Redis) (ms : ℕ) : Performs s (.sleep ms) () s
  | eval (s : Redis) (token : String) : Performs s (.eval token) (.ok ()) (s.release token)
  | evalLost (s : Redis) (token : String) : Performs s (.eval token) (.error ()) (s.release token)
  | evalRejected (s : Redis) (token : String) : Performs s (.eval token) (.error ()) s
  | work (s : Redis) (w : ω) (a : β w) : Performs s (.work w) a s

variable (β ε) in
/-- Any number of ticks of replicas that share a key; time passes meanwhile. -/
def system : System (LockOp ω) (LockAnswer β) ε Unit (Job β ε) Redis where
  entry := tick
  perform := Performs
  background s s' := ∃ now, s.now ≤ now ∧ s' = { s with now := now }

/-- How far a tick is with its token. -/
inductive Stage where
  | idle
  | drawn (token : String)
  | held (token : String)
  | released
  deriving DecidableEq

def Stage.ofAcquired : Option String → Stage
  | some token => held token
  | none => idle

def Stage.token : Stage → Option String
  | drawn token => some token
  | held token => some token
  | _ => none

/-- A tick works, and gives back, what it has been told it holds. -/
def monitor : Monitor (LockOp ω) (LockAnswer β) Stage where
  next stage op a := match op, a with
    | .randomUUID, token => .drawn token
    | .set token _, result => if result = .ok true then .held token else .idle
    | .sleep _, _ => stage
    | .eval _, _ => .released
    | .work _, _ => stage
  allows stage op := match op with
    | .randomUUID => stage = .idle
    | .set token _ => stage = .drawn token
    | .sleep _ => stage = .idle
    | .eval token => stage = .held token
    | .work _ => ∃ token, stage = .held token

theorem obeys_acquireFrom (backoffMs ttlMs attempt n : ℕ) :
    (acquireFrom (β := β) (ε := ε) backoffMs ttlMs attempt n).Obeys monitor .idle
      fun stage r => ∃ token, r = .ok token ∧ stage = .ofAcquired token := by
  induction n generalizing attempt with
  | zero => exact ⟨none, rfl, rfl⟩
  | succ n ih =>
    refine ⟨rfl, fun token => ⟨rfl, fun result => ?_⟩⟩
    cases result with
    | ok won =>
      cases won with
      | true => exact ⟨some token, rfl, rfl⟩
      | false => exact ⟨none, rfl, rfl⟩
    | error e =>
      by_cases hn : n = 0
      · subst hn
        exact ⟨none, rfl, rfl⟩
      · show Program.Obeys monitor (if n = 0 then pure none
          else sleep (backoffMs * attempt) >>= fun _ =>
            acquireFrom backoffMs ttlMs (attempt + 1) n : LockProgram β ε (Option String)) .idle _
        rw [if_neg hn]
        exact ⟨rfl, fun _ => ih (attempt + 1)⟩

theorem obeys_sync (job : Job β ε) (token : String) :
    (tryCatch (job.sync.embed LockOp.work fun _ a => a) fun _ => pure () :
      LockProgram β ε Unit).Obeys monitor (.held token) fun stage _ => stage = .held token := by
  have hwithin : (job.sync.embed LockOp.work fun _ a => a :
      LockProgram β ε Unit).Within fun op => ∃ w, op = LockOp.work w :=
    Program.Within.embed (Program.within_of_forall (fun w => ⟨w, rfl⟩) job.sync)
  have hcaught := hwithin.tryCatch (f := fun _ => pure ()) fun _ => Program.within_pure ()
  refine hcaught.keeps (R := fun stage => stage = Stage.held token) ?_ _ rfl
  rintro stage op rfl ⟨w, rfl⟩
  exact ⟨⟨token, rfl⟩, fun _ => rfl⟩

theorem obeys_tick (job : Job β ε) : (tick job).Obeys monitor .idle fun _ _ => True := by
  rw [tick, Program.obeys_bind]
  refine (obeys_acquireFrom job.backoffMs job.ttlMs 1 job.maxAttempts).mono ?_
  rintro stage r ⟨token, rfl, rfl⟩
  cases token with
  | none => trivial
  | some token =>
    show Program.Obeys monitor (Program.tryFinally _ (release token)) (.held token) _
    rw [Program.obeys_tryFinally]
    refine (obeys_sync job token).mono ?_
    rintro stage r rfl
    exact ⟨rfl, fun _ => trivial⟩

variable {ι : Type}

/-- Tokens are never shared, and a token that is held is the value of the key until its lease
ends. -/
structure Leases (s : Redis) (f : ι → Option Stage) : Prop where
  issued : ∀ i r token, f i = some r → r.token = some token → token ∈ s.issued
  own : ∀ i j r r' token, f i = some r → f j = some r' → r.token = some token →
    r'.token = some token → i = j
  entry : ∀ g, s.entry = some g → g ∈ s.granted
  known : ∀ g ∈ s.granted, g.1 ∈ s.issued
  once : (s.granted.map Prod.fst).Nodup
  undrawn : ∀ i token, f i = some (.drawn token) → ∀ g ∈ s.granted, g.1 ≠ token
  held : ∀ i token, f i = some (.held token) → ∃ expiresAt, (token, expiresAt) ∈ s.granted ∧
    (s.entry = some (token, expiresAt) ∨ expiresAt ≤ s.now)

theorem leases_initial : Leases Redis.initial fun _ : ι => none := by
  constructor <;> simp [Redis.initial]

variable [DecidableEq ι] {s : Redis} {f : ι → Option Stage} {i : ι}

theorem Leases.forget (h : Leases s f) {x : Option Stage} (hx : ∀ r, x = some r → r.token = none) :
    Leases s (Function.update f i x) where
  issued j r token hj hr := by
    rcases update_eq_some.mp hj with ⟨-, hxr⟩ | ⟨-, hf⟩
    · rw [hx r hxr] at hr
      cases hr
    · exact h.issued j r token hf hr
  own j k r r' token hj hk hr hr' := by
    rcases update_eq_some.mp hj with ⟨-, hxr⟩ | ⟨-, hf⟩
    · rw [hx r hxr] at hr
      cases hr
    · rcases update_eq_some.mp hk with ⟨-, hxr⟩ | ⟨-, hf'⟩
      · rw [hx r' hxr] at hr'
        cases hr'
      · exact h.own j k r r' token hf hf' hr hr'
  entry := h.entry
  known := h.known
  once := h.once
  undrawn j token hj := by
    rcases update_eq_some.mp hj with ⟨-, hxr⟩ | ⟨-, hf⟩
    · cases hx _ hxr
    · exact h.undrawn j token hf
  held j token hj := by
    rcases update_eq_some.mp hj with ⟨-, hxr⟩ | ⟨-, hf⟩
    · cases hx _ hxr
    · exact h.held j token hf

/-- A replica that takes another stage with the token it has. -/
theorem Leases.own_update (h : Leases s f) {r r' : Stage} {token : String} (hi : f i = some r)
    (hr : r.token = some token) (hr' : ∀ t, r'.token = some t → t = token) (j k : ι)
    (q q' : Stage) (t : String) (hj : Function.update f i (some r') j = some q)
    (hk : Function.update f i (some r') k = some q') (hq : q.token = some t)
    (hq' : q'.token = some t) : j = k := by
  rcases update_eq_some.mp hj with ⟨rfl, hqr⟩ | ⟨hne, hf⟩
  · rcases update_eq_some.mp hk with ⟨rfl, -⟩ | ⟨hne', hf'⟩
    · rfl
    · cases hqr
      exact h.own j k r q' token hi hf' hr (hr' t hq ▸ hq')
  · rcases update_eq_some.mp hk with ⟨rfl, hqr⟩ | ⟨-, hf'⟩
    · cases hqr
      exact (h.own k j r q token hi hf hr (hr' t hq' ▸ hq)).symm
    · exact h.own j k q q' t hf hf' hq hq'

theorem Leases.randomUUID (h : Leases s f) {token : String} (hnew : token ∉ s.issued) :
    Leases (s.issue token) (Function.update f i (some (.drawn token))) where
  issued j r t hj hr := by
    rcases update_eq_some.mp hj with ⟨-, hxr⟩ | ⟨-, hf⟩
    · cases hxr
      cases hr
      exact List.mem_cons_self
    · exact List.mem_cons_of_mem token (h.issued j r t hf hr)
  own j k r r' t hj hk hr hr' := by
    rcases update_eq_some.mp hj with ⟨rfl, hxr⟩ | ⟨-, hf⟩
    · rcases update_eq_some.mp hk with ⟨rfl, -⟩ | ⟨-, hf'⟩
      · rfl
      · cases hxr
        cases hr
        exact absurd (h.issued k r' token hf' hr') hnew
    · rcases update_eq_some.mp hk with ⟨rfl, hxr⟩ | ⟨-, hf'⟩
      · cases hxr
        cases hr'
        exact absurd (h.issued j r token hf hr) hnew
      · exact h.own j k r r' t hf hf' hr hr'
  entry := h.entry
  known g hg := List.mem_cons_of_mem token (h.known g hg)
  once := h.once
  undrawn j t hj g hg := by
    rcases update_eq_some.mp hj with ⟨-, hxr⟩ | ⟨-, hf⟩
    · cases hxr
      exact fun heq => hnew (heq ▸ h.known g hg)
    · exact h.undrawn j t hf g hg
  held j t hj := by
    rcases update_eq_some.mp hj with ⟨-, hxr⟩ | ⟨-, hf⟩
    · cases hxr
    · exact h.held j t hf

theorem get_of_entry {token : String} {expiresAt : ℕ} (h : s.entry = some (token, expiresAt)) :
    s.get = if s.now < expiresAt then some token else none := by
  simp [Redis.get, h]

/-- A `SET` that takes effect, whether or not its caller learns of it. -/
theorem Leases.set (h : Leases s f) {token : String} (ttlMs : ℕ) (hi : f i = some (.drawn token))
    {r : Stage} (hr : r = .idle ∨ r = .held token ∧ s.get = none) :
    Leases (s.set token ttlMs) (Function.update f i (some r)) := by
  unfold Redis.set
  split
  · rename_i hfree
    have htoken : ∀ t, r.token = some t → t = token := by
      intro t ht
      rcases hr with rfl | ⟨rfl, -⟩
      · cases ht
      · exact (Option.some.inj ht).symm
    have hundrawn : ∀ g ∈ s.granted, g.1 ≠ token := h.undrawn i token hi
    refine ⟨?_, h.own_update hi rfl htoken, ?_, ?_, ?_, ?_, ?_⟩
    · intro j q t hj hq
      rcases update_eq_some.mp hj with ⟨-, hqr⟩ | ⟨-, hf⟩
      · cases hqr
        rw [htoken t hq]
        exact h.issued i _ token hi rfl
      · exact h.issued j q t hf hq
    · rintro g ⟨⟩
      exact List.mem_cons_self
    · intro g hg
      rcases List.mem_cons.mp hg with rfl | hg
      · exact h.issued i _ token hi rfl
      · exact h.known g hg
    · rw [List.map_cons, List.nodup_cons]
      refine ⟨?_, h.once⟩
      intro hmem
      obtain ⟨g, hg, heq⟩ := List.mem_map.mp hmem
      exact hundrawn g hg heq
    · intro j t hj g hg
      rcases update_eq_some.mp hj with ⟨-, hqr⟩ | ⟨hne, hf⟩
      · rcases hr with rfl | ⟨rfl, -⟩
        · cases hqr
        · cases hqr
      · rcases List.mem_cons.mp hg with rfl | hg
        · rintro rfl
          exact hne (h.own j i _ _ token hf hi rfl rfl)
        · exact h.undrawn j t hf g hg
    · intro j t hj
      rcases update_eq_some.mp hj with ⟨-, hqr⟩ | ⟨-, hf⟩
      · have ht : t = token := htoken t (Option.some.inj hqr ▸ rfl)
        exact ⟨s.now + ttlMs, ht ▸ List.mem_cons_self, .inl (ht ▸ rfl)⟩
      · obtain ⟨expiresAt, hgranted, hentry | hexpired⟩ := h.held j t hf
        · refine ⟨expiresAt, List.mem_cons_of_mem _ hgranted, .inr ?_⟩
          rw [get_of_entry hentry] at hfree
          by_contra hlive
          simp [Nat.not_le.mp hlive] at hfree
        · exact ⟨expiresAt, List.mem_cons_of_mem _ hgranted, .inr hexpired⟩
  · rename_i htaken
    rcases hr with rfl | ⟨-, hfree⟩
    · exact h.forget (by rintro r ⟨⟩; rfl)
    · exact absurd hfree htaken

theorem Leases.release (h : Leases s f) {token : String} (hi : f i = some (.held token)) :
    Leases (s.release token) (Function.update f i (some .released)) := by
  have hforget : Leases s (Function.update f i (some .released)) :=
    h.forget (by rintro r ⟨⟩; rfl)
  unfold Redis.release
  split
  · rename_i hget
    refine { hforget with entry := by simp, held := ?_ }
    intro j t hj
    obtain ⟨expiresAt, hgranted, hentry | hexpired⟩ := hforget.held j t hj
    · rw [get_of_entry hentry] at hget
      split at hget
      · obtain rfl : t = token := Option.some.inj hget
        obtain ⟨hne, hf⟩ : j ≠ i ∧ f j = some (.held t) := by
          rcases update_eq_some.mp hj with ⟨-, hxr⟩ | hf
          · cases hxr
          · exact hf
        exact absurd (h.own j i _ _ t hf hi rfl rfl) hne
      · cases hget
    · exact ⟨expiresAt, hgranted, .inr hexpired⟩
  · exact hforget

omit [DecidableEq ι] in
theorem Leases.wait (h : Leases s f) {now : ℕ} (hnow : s.now ≤ now) :
    Leases { s with now := now } f where
  issued := h.issued
  own := h.own
  entry := h.entry
  known := h.known
  once := h.once
  undrawn := h.undrawn
  held j token hj := by
    obtain ⟨expiresAt, hgranted, hentry | hexpired⟩ := h.held j token hj
    · exact ⟨expiresAt, hgranted, .inl hentry⟩
    · exact ⟨expiresAt, hgranted, .inr (Nat.le_trans hexpired hnow)⟩

theorem Leases.move {s' : Redis} {f' : ι → Option Stage}
    {l : Label ι (LockOp ω) (LockAnswer β) (Job β ε)} (h : Leases s f)
    (hm : (system β ε).Move monitor (fun _ => .idle) s f l s' f') : Leases s' f' := by
  cases hm with
  | start job hi => exact h.forget (by rintro r ⟨⟩; rfl)
  | @call _ _ i r op a hi hallows hperforms =>
    cases hperforms with
    | randomUUID hnew => exact h.randomUUID hnew
    | set token ttlMs =>
      obtain rfl : r = .drawn token := hallows
      refine h.set ttlMs hi ?_
      by_cases hfree : s.get = none
      · exact .inr ⟨if_pos (by simp [hfree]), hfree⟩
      · exact .inl (if_neg (by simp [hfree]))
    | setLost token ttlMs =>
      obtain rfl : r = .drawn token := hallows
      exact h.set ttlMs hi (.inl rfl)
    | setRejected token ttlMs => exact h.forget (by rintro q ⟨⟩; rfl)
    | sleep ms =>
      obtain rfl : r = .idle := hallows
      exact h.forget (by rintro q ⟨⟩; rfl)
    | eval token =>
      obtain rfl : r = .held token := hallows
      exact h.release hi
    | evalLost token =>
      obtain rfl : r = .held token := hallows
      exact h.release hi
    | evalRejected token => exact h.forget (by rintro q ⟨⟩; rfl)
    | work w a =>
      rwa [show Function.update f i (some (monitor.next r (.work w) a)) = f from
        Function.update_eq_self_iff.mpr hi.symm]
  | crash hi _ => exact h.forget (by rintro r ⟨⟩)
  | background hb =>
    obtain ⟨now, hnow, rfl⟩ := hb
    exact h.wait hnow

/-- A replica that is inside its job, with the token it was given. -/
def AtWork (c : Config ι (LockOp ω) (LockAnswer β) ε Unit (Job β ε) Redis) (i : ι)
    (token : String) : Prop :=
  ∃ job t w resume, c.process i = some ⟨job, t, .call (.work w) resume⟩ ∧
    monitor.after Stage.idle t = .held token

theorem leases_reaches {c : Config ι (LockOp ω) (LockAnswer β) ε Unit (Job β ε) Redis}
    (h : (system β ε).Reaches System.Any (.initial Redis.initial) c) :
    Leases c.shared (c.records monitor fun _ => Stage.idle) :=
  h.records_invariant (fun _ _ _ => True) Leases (fun job => obeys_tick job) leases_initial
    fun _ _ _ _ _ hP _ hm => hP.move hm

/-- Whatever the replicas do, and whatever Redis throws: no token is granted two leases, and when
two replicas are inside their jobs, the lease of one of them has ended. -/
theorem work_exclusive {c : Config ι (LockOp ω) (LockAnswer β) ε Unit (Job β ε) Redis}
    (h : (system β ε).Reaches System.Any (.initial Redis.initial) c) :
    (c.shared.granted.map Prod.fst).Nodup ∧
      ∀ i j token token', i ≠ j → AtWork c i token → AtWork c j token' →
        ∃ expiresAt expiresAt', (token, expiresAt) ∈ c.shared.granted ∧
          (token', expiresAt') ∈ c.shared.granted ∧
          (expiresAt ≤ c.shared.now ∨ expiresAt' ≤ c.shared.now) := by
  have hleases := leases_reaches h
  refine ⟨hleases.once, ?_⟩
  intro i j token token' hij hi hj
  obtain ⟨job, t, w, resume, hpi, hti⟩ := hi
  obtain ⟨job', t', w', resume', hpj, htj⟩ := hj
  have hri : c.records monitor (fun _ => Stage.idle) i = some (.held token) :=
    (Config.records_eq hpi).trans (congrArg some hti)
  have hrj : c.records monitor (fun _ => Stage.idle) j = some (.held token') :=
    (Config.records_eq hpj).trans (congrArg some htj)
  obtain ⟨e, he, hlive⟩ := hleases.held i token hri
  obtain ⟨e', he', hlive'⟩ := hleases.held j token' hrj
  refine ⟨e, e', he, he', ?_⟩
  rcases hlive with hentry | hexpired
  · rcases hlive' with hentry' | hexpired'
    · obtain rfl : token = token' :=
        congrArg Prod.fst (Option.some.inj (hentry.symm.trans hentry'))
      exact absurd (hleases.own i j _ _ token hri hrj rfl rfl) hij
    · exact .inr hexpired'
  · exact .inl hexpired

abbrev SampleAnswer (_ : Unit) : Type := Unit

/-- A job that awaits one call, under a lease of ten milliseconds. -/
def sampleJob : Job SampleAnswer Unit := ⟨3, 200, 10, Program.perform ()⟩

/-- The first replica is still at work when its lease ends, and the second one begins. -/
theorem sample_at_work : ∃ c, (system SampleAnswer Unit).Reaches (ι := Bool) System.Any
    (.initial Redis.initial) c ∧ AtWork c false "a" ∧ AtWork c true "b" := by
  have h₀ : (system SampleAnswer Unit).Reaches (ι := Bool) System.Any (.initial Redis.initial)
      (.initial Redis.initial) := .refl
  have h₁ := h₀.tail trivial (.start (i := false) sampleJob rfl)
  have h₂ := h₁.tail trivial (.call (i := false) rfl (.randomUUID (s := Redis.initial)
    (a := "a") List.not_mem_nil))
  have h₃ := h₂.tail trivial (.call (i := false) rfl (Performs.set _ "a" 10))
  have h₄ := h₃.tail trivial (.background (s := ⟨10, some ("a", 10), ["a"], [("a", 10)]⟩)
    ⟨10, by decide, rfl⟩)
  have h₅ := h₄.tail trivial (.start (i := true) sampleJob rfl)
  have h₆ := h₅.tail trivial (.call (i := true) rfl (.randomUUID (a := "b") (by simp)))
  have h₇ := h₆.tail trivial (.call (i := true) rfl (Performs.set _ "b" 10))
  exact ⟨_, h₇, ⟨sampleJob, _, (), _, rfl, rfl⟩, ⟨sampleJob, _, (), _, rfl, rfl⟩⟩

theorem sample_work_exclusive :
    ∃ c : Config Bool (LockOp Unit) (LockAnswer SampleAnswer) Unit Unit (Job SampleAnswer Unit)
        Redis,
      AtWork c false "a" ∧ AtWork c true "b" ∧ (c.shared.granted.map Prod.fst).Nodup ∧
        ∃ expiresAt expiresAt', ("a", expiresAt) ∈ c.shared.granted ∧
          ("b", expiresAt') ∈ c.shared.granted ∧
          (expiresAt ≤ c.shared.now ∨ expiresAt' ≤ c.shared.now) := by
  obtain ⟨c, hc, ha, hb⟩ := sample_at_work
  obtain ⟨honce, hended⟩ := work_exclusive hc
  exact ⟨c, ha, hb, honce, hended false true "a" "b" (by decide) ha hb⟩

end RollupLock
end Audit
