import Mathlib.Tactic.Linarith
import Pivotal.Async.Pool
import Pivotal.Outbound.AccessGuard

/-! Signed requests that read, at any number of replicas over one store of nonces. Every clock
shows the true time, and a call may stall between its checks and its reservation. The store keeps
a nonce long enough for as long as the date of a token is fresh, which is checked before the
stall and not after it. -/
namespace Outbound
open Js Fspiop Fspiop.FspiopHeaders
open Async (Config Event Label Monitor Process System)
open Async.Program (Obeys perform lift)

/-- The true time, and the last instant at which the key of each reservation is held. -/
structure NonceStore where
  clock : Js.Date
  expiry : String → Option Js.Date

namespace NonceStore

def initial : NonceStore := ⟨0, fun _ => none⟩

def holds (s : NonceStore) (key : String) : Bool :=
  match s.expiry key with
  | some expiry => s.clock ≤ expiry
  | none => false

def reserve (s : NonceStore) (key : String) (ttlMs : ℤ) : NonceStore :=
  { s with expiry := Function.update s.expiry key (some (s.clock + ttlMs)) }

/-- `SET key 1 NX PX ttlMs`, which sets no key that is held. -/
def setNx (s : NonceStore) (key : String) (ttlMs : ℤ) : NonceStore :=
  if s.holds key then s else s.reserve key ttlMs

/-- A reservation that fails may have been made. -/
def performs (s : NonceStore) : (op : AccessOp) → AccessAnswer op → NonceStore → Prop
  | .now, now, s' => now = s.clock ∧ s' = s
  | .reserve key ttlMs, .ok reserved, s' => reserved = !s.holds key ∧ s' = s.setNx key ttlMs
  | .reserve key ttlMs, .error _, s' => s' = s ∨ s' = s.setNx key ttlMs

/-- No time is lost and no reservation ends earlier. -/
structure Later (s s' : NonceStore) : Prop where
  clock : s.clock ≤ s'.clock
  expiry : ∀ key expiry, s.expiry key = some expiry →
    ∃ expiry', s'.expiry key = some expiry' ∧ expiry ≤ expiry'

theorem Later.refl (s : NonceStore) : Later s s := ⟨le_refl _, fun _ expiry h => ⟨expiry, h, le_refl _⟩⟩

theorem later_reserve {s : NonceStore} {key : String} {ttlMs : ℤ} (h : s.holds key = false)
    (httl : 0 ≤ ttlMs) : Later s (s.reserve key ttlMs) := by
  constructor
  · exact le_refl _
  · intro key' expiry hexpiry
    by_cases hkey : key' = key
    · subst hkey
      refine ⟨s.clock + ttlMs, by simp [reserve], ?_⟩
      simp only [holds, hexpiry, decide_eq_false_iff_not, not_le] at h
      exact le_trans h.le (le_add_of_nonneg_right httl)
    · exact ⟨expiry, by simpa [reserve, hkey] using hexpiry, le_refl _⟩

theorem later_setNx (s : NonceStore) (key : String) {ttlMs : ℤ} (httl : 0 ≤ ttlMs) :
    Later s (s.setNx key ttlMs) := by
  unfold setNx
  split
  · exact .refl s
  · rename_i h
    exact later_reserve (Bool.eq_false_iff.mpr h) httl

/-- Time goes on. -/
def passes (s s' : NonceStore) : Prop := ∃ clock, s.clock ≤ clock ∧ s' = { s with clock := clock }

end NonceStore

/-- A request with the access keys that are registered when it is received. -/
structure SignedGetCall (ν κ : Type) where
  keys : AccessKeys κ
  request : Request ν

/-- How far a call has come, with the time of its checks. -/
inductive SignedGetStage where
  | received
  | checked (now : Js.Date)
  | accepted (now : Js.Date)

structure SignedGetVisit (ν κ : Type) where
  call : SignedGetCall ν κ
  stage : SignedGetStage

namespace AccessGuard

variable {ν κ ι : Type} (guard : AccessGuard ν κ)

def signedGets : System AccessOp AccessAnswer JsError Unit (SignedGetCall ν κ) NonceStore where
  entry call := guard.verifySignedGet call.keys call.request
  perform := NonceStore.performs
  background := NonceStore.passes

/-- A nonce is reserved while its date is fresh, and another call with the token that has the
checks behind it is of the same source. -/
def Timely (clock : Js.Date) (calls : ι → Option (SignedGetCall ν κ)) :
    Label ι AccessOp AccessAnswer (SignedGetCall ν κ) → Prop
  | .call i ⟨.reserve _ _, _⟩ => ∀ call, calls i = some call →
    ∀ now source token nonce timestamp,
      guard.GetSigned call.keys now call.request source token nonce timestamp →
      clock ≤ timestamp + signedLookupFreshnessMs ∧
      ∀ j call', calls j = some call' → ∀ now' source' nonce' timestamp',
        guard.GetSigned call'.keys now' call'.request source' token nonce' timestamp' →
        source' = source
  | _ => True

namespace SignedGetVisit

def next (visit : SignedGetVisit ν κ) : (op : AccessOp) → AccessAnswer op → SignedGetVisit ν κ
  | .now, now => { visit with stage := .checked now }
  | .reserve _ _, .ok true =>
    match visit.stage with
    | .checked now => { visit with stage := .accepted now }
    | _ => visit
  | .reserve _ _, _ => visit

def allows (visit : SignedGetVisit ν κ) : AccessOp → Prop
  | .now => True
  | .reserve key ttlMs => ttlMs = nonceTtlMs ∧ ∃ now, visit.stage = .checked now ∧
    guard.checkSignedGet visit.call.keys now visit.call.request = .ok key

/-- A call that was accepted has passed its checks and made its reservation. -/
def Settled (call : SignedGetCall ν κ) (visit : SignedGetVisit ν κ) (result : Except JsError Unit) :
    Prop :=
  result = .ok () → visit.call = call ∧ ∃ now key, visit.stage = .accepted now ∧
    guard.checkSignedGet call.keys now call.request = .ok key

theorem next_call (visit : SignedGetVisit ν κ) (op : AccessOp) (a : AccessAnswer op) :
    (next visit op a).call = visit.call := by
  unfold next
  split
  · rfl
  · split <;> rfl
  · rfl

end SignedGetVisit

def visits : Monitor AccessOp AccessAnswer (SignedGetVisit ν κ) :=
  ⟨SignedGetVisit.next, SignedGetVisit.allows guard⟩

theorem after_call (visit : SignedGetVisit ν κ) (t : List (Event AccessOp AccessAnswer)) :
    (guard.visits.after visit t).call = visit.call := by
  induction t generalizing visit with
  | nil => rfl
  | cons e t ih =>
    rw [Monitor.after_cons, ih]
    exact SignedGetVisit.next_call visit e.op e.answer

theorem verifySignedGet_obeys (call : SignedGetCall ν κ) :
    (guard.verifySignedGet call.keys call.request).Obeys guard.visits ⟨call, .received⟩
      (SignedGetVisit.Settled guard call) := by
  unfold verifySignedGet
  apply Obeys.afterPerform trivial
  intro now
  apply Obeys.afterLift
  · intro e he
    cases he
  intro key hkey
  have hallowed : SignedGetVisit.allows guard ⟨call, .checked now⟩ (.reserve key nonceTtlMs) :=
    ⟨rfl, now, rfl, hkey⟩
  apply Obeys.afterPerform hallowed
  intro answer
  apply Obeys.afterLift
  · intro e he
    cases he
  rintro reserved rfl
  cases reserved with
  | true => exact fun _ => ⟨rfl, now, key, rfl, hkey⟩
  | false =>
    intro he
    cases he

/-- Checks precede the present, what was accepted is held for as long as its date is fresh, and
no token was accepted twice. -/
structure SingleUse (s : NonceStore) (f : ι → Option (SignedGetVisit ν κ)) : Prop where
  past : ∀ i visit now, f i = some visit → visit.stage = .checked now → now ≤ s.clock
  held : ∀ i visit now key, f i = some visit → visit.stage = .accepted now →
    guard.checkSignedGet visit.call.keys now visit.call.request = .ok key →
    ∃ expiry, s.expiry key = some expiry ∧ now + nonceTtlMs ≤ expiry
  once : ∀ i j visit visit' now now' key key' token, f i = some visit → f j = some visit' →
    visit.stage = .accepted now → visit'.stage = .accepted now' →
    guard.checkSignedGet visit.call.keys now visit.call.request = .ok key →
    guard.checkSignedGet visit'.call.keys now' visit'.call.request = .ok key' →
    carriedToken visit.call.request = .ok token → carriedToken visit'.call.request = .ok token →
    i = j

variable {guard} {s s' : NonceStore} {f : ι → Option (SignedGetVisit ν κ)}

theorem SingleUse.later (h : guard.SingleUse s f) (hlater : s.Later s') : guard.SingleUse s' f := by
  constructor
  · intro i visit now hi hstage
    exact le_trans (h.past i visit now hi hstage) hlater.clock
  · intro i visit now key hi hstage hkey
    obtain ⟨expiry, hexpiry, hle⟩ := h.held i visit now key hi hstage hkey
    obtain ⟨expiry', hexpiry', hle'⟩ := hlater.expiry key expiry hexpiry
    exact ⟨expiry', hexpiry', le_trans hle hle'⟩
  · exact h.once

/-- While its date is fresh, a token that was accepted is held under the key of a later call. -/
theorem SingleUse.holds (h : guard.SingleUse s f) {j : ι} {call : SignedGetCall ν κ}
    {visit : SignedGetVisit ν κ} {now now' : Js.Date} {key key' : String} {token : Jwt.Token}
    (hj : f j = some visit) (hstage : visit.stage = .accepted now')
    (hcheck : guard.checkSignedGet call.keys now call.request = .ok key)
    (hcheck' : guard.checkSignedGet visit.call.keys now' visit.call.request = .ok key')
    (htoken : carriedToken call.request = .ok token)
    (htoken' : carriedToken visit.call.request = .ok token)
    (htimely : ∀ source nonce timestamp,
      guard.GetSigned call.keys now call.request source token nonce timestamp →
      s.clock ≤ timestamp + signedLookupFreshnessMs ∧ ∀ source' nonce' timestamp',
        guard.GetSigned visit.call.keys now' visit.call.request source' token nonce' timestamp' →
        source' = source) : s.holds key = true := by
  obtain ⟨source, t, nonce, timestamp, hsigned, rfl⟩ := checkSignedGet_ok_iff.mp hcheck
  obtain ⟨source', t', nonce', timestamp', hsigned', rfl⟩ := checkSignedGet_ok_iff.mp hcheck'
  obtain rfl : t = token := Except.ok.inj (hsigned.carried.symm.trans htoken)
  obtain rfl : t' = t := Except.ok.inj (hsigned'.carried.symm.trans htoken')
  obtain ⟨hclock, hsource⟩ := htimely source nonce timestamp hsigned
  obtain rfl := hsource source' nonce' timestamp' hsigned'
  obtain ⟨rfl, rfl⟩ := hsigned.unique hsigned'
  obtain ⟨expiry, hexpiry, hle⟩ := h.held j visit now' _ hj hstage hcheck'
  have hfresh := (abs_le.mp hsigned'.fresh).1
  unfold NonceStore.holds
  rw [hexpiry, decide_eq_true_eq]
  unfold signedLookupFreshnessMs at hfresh hclock
  unfold nonceTtlMs at hle
  linarith

variable [DecidableEq ι]

theorem SingleUse.remove (h : guard.SingleUse s f) (i : ι) :
    guard.SingleUse s (Function.update f i none) := by
  constructor
  · intro j visit now hj
    exact h.past j visit now (Async.of_update_none hj).2
  · intro j visit now key hj
    exact h.held j visit now key (Async.of_update_none hj).2
  · intro j k visit visit' now now' key key' token hj hk
    exact h.once j k visit visit' now now' key key' token (Async.of_update_none hj).2
      (Async.of_update_none hk).2

theorem SingleUse.put (h : guard.SingleUse s f) (i : ι) {visit : SignedGetVisit ν κ}
    (hpast : ∀ now, visit.stage = .checked now → now ≤ s.clock)
    (hstage : ∀ now, visit.stage ≠ .accepted now) :
    guard.SingleUse s (Function.update f i (some visit)) := by
  constructor
  · intro j visit' now hj hchecked
    rcases Async.update_eq_some.mp hj with ⟨-, heq⟩ | ⟨-, hj⟩
    · cases heq
      exact hpast now hchecked
    · exact h.past j visit' now hj hchecked
  · intro j visit' now key hj haccepted
    rcases Async.update_eq_some.mp hj with ⟨-, heq⟩ | ⟨-, hj⟩
    · cases heq
      exact absurd haccepted (hstage now)
    · exact h.held j visit' now key hj haccepted
  · intro j k visit₁ visit₂ now now' key key' token hj hk h₁ h₂
    rcases Async.update_eq_some.mp hj with ⟨-, heq⟩ | ⟨-, hj⟩
    · cases heq
      exact absurd h₁ (hstage now)
    rcases Async.update_eq_some.mp hk with ⟨-, heq⟩ | ⟨-, hk⟩
    · cases heq
      exact absurd h₂ (hstage now')
    exact h.once j k visit₁ visit₂ now now' key key' token hj hk h₁ h₂

/-- An accepted call holds its nonce, and no other call with its token was accepted. -/
theorem SingleUse.accept (h : guard.SingleUse s f) {i : ι} {visit : SignedGetVisit ν κ}
    {now : Js.Date} {key : String} (hi : f i = some visit) (hstage : visit.stage = .checked now)
    (hcheck : guard.checkSignedGet visit.call.keys now visit.call.request = .ok key)
    (hfree : s.holds key = false)
    (hok : guard.Timely s.clock (fun i => (f i).map SignedGetVisit.call)
      (.call i ⟨.reserve key nonceTtlMs, .ok true⟩)) :
    guard.SingleUse (s.setNx key nonceTtlMs)
      (Function.update f i (some { visit with stage := .accepted now })) := by
  have hcall : ∀ {k v}, f k = some v → (f k).map SignedGetVisit.call = some v.call := by
    intro k v hk
    rw [hk, Option.map_some]
  have hother : ∀ j visit' now' key' token, j ≠ i → f j = some visit' →
      visit'.stage = .accepted now' →
      guard.checkSignedGet visit'.call.keys now' visit'.call.request = .ok key' →
      carriedToken visit.call.request = .ok token →
      carriedToken visit'.call.request ≠ .ok token := by
    intro j visit' now' key' token hji hj hstage' hcheck' htoken htoken'
    have hheld : s.holds key = true := by
      apply h.holds hj hstage' hcheck hcheck' htoken htoken'
      intro source nonce timestamp hsigned
      obtain ⟨hclock, hsource⟩ := hok visit.call (hcall hi) now source token nonce timestamp hsigned
      exact ⟨hclock, hsource j visit'.call (hcall hj) now'⟩
    rw [hfree] at hheld
    cases hheld
  have hlater : s.Later (s.setNx key nonceTtlMs) := s.later_setNx key (by decide)
  have hnx : s.setNx key nonceTtlMs = s.reserve key nonceTtlMs := by
    unfold NonceStore.setNx
    rw [hfree]
    rfl
  have hkept := h.later hlater
  constructor
  · intro j visit' now' hj hchecked
    rcases Async.update_eq_some.mp hj with ⟨-, heq⟩ | ⟨-, hj⟩
    · cases heq
      cases hchecked
    · exact hkept.past j visit' now' hj hchecked
  · intro j visit' now' key' hj haccepted hcheck'
    rcases Async.update_eq_some.mp hj with ⟨-, heq⟩ | ⟨-, hj⟩
    · cases heq
      cases haccepted
      obtain rfl : key = key' := Except.ok.inj (hcheck.symm.trans hcheck')
      refine ⟨s.clock + nonceTtlMs, ?_, ?_⟩
      · rw [hnx]
        exact Function.update_self ..
      · have hpast := h.past i visit now hi hstage
        linarith
    · exact hkept.held j visit' now' key' hj haccepted hcheck'
  · intro j k visit₁ visit₂ now₁ now₂ key₁ key₂ token hj hk h₁ h₂ hcheck₁ hcheck₂ htoken₁ htoken₂
    rcases Async.update_eq_some.mp hj with ⟨hji, heq₁⟩ | ⟨hji, hj'⟩
    · rcases Async.update_eq_some.mp hk with ⟨hki, -⟩ | ⟨hki, hk'⟩
      · exact hji.trans hki.symm
      · cases heq₁
        exact absurd htoken₂ (hother k visit₂ now₂ key₂ token hki hk' h₂ hcheck₂ htoken₁)
    · rcases Async.update_eq_some.mp hk with ⟨hki, heq₂⟩ | ⟨hki, hk'⟩
      · cases heq₂
        exact absurd htoken₁ (hother j visit₁ now₁ key₁ token hji hj' h₁ hcheck₁ htoken₂)
      · exact h.once j k visit₁ visit₂ now₁ now₂ key₁ key₂ token hj' hk' h₁ h₂ hcheck₁ hcheck₂
          htoken₁ htoken₂

theorem SingleUse.move {s' : NonceStore} {f' : ι → Option (SignedGetVisit ν κ)}
    {l : Label ι AccessOp AccessAnswer (SignedGetCall ν κ)} (h : guard.SingleUse s f)
    (hok : guard.Timely s.clock (fun i => (f i).map SignedGetVisit.call) l)
    (hmove : guard.signedGets.Move guard.visits (fun call => ⟨call, .received⟩) s f l s' f') :
    guard.SingleUse s' f' := by
  cases hmove with
  | start call hi =>
    apply h.put
    · intro now hstage
      cases hstage
    · intro now hstage
      cases hstage
  | @call _ _ i visit op a hi hallows hperform =>
    cases op with
    | now =>
      obtain ⟨rfl, rfl⟩ := hperform
      apply h.put
      · intro now hstage
        cases hstage
        exact le_refl _
      · intro now hstage
        cases hstage
    | reserve key ttlMs =>
      obtain ⟨rfl, now, hstage, hcheck⟩ := hallows
      have httl : 0 ≤ nonceTtlMs := by decide
      have hsame : ∀ {s'}, s.Later s' → guard.SingleUse s' (Function.update f i (some visit)) := by
        intro s' hlater
        rw [← hi, Function.update_eq_self]
        exact h.later hlater
      rcases a with e | reserved
      · rcases hperform with rfl | rfl
        · exact hsame (.refl _)
        · exact hsame (s.later_setNx key httl)
      obtain ⟨hreserved, rfl⟩ := hperform
      cases reserved with
      | false => exact hsame (s.later_setNx key httl)
      | true =>
        have hfree : s.holds key = false := by simpa using hreserved.symm
        have hnext : guard.visits.next visit (.reserve key nonceTtlMs) (.ok true) =
            { visit with stage := .accepted now } := by
          show SignedGetVisit.next visit (.reserve key nonceTtlMs) (.ok true) = _
          unfold SignedGetVisit.next
          simp only [hstage]
        rw [hnext]
        exact h.accept hi hstage hcheck hfree hok
  | crash hi _ => exact h.remove _
  | background hpasses =>
    obtain ⟨clock, hclock, rfl⟩ := hpasses
    exact h.later ⟨hclock, fun _ expiry hexpiry => ⟨expiry, hexpiry, le_refl _⟩⟩

variable {start : NonceStore}
  {c : Config ι AccessOp AccessAnswer JsError Unit (SignedGetCall ν κ) NonceStore}

omit [DecidableEq ι] in
theorem records_call (i : ι) :
    (c.records guard.visits (fun call => ⟨call, .received⟩) i).map SignedGetVisit.call =
      (c.process i).map Process.job := by
  unfold Config.records
  rw [Option.map_map]
  cases c.process i with
  | none => rfl
  | some p => exact congrArg some (guard.after_call ⟨p.job, .received⟩ p.trace)

theorem singleUse_of_reaches
    (h : guard.signedGets.Reaches
      (fun c l => guard.Timely c.shared.clock (fun i => (c.process i).map Process.job) l)
      (.initial start) c) :
    guard.SingleUse c.shared (c.records guard.visits fun call => ⟨call, .received⟩) := by
  have hrecords : guard.signedGets.Reaches (fun c l => guard.Timely c.shared.clock
      (fun i => (c.records guard.visits (fun call => ⟨call, .received⟩) i).map
        SignedGetVisit.call) l) (.initial start) c := by
    apply h.mono
    intro c l _ hl
    simpa only [records_call] using hl
  apply hrecords.records_invariant
    (fun s f l => guard.Timely s.clock (fun i => (f i).map SignedGetVisit.call) l) guard.SingleUse
    (fun call => guard.verifySignedGet_obeys call)
  · constructor
    · intro i visit now hi
      cases hi
    · intro i visit now key hi
      cases hi
    · intro i j visit visit' now now' key key' token hi
      cases hi
  · intro s f l s' f' hsingle hok hmove
    exact hsingle.move hok hmove

theorem accepted_stage
    (h : guard.signedGets.Reaches
      (fun c l => guard.Timely c.shared.clock (fun i => (c.process i).map Process.job) l)
      (.initial start) c) {i : ι}
    {p : Process AccessOp AccessAnswer JsError Unit (SignedGetCall ν κ)}
    (hi : c.process i = some p) (hp : p.program = .done (.ok ())) :
    (p.record guard.visits fun call => ⟨call, .received⟩).call = p.job ∧ ∃ now key,
      (p.record guard.visits fun call => ⟨call, .received⟩).stage = .accepted now ∧
      guard.checkSignedGet p.job.keys now p.job.request = .ok key := by
  have hobeys := h.obeys (fun call => guard.verifySignedGet_obeys call) hi
  rw [hp] at hobeys
  exact hobeys rfl

/-- In a run whose reservations are timely, no other call with the token of a call that was
accepted is accepted. -/
theorem signed_get_accepted_once
    (h : guard.signedGets.Reaches
      (fun c l => guard.Timely c.shared.clock (fun i => (c.process i).map Process.job) l)
      (.initial start) c) {i j : ι} (hij : j ≠ i)
    {p q : Process AccessOp AccessAnswer JsError Unit (SignedGetCall ν κ)} {token : Jwt.Token}
    (hi : c.process i = some p) (hj : c.process j = some q)
    (htoken : carriedToken p.job.request = .ok token)
    (htoken' : carriedToken q.job.request = .ok token) (hp : p.program = .done (.ok ())) :
    q.program ≠ .done (.ok ()) := by
  intro hq
  obtain ⟨hcall, now, key, hstage, hcheck⟩ := accepted_stage h hi hp
  obtain ⟨hcall', now', key', hstage', hcheck'⟩ := accepted_stage h hj hq
  rw [← hcall] at hcheck htoken
  rw [← hcall'] at hcheck' htoken'
  exact hij ((singleUse_of_reaches h).once j i _ _ now' now key' key token (Config.records_eq hj)
    (Config.records_eq hi) hstage' hstage hcheck' hcheck htoken' htoken)

end AccessGuard

section Sample

/-- Await the reservation of a nonce. -/
def awaitReservation (key : String) : AccessProgram Unit :=
  .call (.reserve key AccessGuard.nonceTtlMs) fun answer => .done (answer.bind fun reserved =>
    if reserved then .ok ()
    else .error (AccessGuard.invalidSignature "Authorization nonce has already been used."))

theorem lift_awaitReservation {checked : Except JsError String} {key : String}
    (h : checked = .ok key) :
    (lift checked >>= fun key => do
      let reserved : Bool ← lift (← perform (.reserve key AccessGuard.nonceTtlMs))
      if ¬ reserved then
        throw (AccessGuard.invalidSignature "Authorization nonce has already been used.") :
        AccessProgram Unit) = awaitReservation key := by
  subst h
  refine congrArg (Async.Program.call (AccessOp.reserve key _)) (funext fun answer => ?_)
  rcases answer with e | reserved
  · rfl
  · cases reserved <;> rfl

variable {ν κ ι : Type} [DecidableEq ι] {guard : AccessGuard ν κ} {start : NonceStore}
  {c : Config ι AccessOp AccessAnswer JsError Unit (SignedGetCall ν κ) NonceStore}
  {ok : Config ι AccessOp AccessAnswer JsError Unit (SignedGetCall ν κ) NonceStore →
    Label ι AccessOp AccessAnswer (SignedGetCall ν κ) → Prop}
  {call : SignedGetCall ν κ} {i : ι} {key : String}

theorem reaches_checked (h : guard.signedGets.Reaches ok (.initial start) c)
    (hi : c.process i = none) (hstart : ok c (.start i call))
    (hnow : ok (c.put i (some ⟨call, [], guard.verifySignedGet call.keys call.request⟩))
      (.call i ⟨.now, c.shared.clock⟩))
    (hcheck : guard.checkSignedGet call.keys c.shared.clock call.request = .ok key) :
    guard.signedGets.Reaches ok (.initial start)
      (c.put i (some ⟨call, [⟨.now, c.shared.clock⟩], awaitReservation key⟩)) := by
  rw [← lift_awaitReservation hcheck]
  have hconfig : ∀ p q, ((c.put i p).withShared c.shared).put i q = c.put i q := by
    intro p q
    simp [Config.put, Config.withShared]
  have hstep := System.Step.call (S := guard.signedGets) (s := c.shared) (a := c.shared.clock)
    (Config.put_self c i (some ⟨call, [], guard.verifySignedGet call.keys call.request⟩))
    ⟨rfl, rfl⟩
  rw [hconfig] at hstep
  exact (h.tail hstart (.start call hi)).tail hnow hstep

theorem reaches_accepted (h : guard.signedGets.Reaches ok (.initial start) c)
    {t : List (Event AccessOp AccessAnswer)}
    (hi : c.process i = some ⟨call, t, awaitReservation key⟩)
    (hreserve : ok c (.call i ⟨.reserve key AccessGuard.nonceTtlMs, .ok true⟩))
    (hfree : c.shared.holds key = false) :
    guard.signedGets.Reaches ok (.initial start)
      ((c.withShared (c.shared.reserve key AccessGuard.nonceTtlMs)).put i
        (some ⟨call, t ++ [⟨.reserve key AccessGuard.nonceTtlMs, .ok true⟩], .done (.ok ())⟩)) := by
  have hperform : guard.signedGets.perform c.shared (.reserve key AccessGuard.nonceTtlMs) (.ok true)
      (c.shared.reserve key AccessGuard.nonceTtlMs) := by
    constructor
    · rw [hfree]
      rfl
    · unfold NonceStore.setNx
      rw [hfree]
      rfl
  exact h.tail hreserve (.call hi hperform)

theorem reaches_rejected (h : guard.signedGets.Reaches ok (.initial start) c)
    {t : List (Event AccessOp AccessAnswer)}
    (hi : c.process i = some ⟨call, t, awaitReservation key⟩)
    (hreserve : ok c (.call i ⟨.reserve key AccessGuard.nonceTtlMs, .ok false⟩))
    (hheld : c.shared.holds key = true) :
    guard.signedGets.Reaches ok (.initial start)
      (c.put i (some ⟨call, t ++ [⟨.reserve key AccessGuard.nonceTtlMs, .ok false⟩],
        .done (.error (AccessGuard.invalidSignature
          "Authorization nonce has already been used."))⟩)) := by
  have hperform : guard.signedGets.perform c.shared (.reserve key AccessGuard.nonceTtlMs)
      (.ok false) c.shared := by
    constructor
    · rw [hheld]
      rfl
    · unfold NonceStore.setNx
      rw [hheld]
      rfl
  exact h.tail hreserve (.call hi hperform)

def sampleGetEntries : List (String × String) :=
  [("alg", "RS256"), ("typ", "JWT"), ("uri", "/secured/rates"), ("method", "GET"),
    ("date", "Thu, 01 Jan 1970 00:00:00 GMT"), ("nonce", "n")]

def sampleGetToken : Jwt.Token :=
  ⟨Jwt.encode (Value.stringify literals (FspiopSignature.ofEntries sampleGetEntries)), "e30",
    "dfsp1"⟩

/-- A request of `dfsp1`, signed at the epoch. -/
def sampleGet : SignedGetCall (List Char) String where
  keys := some
  request :=
    { method := "GET"
      url := "/secured/rates"
      headers := fun name =>
        if name = "fspiop-source" then some "dfsp1"
        else if name = "date" then some "Thu, 01 Jan 1970 00:00:00 GMT"
        else if name = "authorization" then some sampleGetToken.full
        else none
      body := none }

theorem sampleGetToken_compact : sampleGetToken.Compact := by
  constructor
  · exact Jwt.encode_ne_empty (by decide)
  · decide
  · exact Jwt.isPartChar_encode _
  · rfl
  · rfl

theorem sampleGet_carries : AccessGuard.carriedToken sampleGet.request = .ok sampleGetToken :=
  AccessGuard.carriedToken_full sampleGetToken_compact rfl

/-- It passes its checks until five minutes after the epoch. -/
theorem sampleGet_signed {now : Js.Date} (h : |now| ≤ AccessGuard.signedLookupFreshnessMs) :
    sampleAccessGuard.GetSigned sampleGet.keys now sampleGet.request "dfsp1" sampleGetToken
      (units "n") 0 := by
  have hnodup : (sampleGetEntries.map Prod.fst).Nodup := by decide
  have hfield : ∀ {name text}, (name, text) ∈ sampleGetEntries →
      FspiopSignature.isText (FspiopSignature.field
        (FspiopSignature.fieldsOf sampleGetEntries : List (Units × Value (List Char))) name) text =
          true := by
    intro name text hmem
    exact FspiopSignature.isText_fieldsOf hnodup hmem
  have hbody : sampleGetToken.body = Jwt.encode (Value.stringify literals (.object [])) := by
    rfl
  have hdate : toUTCString 0 = "Thu, 01 Jan 1970 00:00:00 GMT" := rfl
  have hnonce : FspiopSignature.field
      (FspiopSignature.fieldsOf sampleGetEntries : List (Units × Value (List Char))) "nonce" =
        some (.string (units "n")) := by
    rw [FspiopSignature.field_fieldsOf hnodup]
    rfl
  constructor
  · rfl
  · exact sampleGet_carries
  · exact ⟨"dfsp1", rfl, sampleAccessGuard_verifyToken sampleGetToken_compact now hbody rfl⟩
  · refine ⟨rfl, ?_⟩
    unfold AccessGuard.decodePayload
    rw [hbody]
    exact AccessGuard.decodeTokenObject_encode _ rfl _
  · refine ⟨FspiopSignature.fieldsOf sampleGetEntries,
      AccessGuard.decodeTokenObject_encode _
        (@FspiopSignature.reread_ofEntries _ sampleEngine sampleGetEntries) _,
      hfield (by decide), hfield (by decide), hfield (by decide), hfield (by decide), ?_, ?_⟩
    · rw [hdate]
      exact hfield (by decide)
    · rw [hnonce]
      rfl
  · rw [hdate]
    constructor
    · rfl
    · rfl
  · rwa [sub_zero]

def sampleNonceKey : String := AccessGuard.nonceKey "dfsp1" (units "n")

theorem sampleGet_checked {now : Js.Date} (h : |now| ≤ AccessGuard.signedLookupFreshnessMs) :
    sampleAccessGuard.checkSignedGet sampleGet.keys now sampleGet.request = .ok sampleNonceKey :=
  AccessGuard.checkSignedGet_ok_iff.mpr ⟨_, _, _, _, sampleGet_signed h, rfl⟩

abbrev SampleGets :=
  Config ℕ AccessOp AccessAnswer JsError Unit (SignedGetCall (List Char) String) NonceStore

/-- Every call so far is the same one, and the nonce of the first is held. -/
def SampleGets.Fresh (c : SampleGets) : Prop :=
  c.shared.clock = 0 ∧ ∀ i p, c.process i = some p → p.job = sampleGet

theorem SampleGets.Fresh.put {c : SampleGets} (h : c.Fresh) (i : ℕ)
    {p : Process AccessOp AccessAnswer JsError Unit (SignedGetCall (List Char) String)}
    (hp : p.job = sampleGet) : SampleGets.Fresh (c.put i (some p)) := by
  constructor
  · exact h.1
  · intro j q hj
    rcases Async.update_eq_some.mp hj with ⟨-, heq⟩ | ⟨-, hj⟩
    · cases heq
      exact hp
    · exact h.2 j q hj

theorem SampleGets.Fresh.timely {c : SampleGets} (h : c.Fresh)
    (l : Label ℕ AccessOp AccessAnswer (SignedGetCall (List Char) String)) :
    sampleAccessGuard.Timely c.shared.clock (fun i => (c.process i).map Process.job) l := by
  have hjobs : ∀ {i call}, (c.process i).map Process.job = some call → call = sampleGet := by
    intro i call hcall
    obtain ⟨p, hp, rfl⟩ := Option.map_eq_some_iff.mp hcall
    exact h.2 i p hp
  unfold AccessGuard.Timely
  split
  · intro call hcall now source token nonce timestamp hsigned
    obtain rfl := hjobs hcall
    have htimestamp : timestamp = 0 := by
      obtain rfl : token = sampleGetToken :=
        Except.ok.inj (hsigned.carried.symm.trans sampleGet_carries)
      exact (hsigned.unique (@sampleGet_signed 0 (by decide))).1
    constructor
    · rw [h.1, htimestamp]
      decide
    · intro j call' hcall' now' source' nonce' timestamp' hsigned'
      obtain rfl := hjobs hcall'
      exact Except.ok.inj (hsigned'.sourced.symm.trans hsigned.sourced)
  · trivial

theorem SampleGets.Fresh.withShared {c : SampleGets} (h : c.Fresh) {s : NonceStore}
    (hs : s.clock = 0) : SampleGets.Fresh (c.withShared s) := ⟨hs, h.2⟩

/-- The same request is received twice at the epoch, and the second is rejected. -/
theorem signed_get_accepted_once_sample : ∃ c : SampleGets,
    sampleAccessGuard.signedGets.Reaches
      (fun c l => sampleAccessGuard.Timely c.shared.clock (fun i => (c.process i).map Process.job) l)
      (.initial .initial) c ∧ ∃ p q, c.process 0 = some p ∧ c.process 1 = some q ∧
      AccessGuard.carriedToken p.job.request = .ok sampleGetToken ∧
      AccessGuard.carriedToken q.job.request = .ok sampleGetToken ∧
      p.program = .done (.ok ()) ∧ q.program ≠ .done (.ok ()) := by
  have hcheck := @sampleGet_checked 0 (by decide)
  have hstart : sampleAccessGuard.signedGets.Reaches
      (fun c l => sampleAccessGuard.Timely c.shared.clock (fun i => (c.process i).map Process.job) l)
      (.initial .initial) (.initial .initial : SampleGets) := .refl
  have hempty : SampleGets.Fresh (.initial .initial) := ⟨rfl, fun i p hp => by cases hp⟩
  have hfirst := reaches_checked hstart (i := 0) rfl (hempty.timely _)
    ((hempty.put 0 rfl).timely _) hcheck
  have hreceived := hempty.put 0
    (p := ⟨sampleGet, [⟨.now, 0⟩], awaitReservation sampleNonceKey⟩) rfl
  have haccepted := reaches_accepted hfirst (Config.put_self ..) (hreceived.timely _) rfl
  have hreserved := fun t => (hreceived.withShared (s := NonceStore.initial.reserve sampleNonceKey
    AccessGuard.nonceTtlMs) rfl).put 0 (p := ⟨sampleGet, t, .done (.ok ())⟩) rfl
  have hsecond := reaches_checked haccepted (i := 1) rfl ((hreserved _).timely _)
    (((hreserved _).put 1 rfl).timely _) hcheck
  have hrejected := reaches_rejected hsecond (Config.put_self ..)
    (((hreserved _).put 1 rfl).timely _) (by decide)
  exact ⟨_, hrejected, _, _, rfl, Config.put_self .., sampleGet_carries, sampleGet_carries, rfl,
    AccessGuard.signed_get_accepted_once hrejected (i := 0) (j := 1) (by decide) rfl
      (Config.put_self ..) sampleGet_carries sampleGet_carries rfl⟩

/-- A token that is used at the epoch is accepted again: the second call is fresh when it is
checked, and stalls until the nonce is forgotten. -/
theorem not_signed_get_accepted_once : ∃ c : SampleGets,
    sampleAccessGuard.signedGets.Reaches System.Any (.initial .initial) c ∧ ∃ p q,
      c.process 0 = some p ∧ c.process 1 = some q ∧
      AccessGuard.carriedToken p.job.request = .ok sampleGetToken ∧
      AccessGuard.carriedToken q.job.request = .ok sampleGetToken ∧
      p.program = .done (.ok ()) ∧ q.program = .done (.ok ()) := by
  have hstart : sampleAccessGuard.signedGets.Reaches System.Any (.initial .initial)
      (.initial .initial : SampleGets) := .refl
  have hfirst := reaches_checked hstart (i := 0) rfl trivial trivial
    (@sampleGet_checked 0 (by decide))
  have haccepted := reaches_accepted hfirst (Config.put_self ..) trivial rfl
  have hlater := haccepted.tail trivial (.background ⟨300000, by decide, rfl⟩)
  have hsecond := reaches_checked hlater (i := 1) rfl trivial trivial
    (@sampleGet_checked 300000 (by decide))
  have hstalled := hsecond.tail trivial (.background ⟨600001, by decide, rfl⟩)
  have hagain := reaches_accepted hstalled (Config.put_self ..) trivial (by decide)
  exact ⟨_, hagain, _, _, rfl, Config.put_self .., sampleGet_carries, sampleGet_carries, rfl, rfl⟩

end Sample
end Outbound
