import Pivotal.Outbound.Discipline

/-! The protocol of the two accept calls: what an execution can do to the cached transfer
and to the hub, with everything else abstracted. The executions of the handlers are
steps of it, and the safety results need no more than these steps. -/
namespace Outbound
open Fspiop Async

/-- What the protocol sees of the shared state. -/
structure View where
  cached : Option TransferRequest
  quotesSent : List QuotesPostRequest
  transfersSent : List TransfersPostRequest

def Shared.view (s : Shared) (transferId : String) : View :=
  ⟨s.transfers transferId, s.quotesSent, s.transfersSent⟩

theorem Shared.unlock_view (s : Shared) (lockKey token transferId : String) :
    (s.unlock lockKey token).view transferId = s.view transferId := by
  simp [Shared.view]

/-- One call of an execution with record `r`. A request whose call fails may or may not
have been sent. -/
inductive Acts : View → Journal → View → Journal → Prop
  | idle {v : View} {r : Journal} : Acts v r v r
  | enter {v : View} {r : Journal} {token : String} : r = .initial r.job →
      Acts v r v { r with token := some token }
  | load {v : View} {r : Journal} {tr : TransferRequest} : r.InSection →
      r = { Journal.initial r.job with token := r.token } → v.cached = some tr →
      Acts v r v { r with loaded := some tr }
  | store {v : View} {r : Journal} {value : TransferRequest} {answer : Except JsError Unit} :
      r.InSection → r.MayStore value →
      Acts v r { v with cached := some value } (r.afterSet value answer)
  | drop {v : View} {r : Journal} : r.InSection → Acts v r { v with cached := none } r
  | complete {v : View} {r : Journal} : r.InSection → r.stored.isSome → r.completed = false →
      Acts v r v { r with completed := true }
  | loseQuotes {v : View} {r : Journal} : r.InSection → r.MayRequestQuote →
      Acts v r v { r with quotePosted := true }
  | sendQuotes {v : View} {r : Journal} (body : QuotesPostRequest) : r.InSection →
      r.MayRequestQuote →
      Acts v r { v with quotesSent := v.quotesSent ++ [body] } { r with quotePosted := true }
  | loseTransfers {v : View} {r : Journal} (body : TransfersPostRequest) : r.InSection →
      r.MayRequestTransfer body → Acts v r v { r with transferPosted := true }
  | sendTransfers {v : View} {r : Journal} (body : TransfersPostRequest) : r.InSection →
      r.MayRequestTransfer body →
      Acts v r { v with transfersSent := v.transfersSent ++ [body] }
        { r with transferPosted := true }
  | leave {v : View} {r : Journal} : r.InSection → Acts v r v { r with released := true }

variable {id : String} {s s' : Shared} {r : Journal}

theorem acts_setNx {lockKey token : String} {px : ℤ} {a : Except JsError Bool}
    (hr : r.allows id (.redisSetNx lockKey token px))
    (hp : performs s (.redisSetNx lockKey token px) a s') :
    Acts (s.view id) r (s'.view id) (r.afterSetNx token a) := by
  have hview : s'.view id = s.view id := by
    simp only [performs] at hp
    split at hp
    · rcases applies_cases hp.2 with ⟨rfl, -⟩ | rfl <;> rfl
    · rw [hp.2]
  rw [hview]
  rcases a with e | _ | _
  · exact .idle
  · exact .idle
  · exact .enter hr.1

theorem acts_get {key : String} {a : Except JsError (Option TransferRequest)}
    (hr : r.allows id (.redisGet key)) (hp : performs s (.redisGet key) a s') :
    Acts (s.view id) r (s'.view id) (r.afterGet a) := by
  obtain ⟨hsection, rfl, hfirst⟩ := hr
  obtain ⟨rfl, ha⟩ := hp
  rcases a with e | _ | value
  · exact .idle
  · exact .idle
  · exact .load hsection hfirst (ha _ rfl).symm

theorem acts_set {key : String} {value : TransferRequest} {px : Option ℤ}
    {a : Except JsError Unit} (hr : r.allows id (.redisSet key value px))
    (hp : performs s (.redisSet key value px) a s') :
    Acts (s.view id) r (s'.view id) (r.afterSet value a) := by
  obtain ⟨hsection, rfl, hstore⟩ := hr
  rcases applies_cases hp with ⟨rfl, e, rfl⟩ | rfl
  · exact .idle
  · have hact : Acts (s.view key) r { s.view key with cached := some value } (r.afterSet value a) :=
      .store hsection hstore
    simpa [Shared.view] using hact

theorem acts_del {key : String} {a : Except JsError Unit} (hr : r.allows id (.redisDel key))
    (hp : performs s (.redisDel key) a s') : Acts (s.view id) r (s'.view id) r := by
  obtain ⟨hsection, rfl⟩ := hr
  rcases applies_cases hp with ⟨rfl, -⟩ | rfl
  · exact .idle
  · simpa [Shared.view] using Acts.drop (v := s.view key) hsection

theorem acts_publish {message : AuditMessage} {a : Except JsError Unit}
    (hr : r.allows id (.publish message)) :
    Acts (s.view id) r (s.view id) (r.afterPublish message a) := by
  rcases a with e | u
  · exact .idle
  · simp only [Journal.afterPublish]
    split
    · rename_i hc
      refine .complete hr.1 ?_ (hr.2 hc)
      simp only [Journal.completes, Bool.and_eq_true] at hc
      exact hc.2
    · exact .idle

/-- Every allowed call of an execution is one of the protocol. -/
theorem acts_of_performs {op : OutboundOp} {a : OutboundAnswer op} (hr : r.allows id op)
    (hp : performs s op a s') : Acts (s.view id) r (s'.view id) (r.next op a) := by
  cases op with
  | redisSetNx lockKey token px => exact acts_setNx hr hp
  | redisGet key => exact acts_get hr hp
  | redisSet key value px => exact acts_set hr hp
  | redisDel key => exact acts_del hr hp
  | publish message =>
    obtain rfl : s' = s := hp
    exact acts_publish hr
  | redisReleaseScript lockKey token =>
    rcases applies_cases hp with ⟨rfl, -⟩ | rfl
    · exact .leave hr.1
    · rw [s.unlock_view]
      exact .leave hr.1
  | redisIncrementScript key px =>
    rcases applies_cases hp.2 with ⟨rfl, -⟩ | rfl <;> exact .idle
  | postQuotes url headers body =>
    rcases applies_cases hp with ⟨rfl, -⟩ | rfl
    · exact .loseQuotes hr.1 hr.2
    · exact .sendQuotes body hr.1 hr.2
  | postTransfers url headers body =>
    rcases applies_cases hp with ⟨rfl, -⟩ | rfl
    · exact .loseTransfers body hr.1 hr.2
    · exact .sendTransfers body hr.1 hr.2
  | now | randomUUID | waitFor | cancel | quotesCallback | transfersCallback =>
    obtain rfl : s' = s := hp
    exact .idle

section Moves

variable {ι : Type} [DecidableEq ι] {settings : OutboundSettings}

/-- The records of a pool of executions. -/
abbrev Journals (ι : Type) := ι → Option Journal

/-- The step of the pool that the label takes, in the protocol's terms. -/
inductive Moves (id : String) : View → Journals ι →
    Label ι OutboundOp OutboundAnswer (JobOf id) → View → Journals ι → Prop
  | start {v : View} {f : Journals ι} {i : ι} (job : JobOf id) : f i = none →
      Moves id v f (.start i job) v (Function.update f i (some (.initial job.val)))
  | act {v v' : View} {f : Journals ι} {i : ι} {r : Journal}
      {e : Event OutboundOp OutboundAnswer} : f i = some r → r.released = false →
      Acts v r v' (r.next e.op e.answer) →
      Moves id v f (.call i e) v' (Function.update f i (some (r.next e.op e.answer)))
  | crash {v : View} {f : Journals ι} {i : ι} {r : Journal} : f i = some r →
      r.released = false → Moves id v f (.crash i) v (Function.update f i none)
  | expire {v v' : View} {f : Journals ι} : v' = v ∨ v' = { v with cached := none } →
      Moves id v f .background v' f

theorem view_of_expires (h : expires s s') :
    s'.view id = s.view id ∨ s'.view id = { s.view id with cached := none } := by
  obtain ⟨key, rfl | rfl | rfl⟩ := h
  · by_cases hk : key = id
    · subst hk
      exact .inr (by simp [Shared.view])
    · exact .inl (by simp [Shared.view, Shared.setTransfer, Function.update_of_ne (Ne.symm hk)])
  · exact .inl rfl
  · exact .inl rfl

/-- The pool of executions refines the protocol. -/
theorem moves_of_move {f f' : Journals ι} {l : Label ι OutboundOp OutboundAnswer (JobOf id)}
    (h : (outbound settings id).Move (journal id) (fun job => .initial job.val) s f l s' f') :
    Moves id (s.view id) f l (s'.view id) f' := by
  cases h with
  | start job hi => exact .start job hi
  | call hi hr hp =>
    exact .act (e := ⟨_, _⟩) hi (Journal.unreleased_of_allows hr) (acts_of_performs hr hp)
  | crash hi hr => exact .crash hi (Journal.unreleased_of_allows hr)
  | background hb => exact .expire (view_of_expires hb)

end Moves

/-! The section between the acquisition of the lock and its release. -/

section Section

variable {ι : Type}

/-- No lock is acquired while another execution is still inside its section. -/
def EntersAlone (f : Journals ι) (l : Label ι OutboundOp OutboundAnswer (JobOf id)) : Prop :=
  match l with
  | .call i e => ∀ r, f i = some r → ¬ r.InSection → (r.next e.op e.answer).InSection →
    ∀ j r', f j = some r' → ¬ r'.InSection
  | _ => True

theorem entersAlone_of_others {f : Journals ι} {i : ι} {r : Journal}
    {e : Event OutboundOp OutboundAnswer} (hi : f i = some r)
    (hothers : ∀ j s, f j = some s → j ≠ i → ¬ s.InSection) :
    EntersAlone f (.call (κ := JobOf id) i e) := by
  intro r' hr' hout _ j s hj
  by_cases hji : j = i
  · subst hji
    obtain rfl : r' = s := Option.some.inj (hr'.symm.trans hj)
    exact hout
  · exact hothers j s hj hji

/-- The step takes an execution with record `r` out of its section: it releases the lock
or is lost. -/
def Leaves (f : Journals ι) (l : Label ι OutboundOp OutboundAnswer (JobOf id)) (r : Journal) :
    Prop :=
  match l with
  | .call i e => f i = some r ∧ r.InSection ∧ ¬ (r.next e.op e.answer).InSection
  | .crash i => f i = some r ∧ r.InSection
  | _ => False

/-- One execution at most is inside its section. -/
def Exclusive (f : Journals ι) : Prop :=
  ∀ i j r r', f i = some r → f j = some r' → r.InSection → r'.InSection → i = j

theorem Exclusive.others {f : Journals ι} {i j : ι} {r s : Journal} (h : Exclusive f)
    (hi : f i = some r) (hr : r.InSection) (hj : f j = some s) (hji : j ≠ i) : ¬ s.InSection :=
  fun hs => hji (h j i s r hj hi hs hr)

variable [DecidableEq ι]

namespace Exclusive

variable {f : Journals ι} {i : ι} {r r' : Journal}

theorem erase (h : Exclusive f) : Exclusive (Function.update f i none) := fun j k r r' hj hk =>
  h j k r r' (of_update_none hj).2 (of_update_none hk).2

/-- The record of an execution changes without entering, or enters an empty section. -/
theorem update (h : Exclusive f) (hi : ∀ j s, f j = some s → j ≠ i → r'.InSection → ¬ s.InSection) :
    Exclusive (Function.update f i (some r')) := by
  have hne : ∀ j k : ι, ∀ s s', Function.update f i (some r') j = some s →
      Function.update f i (some r') k = some s' → s.InSection → s'.InSection → j = i → k = i := by
    rintro j k s s' hj hk hs hs' rfl
    by_contra hkj
    rw [Function.update_of_ne hkj] at hk
    simp only [Function.update_self, Option.some.injEq] at hj
    subst hj
    exact hi k s' hk hkj hs hs'
  intro j k s s' hj hk hs hs'
  by_cases hji : j = i
  · rw [hji, hne j k s s' hj hk hs hs' hji]
  · by_cases hki : k = i
    · rw [hki, hne k j s' s hk hj hs' hs hki]
    · rw [Function.update_of_ne hji] at hj
      rw [Function.update_of_ne hki] at hk
      exact h j k s s' hj hk hs hs'

end Exclusive

/-- A call keeps the section exclusive if it does not enter, or enters alone. -/
theorem exclusive_moves {v v' : View} {f f' : Journals ι}
    {l : Label ι OutboundOp OutboundAnswer (JobOf id)} (h : Exclusive f) (hl : EntersAlone f l)
    (hm : Moves id v f l v' f') : Exclusive f' := by
  cases hm with
  | start job hi => exact h.update fun j s _ _ hr => by simp [Journal.InSection, Journal.initial] at hr
  | @act _ _ i r e hi _ ha =>
    refine h.update fun j s hj hji hr' => ?_
    by_cases hr : r.InSection
    · exact h.others hi hr hj hji
    · exact hl r hi hr hr' j s hj
  | crash _ _ => exact h.erase
  | expire => exact h

end Section
end Outbound
