import Pivotal.Outbound.Protocol

/-! At most one `POST /transfers` for a transfer, as long as the lock outlives the section
it guards and an execution that has sent its request leaves nothing cached behind. -/
namespace Outbound
open Fspiop Async

variable {ι : Type} {id : String}

/-- Only `acceptQuote = true` executions are started. -/
def AcceptsQuote (l : Label ι OutboundOp OutboundAnswer (JobOf id)) : Prop :=
  match l with
  | .start _ job => ∃ input, job.val = .acceptQuote input ∧ input.acceptQuote = true
  | _ => True

/-- The conditions of the result: an execution that has sent its transfer leaves its section
only when the transfer is no longer cached. -/
structure SendsOnce (v : View) (f : Journals ι)
    (l : Label ι OutboundOp OutboundAnswer (JobOf id)) : Prop where
  acceptsQuote : AcceptsQuote l
  entersAlone : EntersAlone f l
  cleansUp : ∀ r, Leaves f l r → r.transferPosted = true → v.cached = none

/-- With the section to itself, an execution only has to clean up. -/
theorem SendsOnce.ofAlone {v : View} {f : Journals ι} {i : ι} {r : Journal}
    {e : Event OutboundOp OutboundAnswer} (hi : f i = some r)
    (hothers : ∀ j s, f j = some s → j ≠ i → ¬ s.InSection)
    (h : r.InSection → ¬ (r.next e.op e.answer).InSection → r.transferPosted = true →
      v.cached = none) : SendsOnce v f (.call (κ := JobOf id) i e) where
  acceptsQuote := trivial
  entersAlone := entersAlone_of_others hi hothers
  cleansUp r' := by
    rintro ⟨hr', hin, hout⟩
    obtain rfl : r = r' := Option.some.inj (hi.symm.trans hr')
    exact h hin hout

/-- The invariant of the executions of `acceptQuote`. -/
structure SentOnce (v : View) (f : Journals ι) : Prop where
  exclusive : Exclusive f
  quoteless : ∀ i r, f i = some r →
    (∃ input, r.job = .acceptQuote input) ∧ r.quotePosted = false
  unsent : ∀ i r, f i = some r → r.InSection → r.loaded.isSome → r.transferPosted = false →
    v.transfersSent = []
  cleared : v.transfersSent = [] ∨ v.cached = none ∨
    ∃ i r, f i = some r ∧ r.InSection ∧ r.transferPosted = true
  atMostOne : v.transfersSent.length ≤ 1

namespace SentOnce

variable {v v' : View} {f : Journals ι} {i : ι} {r r' : Journal}

theorem not_mayRequestQuote (h : SentOnce v f) (hi : f i = some r) : ¬ r.MayRequestQuote := by
  rintro ⟨-, ⟨input, hjob⟩, -⟩
  obtain ⟨⟨input', hjob'⟩, -⟩ := h.quoteless i r hi
  simp [hjob] at hjob'

/-- Whoever loads or stores the cached transfer does so before anything is sent. -/
theorem unsent_of_cached (h : SentOnce v f) (hi : f i = some r) (hr : r.InSection)
    (ht : r.transferPosted = false) (hc : v.cached ≠ none) : v.transfersSent = [] := by
  rcases h.cleared with h₀ | h₀ | ⟨j, s, hj, hs, hsent⟩
  · exact h₀
  · exact absurd h₀ hc
  · obtain rfl := h.exclusive j i s r hj hi hs hr
    obtain rfl : r = s := by simpa [hi] using hj
    simp [ht] at hsent

theorem unsent_of_mayStore (h : SentOnce v f) (hi : f i = some r) (hr : r.InSection)
    {value : TransferRequest} (hs : r.MayStore value) : v.transfersSent = [] := by
  rcases hs with ⟨tr, hl, -, -, -, ht⟩ | ⟨hq, -⟩
  · exact h.unsent i r hi hr (by simp [hl]) ht
  · simp [(h.quoteless i r hi).2] at hq

theorem quoteless_act (h : SentOnce v f) (hi : f i = some r) (ha : Acts v r v' r') :
    (∃ input, r'.job = .acceptQuote input) ∧ r'.quotePosted = false := by
  have hr := h.quoteless i r hi
  cases ha with
  | loseQuotes _ hp => exact absurd hp (h.not_mayRequestQuote hi)
  | sendQuotes _ _ hp => exact absurd hp (h.not_mayRequestQuote hi)
  | _ => exact hr

theorem unsent_act (h : SentOnce v f) (hi : f i = some r) (ha : Acts v r v' r')
    (hr' : r'.InSection) (hl : r'.loaded.isSome) (ht : r'.transferPosted = false) :
    v'.transfersSent = [] := by
  cases ha with
  | idle => exact h.unsent i r hi hr' hl ht
  | enter hr =>
    rw [hr] at hl
    simp [Journal.initial] at hl
  | load hs hr hc => exact h.unsent_of_cached hi hs ht (by simp [hc])
  | store hs hstore => exact h.unsent_of_mayStore hi hs hstore
  | drop hs => exact h.unsent i r hi hs hl ht
  | complete hs _ _ => exact h.unsent i r hi hs hl ht
  | loseQuotes hs _ => exact h.unsent i r hi hs hl ht
  | sendQuotes _ hs _ => exact h.unsent i r hi hs hl ht
  | loseTransfers => simp at ht
  | sendTransfers => simp at ht
  | leave hs => simp [Journal.InSection] at hr'

/-- Only the execution that sends changes what was sent, and nobody else is inside then. -/
theorem unsent_others (h : SentOnce v f) (hi : f i = some r) (ha : Acts v r v' r') {j : ι}
    {s : Journal} (hji : j ≠ i) (hj : f j = some s) (hs : s.InSection) (hl : s.loaded.isSome)
    (ht : s.transferPosted = false) : v'.transfersSent = [] := by
  have hv := h.unsent j s hj hs hl ht
  cases ha with
  | sendTransfers body hr _ => exact absurd hs (h.exclusive.others hi hr hj hji)
  | _ => exact hv

theorem atMostOne_act (h : SentOnce v f) (hi : f i = some r) (ha : Acts v r v' r') :
    v'.transfersSent.length ≤ 1 := by
  cases ha with
  | sendTransfers body hs hp =>
    obtain ⟨ht, -, tr, quote, hl, -⟩ := hp
    simp [h.unsent i r hi hs (by simp [hl]) ht]
  | _ => exact h.atMostOne

theorem initial (cached : Option TransferRequest) :
    SentOnce ((Shared.initial id cached).view id) (fun _ : ι => none) where
  exclusive _ _ _ _ h := by simp at h
  quoteless _ _ h := by simp at h
  unsent _ _ h := by simp at h
  cleared := .inl rfl
  atMostOne := Nat.zero_le 1

end SentOnce

variable [DecidableEq ι]

namespace SentOnce

variable {v v' : View} {f : Journals ι} {i : ι} {r r' : Journal}

theorem cleared_act (h : SentOnce v f) (hi : f i = some r) (ha : Acts v r v' r')
    (halone : ¬ r.InSection → r'.InSection → ∀ j s, f j = some s → ¬ s.InSection)
    (hclean : r.InSection → ¬ r'.InSection → r.transferPosted = true → v.cached = none) :
    v'.transfersSent = [] ∨ v'.cached = none ∨
      ∃ j s, Function.update f i (some r') j = some s ∧ s.InSection ∧ s.transferPosted = true := by
  have hkeep : (r.InSection ∧ r.transferPosted = true → r'.InSection ∧ r'.transferPosted = true) →
      v.transfersSent = [] ∨ v.cached = none ∨
        ∃ j s, Function.update f i (some r') j = some s ∧ s.InSection ∧ s.transferPosted = true :=
    fun hP => h.cleared.imp_right (Or.imp_right (exists_update hi hP))
  cases ha with
  | idle => exact hkeep id
  | enter hr =>
    refine h.cleared.imp_right (Or.imp_right ?_)
    rintro ⟨j, s, hj, hs, -⟩
    refine absurd hs (halone ?_ ?_ j s hj)
    · rw [hr]
      simp [Journal.InSection, Journal.initial]
    · rw [hr]
      simp [Journal.InSection, Journal.initial]
  | load _ _ _ => exact hkeep id
  | store hs hstore => exact .inl (h.unsent_of_mayStore hi hs hstore)
  | drop _ => exact .inr (.inl rfl)
  | complete _ _ _ => exact hkeep id
  | loseQuotes _ hp => exact absurd hp (h.not_mayRequestQuote hi)
  | sendQuotes _ _ hp => exact absurd hp (h.not_mayRequestQuote hi)
  | loseTransfers body hs _ => exact hkeep fun _ => ⟨hs, rfl⟩
  | sendTransfers body hs _ => exact .inr (.inr ⟨i, _, Function.update_self .., hs, rfl⟩)
  | leave hs =>
    by_cases ht : r.transferPosted = true
    · exact .inr (.inl (hclean hs (by simp [Journal.InSection]) ht))
    · exact hkeep fun hp => absurd hp.2 ht

theorem moves (h : SentOnce v f) {f' : Journals ι}
    {l : Label ι OutboundOp OutboundAnswer (JobOf id)} (hl : SendsOnce v f l)
    (hm : Moves id v f l v' f') : SentOnce v' f' := by
  have hexclusive := exclusive_moves h.exclusive hl.entersAlone hm
  cases hm with
  | @start _ i job hi =>
    obtain ⟨input, hjob, -⟩ := hl.acceptsQuote
    refine ⟨hexclusive, forall_update.mpr ⟨⟨⟨input, hjob⟩, rfl⟩, fun j r _ => h.quoteless j r⟩,
      forall_update.mpr ⟨fun hr => ?_, fun j r _ => h.unsent j r⟩, ?_, h.atMostOne⟩
    · simp [Journal.InSection, Journal.initial] at hr
    · refine h.cleared.imp_right (Or.imp_right ?_)
      rintro ⟨j, s, hj, hs⟩
      have hji : j ≠ i := by
        rintro rfl
        simp [hi] at hj
      exact ⟨j, s, by rwa [Function.update_of_ne hji], hs⟩
  | @act _ _ i r e hi _ ha =>
    have hclean := hl.cleansUp r
    exact ⟨hexclusive, forall_update.mpr ⟨h.quoteless_act hi ha, fun j s _ => h.quoteless j s⟩,
      forall_update.mpr ⟨h.unsent_act hi ha, fun j s hji hj => h.unsent_others hi ha hji hj⟩,
      h.cleared_act hi ha (hl.entersAlone r hi) fun hr hr' => hclean ⟨hi, hr, hr'⟩,
      h.atMostOne_act hi ha⟩
  | @crash _ i r hi _ =>
    refine ⟨hexclusive, fun j s hj => h.quoteless j s (of_update_none hj).2,
      fun j s hj => h.unsent j s (of_update_none hj).2, ?_, h.atMostOne⟩
    rcases h.cleared with h₀ | h₀ | ⟨j, s, hj, hs, ht⟩
    · exact .inl h₀
    · exact .inr (.inl h₀)
    · by_cases hji : j = i
      · subst hji
        exact .inr (.inl (hl.cleansUp s ⟨hj, hs⟩ ht))
      · exact .inr (.inr ⟨j, s, by rwa [Function.update_of_ne hji], hs, ht⟩)
  | expire hv =>
    rcases hv with rfl | rfl
    · exact h
    · exact ⟨hexclusive, h.quoteless, h.unsent, .inr (.inl rfl), h.atMostOne⟩

end SentOnce

/-- Over every run whose steps meet the conditions, one `POST /transfers` at most is sent. -/
theorem transfers_sent_at_most_once (settings : OutboundSettings) (cached : Option TransferRequest)
    {c : Config ι OutboundOp OutboundAnswer JsError OutboundOutput (JobOf id) Shared}
    (h : (outbound settings id).Reaches
      (fun c l => SendsOnce (c.shared.view id) (c.records (journal id) fun job => .initial job.val) l)
      (.initial (.initial id cached)) c) :
    c.shared.transfersSent.length ≤ 1 := by
  have hinv := h.records_invariant (fun s f l => SendsOnce (s.view id) f l)
    (fun s f => SentOnce (s.view id) f) (obeys_entry settings id) ?_ ?_
  · exact hinv.atMostOne
  · exact SentOnce.initial cached
  · exact fun s f l s' f' hP hl hm => hP.moves hl (moves_of_move hm)

/-- What `SendsOnce.ofAlone` asks of a call, in a run of the job alone. -/
def TransferCleanup (s : Shared) (t : List (Event OutboundOp OutboundAnswer))
    (e : Event OutboundOp OutboundAnswer) : Prop :=
  let r := (journal "x").after (.initial sampleAcceptQuote.val) t
  r.InSection → ¬ (r.next e.op e.answer).InSection → r.transferPosted = true →
    s.transfers "x" = none

instance (s : Shared) (t : List (Event OutboundOp OutboundAnswer))
    (e : Event OutboundOp OutboundAnswer) : Decidable (TransferCleanup s t e) :=
  inferInstanceAs (Decidable (_ → _ → _ → _))

/-- The request is sent and no callback arrives; the quote is then accepted once more. -/
theorem transfers_sent_at_most_once_sample :
    ∃ c : Config Bool OutboundOp OutboundAnswer JsError OutboundOutput (JobOf "x") Shared,
      (∀ i, ((c.process i).map fun p => p.program.result.isSome) = some true) ∧
      c.shared.transfersSent ≠ [] ∧ c.shared.transfersSent.length ≤ 1 := by
  have hanswers := performs_respond (fun op => op matches .transfersCallback _) sampleQuote
    sampleCallback
  have hstart : (outbound sampleSettings "x").Reaches (fun c l => SendsOnce (ι := Bool)
      (c.shared.view "x") (c.records (journal "x") fun job => .initial job.val) l)
      (.initial (.initial "x" (some (sampleTransfer (some sampleQuote))))) _ := .refl
  have hfirst := hstart.solo false sampleAcceptQuote rfl hanswers
    ⟨⟨_, rfl, rfl⟩, trivial, fun _ h => h.elim⟩ ?_
  · have hsecond := hfirst.solo true sampleAcceptQuote (Config.put_ne _ (by decide) _) hanswers
      ⟨⟨_, rfl, rfl⟩, trivial, fun _ h => h.elim⟩ ?_
    · refine ⟨_, ?_, ?_, transfers_sent_at_most_once sampleSettings _ hsecond⟩
      · rintro (_ | _) <;> rfl
      · decide +kernel
    · refine Program.SoloAll.mono (P := TransferCleanup) ?_ (by decide +kernel)
      intro s t e he p
      refine .ofAlone (Config.records_eq (Config.put_self _ true _)) (fun j r hj hji => ?_) he
      obtain rfl : j = false := by simpa using hji
      simp only [Config.records_put, Config.records_withShared, Function.update_of_ne hji,
        Function.update_self, Option.map_some, Option.some.injEq] at hj
      rw [← hj]
      decide +kernel
  · refine Program.SoloAll.mono (P := TransferCleanup) ?_ (by decide +kernel)
    intro s t e he p
    exact .ofAlone (Config.records_eq (Config.put_self _ false _))
      (fun j r hj hji => by simp [Function.update_of_ne hji] at hj) he

/-- Without the conditions there are two: while every `DEL` of the cached transfer fails,
two executions, one after the other, both send their request. -/
theorem not_transfers_sent_at_most_once :
    ¬ ∀ c : Config Bool OutboundOp OutboundAnswer JsError OutboundOutput (JobOf "x") Shared,
      (outbound sampleSettings "x").Reaches (fun _ l => AcceptsQuote l)
        (.initial (.initial "x" (some (sampleTransfer (some sampleQuote))))) c →
      c.shared.transfersSent.length ≤ 1 := by
  intro h
  have hanswers := performs_respond
    (fun op => op matches .redisDel _) sampleQuote sampleCallback
  have hstart : (outbound sampleSettings "x").Reaches (fun _ l => AcceptsQuote (ι := Bool) l)
      (.initial (.initial "x" (some (sampleTransfer (some sampleQuote))))) _ := .refl
  have hfirst := hstart.solo false sampleAcceptQuote rfl hanswers ⟨_, rfl, rfl⟩
    (Program.soloAll_of_forall (fun _ _ _ _ => trivial) _ _ _)
  have hsecond := hfirst.solo true sampleAcceptQuote (Config.put_ne _ (by decide) _) hanswers
    ⟨_, rfl, rfl⟩ (Program.soloAll_of_forall (fun _ _ _ _ => trivial) _ _ _)
  refine absurd (h _ hsecond) ?_
  decide +kernel

end Outbound
