import Pivotal.Outbound.Protocol

/-! At most one `POST /quotes` for a transfer, and every `POST /transfers` carries the quote
that an `acceptParty` returned, as long as the lock outlives its section and an `acceptParty`
that has sent its request either returns the quote or leaves nothing cached. -/
namespace Outbound
open Fspiop Async

variable {ι : Type} {id : String}

/-- The conditions of the result. A completed execution may only leave by its release call,
after which it returns. -/
structure QuotesSafely (v : View) (f : Journals ι)
    (l : Label ι OutboundOp OutboundAnswer (JobOf id)) : Prop where
  entersAlone : EntersAlone f l
  cleansUp : ∀ r, Leaves f l r → r.quotePosted = true →
    (r.completed = true ∧ ∃ i e, l = .call i e) ∨ v.cached = none

/-- With the section to itself, an execution only has to clean up or complete. -/
theorem QuotesSafely.ofAlone {v : View} {f : Journals ι} {i : ι} {r : Journal}
    {e : Event OutboundOp OutboundAnswer} (hi : f i = some r)
    (hothers : ∀ j s, f j = some s → j ≠ i → ¬ s.InSection)
    (h : r.InSection → ¬ (r.next e.op e.answer).InSection → r.quotePosted = true →
      r.completed = true ∨ v.cached = none) :
    QuotesSafely v f (.call (κ := JobOf id) i e) where
  entersAlone := entersAlone_of_others hi hothers
  cleansUp r' := by
    rintro ⟨hr', hin, hout⟩ hq
    obtain rfl : r = r' := Option.some.inj (hi.symm.trans hr')
    exact (h hin hout hq).imp_left fun hc => ⟨hc, i, e, rfl⟩

/-- Some `acceptParty` has completed with the quote and released its lock. -/
def Returned (f : Journals ι) (quote : QuotesIDPutResponse) : Prop :=
  ∃ i r, f i = some r ∧ r.released = true ∧ r.completed = true ∧ r.stored = some quote

/-- The invariant of the executions of one transfer. -/
structure QuotedOnce (v : View) (f : Journals ι) : Prop where
  exclusive : Exclusive f
  fresh : ∀ i r tr, f i = some r → r.InSection → r.loaded = some tr → tr.quotes = none →
    r.quotePosted = false → v.quotesSent = []
  storedPosted : ∀ i r, f i = some r → r.stored.isSome ∨ r.completed = true →
    r.stored.isSome ∧ r.quotePosted = true
  storedCached : ∀ i r quote, f i = some r → r.InSection → r.stored = some quote →
    ∀ tr, v.cached = some tr → tr.quotes = some quote
  unquoted : v.quotesSent = [] ∨ (∀ tr, v.cached = some tr → tr.quotes.isSome) ∨
    ∃ i r, f i = some r ∧ r.InSection ∧ r.quotePosted = true
  cachedReturned : ∀ tr quote, v.cached = some tr → tr.quotes = some quote →
    Returned f quote ∨ ∃ i r, f i = some r ∧ r.InSection ∧ r.quotePosted = true
  loadedReturned : ∀ i r tr quote, f i = some r → r.InSection → r.loaded = some tr →
    tr.quotes = some quote → Returned f quote
  sentReturned : ∀ body ∈ v.transfersSent, ∃ quote, Journal.Carries body quote ∧ Returned f quote
  atMostOne : v.quotesSent.length ≤ 1

namespace QuotedOnce

variable {v v' : View} {f : Journals ι} {i : ι} {r r' : Journal}

theorem initial {cached : Option TransferRequest} (h : ∀ tr, cached = some tr → tr.quotes = none) :
    QuotedOnce ((Shared.initial id cached).view id) (fun _ : ι => none) where
  exclusive _ _ _ _ hi := by simp at hi
  fresh _ _ _ hi := by simp at hi
  storedPosted _ _ hi := by simp at hi
  storedCached _ _ _ hi := by simp at hi
  unquoted := .inl rfl
  cachedReturned tr quote hc hq := by
    have hcached : cached = some tr := by simpa [Shared.view, Shared.initial] using hc
    simp [h tr hcached] at hq
  loadedReturned _ _ _ _ hi := by simp at hi
  sentReturned := by simp [Shared.view, Shared.initial]
  atMostOne := Nat.zero_le 1

/-- A holder of the section that has posted its quote can only be the execution itself. -/
theorem not_holder (h : QuotedOnce v f) (hi : f i = some r) (hr : r.InSection)
    (hq : r.quotePosted = false) : ¬ ∃ j s, f j = some s ∧ s.InSection ∧ s.quotePosted = true := by
  rintro ⟨j, s, hj, hs, hsent⟩
  obtain rfl := h.exclusive j i s r hj hi hs hr
  obtain rfl : r = s := Option.some.inj (hi.symm.trans hj)
  simp [hq] at hsent

theorem fresh_of_cached (h : QuotedOnce v f) (hi : f i = some r) (hr : r.InSection)
    (hq : r.quotePosted = false) {tr : TransferRequest} (hc : v.cached = some tr)
    (hn : tr.quotes = none) : v.quotesSent = [] := by
  rcases h.unquoted with h₀ | h₀ | h₀
  · exact h₀
  · simpa [hn] using h₀ tr hc
  · exact absurd h₀ (h.not_holder hi hr hq)

theorem returned_of_cached (h : QuotedOnce v f) (hi : f i = some r) (hr : r.InSection)
    (hq : r.quotePosted = false) {tr : TransferRequest} {quote : QuotesIDPutResponse}
    (hc : v.cached = some tr) (hn : tr.quotes = some quote) : Returned f quote :=
  (h.cachedReturned tr quote hc hn).resolve_right (h.not_holder hi hr hq)

theorem fresh_act (h : QuotedOnce v f) (hi : f i = some r) (ha : Acts v r v' r')
    {tr : TransferRequest} (hr' : r'.InSection) (hl : r'.loaded = some tr) (hn : tr.quotes = none)
    (hq : r'.quotePosted = false) : v'.quotesSent = [] := by
  cases ha with
  | idle => exact h.fresh i r tr hi hr' hl hn hq
  | enter hr =>
    rw [hr] at hl
    simp [Journal.initial] at hl
  | load hs hr hc =>
    obtain rfl := Option.some.inj hl
    exact h.fresh_of_cached hi hs hq hc hn
  | store hs _ => exact h.fresh i r tr hi hs hl hn hq
  | drop hs => exact h.fresh i r tr hi hs hl hn hq
  | complete hs _ _ => exact h.fresh i r tr hi hs hl hn hq
  | loseQuotes => simp at hq
  | sendQuotes => simp at hq
  | loseTransfers _ hs _ => exact h.fresh i r tr hi hs hl hn hq
  | sendTransfers _ hs _ => exact h.fresh i r tr hi hs hl hn hq
  | leave hs => simp [Journal.InSection] at hr'

theorem fresh_others (h : QuotedOnce v f) (hi : f i = some r) (ha : Acts v r v' r') {j : ι}
    {s : Journal} (hji : j ≠ i) (hj : f j = some s) {tr : TransferRequest} (hs : s.InSection)
    (hl : s.loaded = some tr) (hn : tr.quotes = none) (hq : s.quotePosted = false) :
    v'.quotesSent = [] := by
  have hv := h.fresh j s tr hj hs hl hn hq
  cases ha with
  | sendQuotes body hr _ => exact absurd hs (h.exclusive.others hi hr hj hji)
  | _ => exact hv

theorem storedPosted_act (h : QuotedOnce v f) (hi : f i = some r) (ha : Acts v r v' r')
    (hs : r'.stored.isSome ∨ r'.completed = true) : r'.stored.isSome ∧ r'.quotePosted = true := by
  have hr := h.storedPosted i r hi
  cases ha with
  | store _ hstore =>
    rcases hstore with ⟨-, -, -, -, hq, -⟩ | ⟨hq, hnone, -⟩
    · rw [Journal.afterSet_unposted hq] at hs ⊢
      exact hr hs
    · refine ⟨hs.resolve_right fun hc => ?_, hq⟩
      simpa [hnone] using (hr (.inr hc)).1
  | complete _ hstored _ => exact hr (.inl hstored)
  | loseQuotes => exact ⟨(hr hs).1, rfl⟩
  | sendQuotes => exact ⟨(hr hs).1, rfl⟩
  | _ => exact hr hs

theorem storedCached_act (h : QuotedOnce v f) (hi : f i = some r) (ha : Acts v r v' r')
    {quote : QuotesIDPutResponse} (hr' : r'.InSection) (hs : r'.stored = some quote)
    (tr : TransferRequest) (hc : v'.cached = some tr) : tr.quotes = some quote := by
  cases ha with
  | idle => exact h.storedCached i r quote hi hr' hs tr hc
  | enter hr =>
    rw [hr] at hs
    simp [Journal.initial] at hs
  | load hin _ _ => exact h.storedCached i r quote hi hin hs tr hc
  | store hin hstore =>
    obtain rfl := Option.some.inj hc
    rcases hstore with ⟨-, -, -, -, hq, -⟩ | ⟨-, hnone, -⟩
    · rw [Journal.afterSet_unposted hq] at hs
      simpa [hq] using (h.storedPosted i r hi (.inl (by simp [hs]))).2
    · simp only [Journal.afterSet, hnone] at hs
      split at hs
      · exact hs
      · cases hs
  | drop => simp at hc
  | complete hin _ _ => exact h.storedCached i r quote hi hin hs tr hc
  | loseQuotes hin _ => exact h.storedCached i r quote hi hin hs tr hc
  | sendQuotes _ hin _ => exact h.storedCached i r quote hi hin hs tr hc
  | loseTransfers _ hin _ => exact h.storedCached i r quote hi hin hs tr hc
  | sendTransfers _ hin _ => exact h.storedCached i r quote hi hin hs tr hc
  | leave => simp [Journal.InSection] at hr'

theorem storedCached_others (h : QuotedOnce v f) (hi : f i = some r) (ha : Acts v r v' r')
    {j : ι} {s : Journal} (hji : j ≠ i) (hj : f j = some s) {quote : QuotesIDPutResponse}
    (hs : s.InSection) (hstored : s.stored = some quote) (tr : TransferRequest)
    (hc : v'.cached = some tr) : tr.quotes = some quote := by
  have hv := h.storedCached j s quote hj hs hstored tr
  cases ha with
  | store hr _ => exact absurd hs (h.exclusive.others hi hr hj hji)
  | drop => simp at hc
  | _ => exact hv hc

end QuotedOnce

section Steps

variable [DecidableEq ι] {v v' : View} {f : Journals ι} {i : ι} {r r' : Journal}

theorem Returned.update {quote : QuotesIDPutResponse} (h : Returned f quote) (hi : f i = some r)
    (hr : r.released = false) (x : Option Journal) : Returned (Function.update f i x) quote := by
  obtain ⟨j, s, hj, hs, hrest⟩ := h
  have hji : j ≠ i := by
    rintro rfl
    obtain rfl : r = s := Option.some.inj (hi.symm.trans hj)
    simp [hr] at hs
  exact ⟨j, s, by rwa [Function.update_of_ne hji], hs, hrest⟩

namespace QuotedOnce

theorem unquoted_act (h : QuotedOnce v f) (hi : f i = some r) (ha : Acts v r v' r')
    (halone : ¬ r.InSection → r'.InSection → ∀ j s, f j = some s → ¬ s.InSection)
    (hclean : r.InSection → ¬ r'.InSection → r.quotePosted = true →
      r.completed = true ∨ v.cached = none) :
    v'.quotesSent = [] ∨ (∀ tr, v'.cached = some tr → tr.quotes.isSome) ∨
      ∃ j s, Function.update f i (some r') j = some s ∧ s.InSection ∧ s.quotePosted = true := by
  have hkeep : (r.InSection ∧ r.quotePosted = true → r'.InSection ∧ r'.quotePosted = true) →
      v.quotesSent = [] ∨ (∀ tr, v.cached = some tr → tr.quotes.isSome) ∨
        ∃ j s, Function.update f i (some r') j = some s ∧ s.InSection ∧ s.quotePosted = true :=
    fun hP => h.unquoted.imp_right (Or.imp_right (exists_update hi hP))
  cases ha with
  | idle => exact hkeep (fun hp => hp)
  | enter hr =>
    refine h.unquoted.imp_right (Or.imp_right ?_)
    rintro ⟨j, s, hj, hs, -⟩
    refine absurd hs (halone ?_ ?_ j s hj)
    · rw [hr]
      simp [Journal.InSection, Journal.initial]
    · rw [hr]
      simp [Journal.InSection, Journal.initial]
  | load _ _ _ => exact hkeep (fun hp => hp)
  | store hs hstore =>
    rcases hstore with ⟨tr, hl, hquotes, -, hq, -⟩ | ⟨-, -, hsome, -⟩
    · cases hn : tr.quotes with
      | none => exact .inl (h.fresh i r tr hi hs hl hn hq)
      | some quote =>
        refine .inr (.inl fun tr' hc => ?_)
        obtain rfl := Option.some.inj hc
        simp [hquotes, hn]
    · refine .inr (.inl fun tr' hc => ?_)
      obtain rfl := Option.some.inj hc
      exact hsome
  | drop => exact .inr (.inl fun _ hc => by simp at hc)
  | complete _ _ _ => exact hkeep (fun hp => hp)
  | loseQuotes hs _ => exact .inr (.inr ⟨i, _, Function.update_self .., hs, rfl⟩)
  | sendQuotes _ hs _ => exact .inr (.inr ⟨i, _, Function.update_self .., hs, rfl⟩)
  | loseTransfers _ _ _ => exact hkeep (fun hp => hp)
  | sendTransfers _ _ _ => exact hkeep (fun hp => hp)
  | leave hs =>
    by_cases hq : r.quotePosted = true
    · rcases hclean hs (by simp [Journal.InSection]) hq with hc | hc
      · obtain ⟨quote, hstored⟩ := Option.isSome_iff_exists.mp (h.storedPosted i r hi (.inr hc)).1
        exact .inr (.inl fun tr htr => by simp [h.storedCached i r quote hi hs hstored tr htr])
      · exact .inr (.inl fun _ htr => by simp [hc] at htr)
    · exact hkeep fun hp => absurd hp.2 hq

theorem cachedReturned_act (h : QuotedOnce v f) (hi : f i = some r) (hrel : r.released = false)
    (ha : Acts v r v' r')
    (halone : ¬ r.InSection → r'.InSection → ∀ j s, f j = some s → ¬ s.InSection)
    (hclean : r.InSection → ¬ r'.InSection → r.quotePosted = true →
      r.completed = true ∨ v.cached = none) {tr : TransferRequest} {quote : QuotesIDPutResponse}
    (hc : v'.cached = some tr) (hn : tr.quotes = some quote) :
    Returned (Function.update f i (some r')) quote ∨
      ∃ j s, Function.update f i (some r') j = some s ∧ s.InSection ∧ s.quotePosted = true := by
  have hkeep : (r.InSection ∧ r.quotePosted = true → r'.InSection ∧ r'.quotePosted = true) →
      v.cached = some tr → Returned (Function.update f i (some r')) quote ∨
        ∃ j s, Function.update f i (some r') j = some s ∧ s.InSection ∧ s.quotePosted = true :=
    fun hP hcached => (h.cachedReturned tr quote hcached hn).imp
      (fun hret => hret.update hi hrel _) (exists_update hi hP)
  cases ha with
  | idle => exact hkeep (fun hp => hp) hc
  | enter hr =>
    rcases h.cachedReturned tr quote hc hn with hret | ⟨j, s, hj, hs, -⟩
    · exact .inl (hret.update hi hrel _)
    · refine absurd hs (halone ?_ ?_ j s hj)
      · rw [hr]
        simp [Journal.InSection, Journal.initial]
      · rw [hr]
        simp [Journal.InSection, Journal.initial]
  | load _ _ _ => exact hkeep (fun hp => hp) hc
  | store hs hstore =>
    obtain rfl := Option.some.inj hc
    rcases hstore with ⟨tr, hl, hquotes, -⟩ | ⟨hq, -⟩
    · exact .inl ((h.loadedReturned i r tr quote hi hs hl (hquotes ▸ hn)).update hi hrel _)
    · exact .inr ⟨i, _, Function.update_self .., hs, hq⟩
  | drop => simp at hc
  | complete _ _ _ => exact hkeep (fun hp => hp) hc
  | loseQuotes hs _ => exact .inr ⟨i, _, Function.update_self .., hs, rfl⟩
  | sendQuotes _ hs _ => exact .inr ⟨i, _, Function.update_self .., hs, rfl⟩
  | loseTransfers _ _ _ => exact hkeep (fun hp => hp) hc
  | sendTransfers _ _ _ => exact hkeep (fun hp => hp) hc
  | leave hs =>
    by_cases hq : r.quotePosted = true
    · rcases hclean hs (by simp [Journal.InSection]) hq with hcomplete | hnone
      · obtain ⟨stored, hstored⟩ :=
          Option.isSome_iff_exists.mp (h.storedPosted i r hi (.inr hcomplete)).1
        have hsame := h.storedCached i r stored hi hs hstored tr hc
        obtain rfl : quote = stored := Option.some.inj (hn.symm.trans hsame)
        exact .inl ⟨i, _, Function.update_self .., rfl, hcomplete, hstored⟩
      · simp [hnone] at hc
    · exact hkeep (fun hp => absurd hp.2 hq) hc

theorem loadedReturned_act (h : QuotedOnce v f) (hi : f i = some r) (hrel : r.released = false)
    (ha : Acts v r v' r') {tr : TransferRequest} {quote : QuotesIDPutResponse}
    (hr' : r'.InSection) (hl : r'.loaded = some tr) (hn : tr.quotes = some quote) :
    Returned (Function.update f i (some r')) quote := by
  have hold : r.InSection → r.loaded = some tr → Returned (Function.update f i (some r')) quote :=
    fun hs hloaded => (h.loadedReturned i r tr quote hi hs hloaded hn).update hi hrel _
  cases ha with
  | idle => exact hold hr' hl
  | enter hr =>
    rw [hr] at hl
    simp [Journal.initial] at hl
  | load hs hr hc =>
    obtain rfl := Option.some.inj hl
    have hq : r.quotePosted = false := by
      rw [hr]
      rfl
    exact (h.returned_of_cached hi hs hq hc hn).update hi hrel _
  | store hs _ => exact hold hs hl
  | drop hs => exact hold hs hl
  | complete hs _ _ => exact hold hs hl
  | loseQuotes hs _ => exact hold hs hl
  | sendQuotes _ hs _ => exact hold hs hl
  | loseTransfers _ hs _ => exact hold hs hl
  | sendTransfers _ hs _ => exact hold hs hl
  | leave => simp [Journal.InSection] at hr'

theorem sentReturned_act (h : QuotedOnce v f) (hi : f i = some r) (hrel : r.released = false)
    (ha : Acts v r v' r') : ∀ body ∈ v'.transfersSent, ∃ quote, Journal.Carries body quote ∧
      Returned (Function.update f i (some r')) quote := by
  have hold : ∀ body ∈ v.transfersSent, ∃ quote, Journal.Carries body quote ∧
      Returned (Function.update f i (some r')) quote := by
    intro body hbody
    obtain ⟨quote, hcarries, hret⟩ := h.sentReturned body hbody
    exact ⟨quote, hcarries, hret.update hi hrel _⟩
  cases ha with
  | sendTransfers body hs hp =>
    obtain ⟨-, -, tr, quote, hl, -, hn, hcarries⟩ := hp
    intro body' hbody'
    rcases List.mem_append.mp hbody' with hbody' | hbody'
    · exact hold body' hbody'
    · obtain rfl := List.mem_singleton.mp hbody'
      exact ⟨quote, hcarries, (h.loadedReturned i r tr quote hi hs hl hn).update hi hrel _⟩
  | _ => exact hold

omit [DecidableEq ι] in
theorem atMostOne_act (h : QuotedOnce v f) (hi : f i = some r) (ha : Acts v r v' r') :
    v'.quotesSent.length ≤ 1 := by
  cases ha with
  | sendQuotes body hs hp =>
    obtain ⟨hq, -, tr, hl, hn⟩ := hp
    simp [h.fresh i r tr hi hs hl hn hq]
  | _ => exact h.atMostOne

theorem start (h : QuotedOnce v f) (hi : f i = none) (job : OutboundJob) :
    QuotedOnce v (Function.update f i (some (.initial job))) := by
  have hne : ∀ j s, f j = some s → j ≠ i := by
    rintro j s hj rfl
    simp [hi] at hj
  have hret : ∀ quote, Returned f quote →
      Returned (Function.update f i (some (.initial job))) quote := by
    rintro quote ⟨j, s, hj, hrest⟩
    exact ⟨j, s, by rwa [Function.update_of_ne (hne j s hj)], hrest⟩
  have hholder : (∃ j s, f j = some s ∧ s.InSection ∧ s.quotePosted = true) →
      ∃ j s, Function.update f i (some (.initial job)) j = some s ∧ s.InSection ∧
        s.quotePosted = true := by
    rintro ⟨j, s, hj, hs⟩
    exact ⟨j, s, by rwa [Function.update_of_ne (hne j s hj)], hs⟩
  have hout : ¬ (Journal.initial job).InSection := by simp [Journal.InSection, Journal.initial]
  exact {
    exclusive := h.exclusive.update fun _ _ _ _ hr => absurd hr hout
    fresh := fun j r tr => forall_update (P := fun _ r => r.InSection → r.loaded = some tr →
      tr.quotes = none → r.quotePosted = false → v.quotesSent = []).mpr
        ⟨fun hr => absurd hr hout, fun j r _ hj => h.fresh j r tr hj⟩ j r
    storedPosted := forall_update.mpr
      ⟨by simp [Journal.initial], fun j r _ hj => h.storedPosted j r hj⟩
    storedCached := fun j r quote => forall_update (P := fun _ r => r.InSection →
      r.stored = some quote → ∀ tr, v.cached = some tr → tr.quotes = some quote).mpr
        ⟨fun hr => absurd hr hout, fun j r _ hj => h.storedCached j r quote hj⟩ j r
    unquoted := h.unquoted.imp_right (Or.imp_right hholder)
    cachedReturned := fun tr quote hc hn => (h.cachedReturned tr quote hc hn).imp (hret quote) hholder
    loadedReturned := fun j r tr quote => forall_update (P := fun _ r => r.InSection →
      r.loaded = some tr → tr.quotes = some quote → Returned _ quote).mpr
        ⟨fun hr => absurd hr hout, fun j r _ hj hr hl hn =>
          hret quote (h.loadedReturned j r tr quote hj hr hl hn)⟩ j r
    sentReturned := fun body hbody => by
      obtain ⟨quote, hcarries, hq⟩ := h.sentReturned body hbody
      exact ⟨quote, hcarries, hret quote hq⟩
    atMostOne := h.atMostOne }

theorem act (h : QuotedOnce v f) (hexclusive : Exclusive (Function.update f i (some r')))
    (hi : f i = some r) (hrel : r.released = false) (ha : Acts v r v' r')
    (halone : ¬ r.InSection → r'.InSection → ∀ j s, f j = some s → ¬ s.InSection)
    (hclean : r.InSection → ¬ r'.InSection → r.quotePosted = true →
      r.completed = true ∨ v.cached = none) :
    QuotedOnce v' (Function.update f i (some r')) where
  exclusive := hexclusive
  fresh j s tr := forall_update (P := fun _ r => r.InSection → r.loaded = some tr →
    tr.quotes = none → r.quotePosted = false → v'.quotesSent = []).mpr
      ⟨h.fresh_act hi ha, fun _ _ hji hj => h.fresh_others hi ha hji hj⟩ j s
  storedPosted := forall_update.mpr
    ⟨h.storedPosted_act hi ha, fun j s _ hj => h.storedPosted j s hj⟩
  storedCached j s quote := forall_update (P := fun _ r => r.InSection →
    r.stored = some quote → ∀ tr, v'.cached = some tr → tr.quotes = some quote).mpr
      ⟨h.storedCached_act hi ha, fun _ _ hji hj => h.storedCached_others hi ha hji hj⟩ j s
  unquoted := h.unquoted_act hi ha halone hclean
  cachedReturned _ _ := h.cachedReturned_act hi hrel ha halone hclean
  loadedReturned j s tr quote := forall_update (P := fun _ r => r.InSection →
    r.loaded = some tr → tr.quotes = some quote → Returned _ quote).mpr
      ⟨h.loadedReturned_act hi hrel ha, fun j s _ hj hs hl hn =>
        (h.loadedReturned j s tr quote hj hs hl hn).update hi hrel _⟩ j s
  sentReturned := h.sentReturned_act hi hrel ha
  atMostOne := h.atMostOne_act hi ha

theorem crash (h : QuotedOnce v f) (hi : f i = some r) (hrel : r.released = false)
    (hclean : r.InSection → r.quotePosted = true → v.cached = none) :
    QuotedOnce v (Function.update f i none) := by
  have hret : ∀ quote, Returned f quote → Returned (Function.update f i none) quote :=
    fun quote hq => hq.update hi hrel none
  have hholder : (∃ j s, f j = some s ∧ s.InSection ∧ s.quotePosted = true) → v.cached = none ∨
      ∃ j s, Function.update f i none j = some s ∧ s.InSection ∧ s.quotePosted = true := by
    rintro ⟨j, s, hj, hs, hq⟩
    by_cases hji : j = i
    · subst hji
      obtain rfl : r = s := Option.some.inj (hi.symm.trans hj)
      exact .inl (hclean hs hq)
    · exact .inr ⟨j, s, by rwa [Function.update_of_ne hji], hs, hq⟩
  exact {
    exclusive := h.exclusive.erase
    fresh := fun j s tr hj => h.fresh j s tr (of_update_none hj).2
    storedPosted := fun j s hj => h.storedPosted j s (of_update_none hj).2
    storedCached := fun j s quote hj => h.storedCached j s quote (of_update_none hj).2
    unquoted := by
      rcases h.unquoted with h₀ | h₀ | h₀
      · exact .inl h₀
      · exact .inr (.inl h₀)
      · rcases hholder h₀ with hnone | h₀
        · exact .inr (.inl fun _ hc => by simp [hnone] at hc)
        · exact .inr (.inr h₀)
    cachedReturned := fun tr quote hc hn => by
      rcases h.cachedReturned tr quote hc hn with h₀ | h₀
      · exact .inl (hret quote h₀)
      · refine .inr ((hholder h₀).resolve_left fun hnone => ?_)
        simp [hnone] at hc
    loadedReturned := fun j s tr quote hj hs hl hn =>
      hret quote (h.loadedReturned j s tr quote (of_update_none hj).2 hs hl hn)
    sentReturned := fun body hbody => by
      obtain ⟨quote, hcarries, hq⟩ := h.sentReturned body hbody
      exact ⟨quote, hcarries, hret quote hq⟩
    atMostOne := h.atMostOne }

omit [DecidableEq ι] in
theorem expire (h : QuotedOnce v f) : QuotedOnce { v with cached := none } f where
  exclusive := h.exclusive
  fresh := h.fresh
  storedPosted := h.storedPosted
  storedCached _ _ _ _ _ _ _ hc := by simp at hc
  unquoted := .inr (.inl fun _ hc => by simp at hc)
  cachedReturned _ _ hc := by simp at hc
  loadedReturned := h.loadedReturned
  sentReturned := h.sentReturned
  atMostOne := h.atMostOne

theorem moves (h : QuotedOnce v f) {f' : Journals ι}
    {l : Label ι OutboundOp OutboundAnswer (JobOf id)} (hl : QuotesSafely v f l)
    (hm : Moves id v f l v' f') : QuotedOnce v' f' := by
  have hexclusive := exclusive_moves h.exclusive hl.entersAlone hm
  cases hm with
  | start job hi => exact h.start hi job.val
  | @act _ _ i r e hi hrel ha =>
    refine h.act hexclusive hi hrel ha (hl.entersAlone r hi) fun hs hs' hq => ?_
    exact (hl.cleansUp r ⟨hi, hs, hs'⟩ hq).imp_left And.left
  | @crash _ i r hi hrel =>
    refine h.crash hi hrel fun hs hq => (hl.cleansUp r ⟨hi, hs⟩ hq).resolve_left ?_
    rintro ⟨-, j, e, hcall⟩
    cases hcall
  | expire hv =>
    rcases hv with rfl | rfl
    · exact h
    · exact h.expire

end QuotedOnce

/-- One request for a quote at most, and every transfer carries a returned quote. -/
def OneQuote (c : Config ι OutboundOp OutboundAnswer JsError OutboundOutput (JobOf id) Shared) :
    Prop :=
  c.shared.quotesSent.length ≤ 1 ∧ ∀ body ∈ c.shared.transfersSent, ∃ i p output,
    c.process i = some p ∧ p.program = .done (.ok (.acceptParty output)) ∧
      Journal.Carries body output.callback

/-- A completed and released execution has handed its quote to the payer. -/
theorem settled_of_returned {settings : OutboundSettings} {s : Shared}
    {ok : Config ι OutboundOp OutboundAnswer JsError OutboundOutput (JobOf id) Shared →
      Label ι OutboundOp OutboundAnswer (JobOf id) → Prop}
    {c : Config ι OutboundOp OutboundAnswer JsError OutboundOutput (JobOf id) Shared}
    (h : (outbound settings id).Reaches ok (.initial s) c) {quote : QuotesIDPutResponse}
    (hq : Returned (c.records (journal id) fun job => .initial job.val) quote) :
    ∃ i p output, c.process i = some p ∧ p.program = .done (.ok (.acceptParty output)) ∧
      output.callback = quote := by
  obtain ⟨i, r, hi, hreleased, hcompleted, hstored⟩ := hq
  obtain ⟨⟨job, t, program⟩, hp, rfl⟩ := Option.map_eq_some_iff.mp hi
  cases program with
  | call op resume =>
    have hallowed := Journal.unreleased_of_allows (h.allows (obeys_entry settings id) hp)
    rw [hallowed] at hreleased
    cases hreleased
  | done result =>
    have hsettled := h.settled (obeys_entry settings id) hp
    obtain ⟨output, rfl, hout⟩ := hsettled hcompleted
    exact ⟨i, _, output, hp, rfl, Option.some.inj (hout.symm.trans hstored)⟩

/-- Over every run whose steps meet the conditions. -/
theorem one_quote (settings : OutboundSettings) {cached : Option TransferRequest}
    (hcached : ∀ tr, cached = some tr → tr.quotes = none)
    {c : Config ι OutboundOp OutboundAnswer JsError OutboundOutput (JobOf id) Shared}
    (h : (outbound settings id).Reaches (fun c l =>
      QuotesSafely (c.shared.view id) (c.records (journal id) fun job => .initial job.val) l)
      (.initial (.initial id cached)) c) : OneQuote c := by
  have hinv := h.records_invariant (fun s f l => QuotesSafely (s.view id) f l)
    (fun s f => QuotedOnce (s.view id) f) (obeys_entry settings id) (.initial hcached)
    fun s f l s' f' hP hl hm => hP.moves hl (moves_of_move hm)
  refine ⟨hinv.atMostOne, fun body hbody => ?_⟩
  obtain ⟨quote, hcarries, hret⟩ := hinv.sentReturned body hbody
  obtain ⟨i, p, output, hp, hdone, rfl⟩ := settled_of_returned h hret
  exact ⟨i, p, output, hp, hdone, hcarries⟩

end Steps

def sampleAcceptParty : JobOf "x" := ⟨.acceptParty ⟨"x", true, "1", none, none⟩, rfl⟩

/-- What `QuotesSafely.ofAlone` asks of a call, in a run of the job alone. -/
def QuoteCleanup (job : OutboundJob) (s : Shared) (t : List (Event OutboundOp OutboundAnswer))
    (e : Event OutboundOp OutboundAnswer) : Prop :=
  let r := (journal "x").after (.initial job) t
  r.InSection → ¬ (r.next e.op e.answer).InSection → r.quotePosted = true →
    r.completed = true ∨ s.transfers "x" = none

instance (job : OutboundJob) (s : Shared) (t : List (Event OutboundOp OutboundAnswer))
    (e : Event OutboundOp OutboundAnswer) : Decidable (QuoteCleanup job s t e) :=
  inferInstanceAs (Decidable (_ → _ → _ → _))

/-- An `acceptParty` and then an `acceptQuote`, with nothing failing. -/
theorem one_quote_sample :
    ∃ c : Config Bool OutboundOp OutboundAnswer JsError OutboundOutput (JobOf "x") Shared,
      c.shared.transfersSent.length = 1 ∧ OneQuote c := by
  have hanswers := performs_respond (fun _ => false) sampleQuote sampleCallback
  have hstart : (outbound sampleSettings "x").Reaches (fun c l => QuotesSafely (ι := Bool)
      (c.shared.view "x") (c.records (journal "x") fun job => .initial job.val) l)
      (.initial (.initial "x" (some (sampleTransfer none)))) _ := .refl
  have hfirst : (sampleAcceptParty.val.execute sampleSettings).SoloAll
      (respond (fun _ => false) sampleQuote sampleCallback) (QuoteCleanup sampleAcceptParty.val)
      (.initial "x" (some (sampleTransfer none))) [] := by decide +kernel
  have hparty := hstart.solo false sampleAcceptParty rfl hanswers ⟨trivial, fun _ h => h.elim⟩
    (hfirst.mono fun s t e he p => .ofAlone (Config.records_eq (Config.put_self _ false _))
      (fun j r hj hji => by simp [Function.update_of_ne hji] at hj) he)
  have hquote := hparty.solo true sampleAcceptQuote (Config.put_ne _ (by decide) _) hanswers
    ⟨trivial, fun _ h => h.elim⟩ ?_
  · refine ⟨_, ?_, one_quote sampleSettings ?_ hquote⟩
    · decide +kernel
    · rintro _ ⟨⟩
      rfl
  · refine Program.SoloAll.mono (P := QuoteCleanup sampleAcceptQuote.val) ?_ (by decide +kernel)
    intro s t e he p
    refine .ofAlone (Config.records_eq (Config.put_self _ true _)) (fun j r hj hji => ?_) he
    obtain rfl : j = false := by simpa using hji
    simp only [Config.records_put, Config.records_withShared, Function.update_of_ne hji,
      Function.update_self, Option.map_some, Option.some.injEq] at hj
    rw [← hj]
    decide +kernel

/-- Without the conditions there are two: while no quote callback arrives and every `DEL` of
the cached transfer fails, two `acceptParty` executions both send their request. -/
theorem not_one_quote :
    ¬ ∀ c : Config Bool OutboundOp OutboundAnswer JsError OutboundOutput (JobOf "x") Shared,
      (outbound sampleSettings "x").Reaches (fun _ _ => True)
        (.initial (.initial "x" (some (sampleTransfer none)))) c → OneQuote c := by
  intro h
  have hanswers := performs_respond
    (fun op => op matches .redisDel _ || op matches .quotesCallback _) sampleQuote sampleCallback
  have hstart : (outbound sampleSettings "x").Reaches (ι := Bool) (fun _ _ => True)
      (.initial (.initial "x" (some (sampleTransfer none)))) _ := .refl
  have hfirst := hstart.solo false sampleAcceptParty rfl hanswers trivial
    (Program.soloAll_of_forall (fun _ _ _ _ => trivial) _ _ _)
  have hsecond := hfirst.solo true sampleAcceptParty (Config.put_ne _ (by decide) _) hanswers
    trivial (Program.soloAll_of_forall (fun _ _ _ _ => trivial) _ _ _)
  refine absurd (h _ hsecond).1 ?_
  decide +kernel

end Outbound
