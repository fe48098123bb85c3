import Mathlib.Algebra.Order.Ring.Rat
import Mathlib.Tactic.Linarith
import Pivotal.Async.Shared

/-! The Hub's bearer token: one token that all requests share, and one refresh that they wait
for together. -/
namespace Fspiop
open Async

namespace FspiopAccessTokenProvider

def maxExpirySkewMs : ℚ := 30000

def defaultExpiresInSeconds : ℚ := 60

/-- The answered body, of which the identity provider may leave out either field. -/
structure TokenData where
  accessToken : Option String
  expiresIn : Option ℚ
  deriving DecidableEq

/-- How the `post` ended, with the status of an axios error that has one. -/
inductive Reply where
  | rejected (status : Option ℕ)
  | answered (data : Option TokenData)
  deriving DecidableEq

def lifetimeMs (data : TokenData) : ℚ := data.expiresIn.getD defaultExpiresInSeconds * 1000

def skewMs (data : TokenData) : ℚ := min maxExpirySkewMs (lifetimeMs data / 2)

/-- `fetch`, once the `post` has ended: the token and the end of its use. -/
def fetch (clientId : String) (reply : Reply) (now : ℚ) : Except String (String × ℚ) :=
  match reply with
  | .rejected status =>
    .error ("Could not obtain a Hub access token for client '" ++ clientId ++ "'" ++
      match status with
      | some status => " (HTTP " ++ toString status ++ ")."
      | none => ".")
  | .answered data =>
    match data with
    | some ⟨some accessToken, expiresIn⟩ =>
      if accessToken = "" then .error ("No access_token returned for client '" ++ clientId ++ "'.")
      else .ok (accessToken, now + lifetimeMs ⟨some accessToken, expiresIn⟩ -
        skewMs ⟨some accessToken, expiresIn⟩)
    | _ => .error ("No access_token returned for client '" ++ clientId ++ "'.")

/-- What a caller is given at once. -/
inductive Promise where
  | resolved (token : String)
  | flight (n : ℕ)
  deriving DecidableEq

end FspiopAccessTokenProvider

open FspiopAccessTokenProvider

structure FspiopAccessTokenProvider where
  token : Option String
  expiresAt : ℚ
  pending : Shared String String

namespace FspiopAccessTokenProvider

def new : FspiopAccessTokenProvider := ⟨none, 0, Shared.empty⟩

def joined (p : FspiopAccessTokenProvider) : FspiopAccessTokenProvider × Promise :=
  ({ p with pending := p.pending.join.1 }, .flight p.pending.join.2)

def accessToken (p : FspiopAccessTokenProvider) (now : ℚ) : FspiopAccessTokenProvider × Promise :=
  match p.token with
  | some token => if now < p.expiresAt then (p, .resolved token) else p.joined
  | none => p.joined

def invalidate (p : FspiopAccessTokenProvider) : FspiopAccessTokenProvider :=
  { p with token := none, expiresAt := 0 }

/-- The turn in which the `post` of a fetch is answered. -/
def replied (clientId : String) (p : FspiopAccessTokenProvider) (n : ℕ) (reply : Reply) (now : ℚ) :
    FspiopAccessTokenProvider :=
  match fetch clientId reply now with
  | .ok (token, expiresAt) => ⟨some token, expiresAt, p.pending.settle n (.ok token)⟩
  | .error e => { p with pending := p.pending.settle n (.error e) }

inductive Event where
  | called (now : ℚ) (promise : Promise)
  | replied (n : ℕ) (reply : Reply) (now : ℚ)
  | landed (n : ℕ)
  | invalidated

/-- Every order of the turns of any number of requests. -/
inductive Run (clientId : String) : List Event → FspiopAccessTokenProvider → Prop
  | new : Run clientId [] new
  | called {t : List Event} {p : FspiopAccessTokenProvider} (now : ℚ) : Run clientId t p →
      Run clientId (t ++ [.called now (p.accessToken now).2]) (p.accessToken now).1
  | replied {t : List Event} {p : FspiopAccessTokenProvider} {n : ℕ} (reply : Reply) (now : ℚ) :
      Run clientId t p → p.pending.flights[n]? = some .running →
      Run clientId (t ++ [.replied n reply now]) (p.replied clientId n reply now)
  | landed {t : List Event} {p : FspiopAccessTokenProvider} {n : ℕ} {r : Except String String} :
      Run clientId t p → p.pending.flights[n]? = some (.settled r) →
      Run clientId (t ++ [.landed n]) { p with pending := p.pending.land n r }
  | invalidated {t : List Event} {p : FspiopAccessTokenProvider} : Run clientId t p →
      Run clientId (t ++ [.invalidated]) p.invalidate

variable {clientId : String} {t : List Event} {p : FspiopAccessTokenProvider}

/-- A call returns the cached token while it is of use, and joins a fetch otherwise. -/
theorem accessToken_cases (p : FspiopAccessTokenProvider) (now : ℚ) :
    (∃ token, p.token = some token ∧ now < p.expiresAt ∧
      p.accessToken now = (p, .resolved token)) ∨ p.accessToken now = p.joined := by
  unfold accessToken
  split
  · rename_i token htoken
    split
    · exact .inl ⟨token, htoken, ‹_›, rfl⟩
    · exact .inr rfl
  · exact .inr rfl

theorem pending_replied (p : FspiopAccessTokenProvider) (n : ℕ) (reply : Reply) (now : ℚ) :
    (p.replied clientId n reply now).pending =
      p.pending.settle n ((fetch clientId reply now).map Prod.fst) := by
  unfold replied
  split
  · rename_i h
    rw [h]
    rfl
  · rename_i h
    rw [h]
    rfl

theorem Run.single (h : Run clientId t p) : p.pending.Single := by
  induction h with
  | new => exact Shared.single_empty
  | @called t p now _ ih =>
    rcases accessToken_cases p now with ⟨token, -, -, hsame⟩ | hjoined
    · rw [hsame]
      exact ih
    · rw [hjoined]
      exact ih.join.1
  | replied reply now _ hn ih =>
    rw [pending_replied]
    exact ih.settle hn _
  | landed _ hn ih => exact ih.land hn
  | invalidated _ ih => exact ih

/-- What the request `n` was answered with, once it was. -/
def answers (clientId : String) (n : ℕ) (t : List Event) : List (Except String String) :=
  t.filterMap fun
    | .replied m reply now => if m = n then some ((fetch clientId reply now).map Prod.fst) else none
    | _ => none

theorem answers_append (n : ℕ) (t t' : List Event) :
    answers clientId n (t ++ t') = answers clientId n t ++ answers clientId n t' :=
  List.filterMap_append

theorem Run.answers (h : Run clientId t p) (n : ℕ) :
    answers clientId n t = (p.pending.flights[n]?.bind Flight.result).toList := by
  induction h with
  | new => rfl
  | @called t p now _ ih =>
    have hpending : (p.accessToken now).1.pending.flights[n]?.bind Flight.result =
        p.pending.flights[n]?.bind Flight.result := by
      rcases accessToken_cases p now with ⟨token, -, -, hsame⟩ | hjoined
      · rw [hsame]
      · rw [hjoined]
        exact Shared.result_join p.pending n
    rw [answers_append, ih, hpending]
    exact List.append_nil _
  | @replied t p m reply now _ hm ih =>
    rw [answers_append, ih, pending_replied, Shared.result_settle hm]
    by_cases hn : n = m
    · rw [if_pos hn, hn, hm]
      simp [FspiopAccessTokenProvider.answers, Flight.result]
    · rw [if_neg hn]
      simp [FspiopAccessTokenProvider.answers, Ne.symm hn]
  | @landed t p m r _ hm ih =>
    rw [answers_append, ih, Shared.result_land hm]
    exact List.append_nil _
  | invalidated _ ih =>
    rw [answers_append, ih]
    exact List.append_nil _

/-- Every call that joined a request joined one that was sent. -/
theorem Run.joined (h : Run clientId t p) {now : ℚ} {n : ℕ}
    (hn : Event.called now (.flight n) ∈ t) : n < p.pending.flights.length := by
  induction h with
  | new => cases hn
  | @called t p now' hrun ih =>
    rcases accessToken_cases p now' with ⟨token, -, -, hsame⟩ | hjoined
    · rw [hsame] at hn ⊢
      exact ih (by simpa using hn)
    · rw [hjoined] at hn ⊢
      rcases List.mem_append.mp hn with hold | hnew
      · exact (ih hold).trans_le (Shared.length_le_join p.pending)
      · simp only [FspiopAccessTokenProvider.joined, List.mem_singleton, Event.called.injEq,
          Promise.flight.injEq] at hnew
        obtain ⟨f, hf, -⟩ := hrun.single.join.2
        rw [hnew.2]
        exact (List.getElem?_eq_some_iff.mp hf).1
  | @replied t p m reply now' _ _ ih =>
    rw [pending_replied, Shared.settle, List.length_set]
    exact ih (by simpa using hn)
  | @landed t p m r _ _ ih =>
    rw [Shared.land, List.length_set]
    exact ih (by simpa using hn)
  | @invalidated t p _ ih => exact ih (by simpa using hn)

/-- A request whose `finally` has run stays as it ended. -/
theorem Run.landed_of_mem (h : Run clientId t p) {n : ℕ} (hn : Event.landed n ∈ t) :
    ∃ r, p.pending.flights[n]? = some (.landed r) := by
  induction h with
  | new => cases hn
  | @called t p now _ ih =>
    obtain ⟨r, hr⟩ := ih (by simpa using hn)
    refine ⟨r, ?_⟩
    rcases accessToken_cases p now with ⟨token, -, -, hsame⟩ | hjoined
    · rw [hsame]
      exact hr
    · rw [hjoined]
      exact Shared.getElem?_join hr
  | @replied t p m reply now _ hm ih =>
    obtain ⟨r, hr⟩ := ih (by simpa using hn)
    have hne : m ≠ n := by
      rintro rfl
      rw [hm] at hr
      cases hr
    rw [pending_replied, Shared.settle, List.getElem?_set_ne hne]
    exact ⟨r, hr⟩
  | @landed t p m r _ hm ih =>
    rw [Shared.land]
    by_cases hmn : m = n
    · subst hmn
      exact ⟨r, List.getElem?_set_self (List.getElem?_eq_some_iff.mp hm).1⟩
    · rw [List.getElem?_set_ne hmn]
      refine ih ?_
      simpa [Ne.symm hmn] using hn
  | invalidated _ ih => exact ih (by simpa using hn)

/-- Whatever the order of the requests, at most one token request is under way, and all that wait
for it get what it is answered with. None is waited for whose `finally` has run: a call after a
request that failed sends another one. -/
theorem shared_refresh (h : Run clientId t p) :
    (∀ (n m : ℕ) (f g : Flight String String), p.pending.flights[n]? = some f →
      p.pending.flights[m]? = some g → f.isOpen = true → g.isOpen = true → n = m) ∧
    (∀ now n, Event.called now (.flight n) ∈ t → ∃ f, p.pending.flights[n]? = some f ∧
      f.result.toList = answers clientId n t) ∧
    ∀ now n, (p.accessToken now).2 = .flight n → Event.landed n ∉ t := by
  refine ⟨fun n m f g hn hm hf hg => h.single.unique hn hf hm hg, ?_, ?_⟩
  · intro now n hcalled
    have hlt := h.joined hcalled
    refine ⟨p.pending.flights[n], List.getElem?_eq_getElem hlt, ?_⟩
    rw [h.answers, List.getElem?_eq_getElem hlt]
    rfl
  · intro now n hflight hlanded
    obtain ⟨r, hr⟩ := h.landed_of_mem hlanded
    rcases accessToken_cases p now with ⟨token, -, -, hsame⟩ | hjoined
    · rw [hsame] at hflight
      cases hflight
    · rw [hjoined] at hflight
      cases hflight
      obtain ⟨f, hf, hopen⟩ := h.single.join.2
      rw [Shared.getElem?_join hr] at hf
      cases hf
      cases hopen

def sampleReply : Reply := .answered (some ⟨some "abc", some 300⟩)

/-- Two calls at once, the answer to their request, and a call after it. -/
def sampleEvents : List Event :=
  [.called 0 (.flight 0), .called 1 (.flight 0), .replied 0 sampleReply 2, .landed 0]

def sampleProvider : FspiopAccessTokenProvider :=
  ⟨some "abc", 270002, ⟨none, [.landed (.ok "abc")]⟩⟩

theorem sample_run : Run "pivotal" sampleEvents sampleProvider := by
  have h₁ : Run "pivotal" [.called 0 (.flight 0)] ⟨none, 0, ⟨some 0, [.running]⟩⟩ :=
    Run.new.called 0
  have h₂ : Run "pivotal" [.called 0 (.flight 0), .called 1 (.flight 0)]
      ⟨none, 0, ⟨some 0, [.running]⟩⟩ := h₁.called 1
  have hfetch : fetch "pivotal" sampleReply 2 = .ok ("abc", 270002) := by
    have hne : "abc" ≠ "" := by decide
    norm_num [fetch, sampleReply, lifetimeMs, skewMs, maxExpirySkewMs, hne]
  have h₃ := h₂.replied (n := 0) sampleReply 2 rfl
  simp only [FspiopAccessTokenProvider.replied, hfetch] at h₃
  exact h₃.landed (r := .ok "abc") rfl

/-- Two calls at once, whose request is refused. -/
def sampleRefused : List Event :=
  [.called 0 (.flight 0), .called 1 (.flight 0), .replied 0 (.rejected (some 503)) 2, .landed 0]

def sampleRefusal : Except String String :=
  .error "Could not obtain a Hub access token for client 'pivotal' (HTTP 503)."

theorem sample_run_refused :
    Run "pivotal" sampleRefused ⟨none, 0, ⟨none, [.landed sampleRefusal]⟩⟩ := by
  have hfetch : (fetch "pivotal" (.rejected (some 503)) 2).map Prod.fst = sampleRefusal := by
    decide
  have h₁ : Run "pivotal" [.called 0 (.flight 0)] ⟨none, 0, ⟨some 0, [.running]⟩⟩ :=
    Run.new.called 0
  have h₂ : Run "pivotal" [.called 0 (.flight 0), .called 1 (.flight 0)]
      ⟨none, 0, ⟨some 0, [.running]⟩⟩ := h₁.called 1
  exact (h₂.replied (n := 0) (.rejected (some 503)) 2 rfl).landed (r := sampleRefusal) rfl

theorem sample_shared_refresh :
    (∃ f : Flight String String, some f = some (.landed sampleRefusal) ∧
      f.result.toList = answers "pivotal" 0 sampleRefused) ∧
    (accessToken ⟨none, 0, ⟨none, [.landed sampleRefusal]⟩⟩ 3).2 ≠ .flight 0 := by
  obtain ⟨-, hanswered, hcleared⟩ := shared_refresh sample_run_refused
  obtain ⟨f, hf, hresult⟩ := hanswered 1 0 (by simp [sampleRefused])
  exact ⟨⟨f, hf.symm, hresult⟩, fun h => hcleared 3 0 h (by simp [sampleRefused])⟩

/-- Where the cached token comes from. -/
def Cached (clientId : String) (t : List Event) (p : FspiopAccessTokenProvider) : Prop :=
  ∀ token, p.token = some token → ∃ t₁ n reply now t₂, t = t₁ ++ .replied n reply now :: t₂ ∧
    fetch clientId reply now = .ok (token, p.expiresAt) ∧ Event.invalidated ∉ t₂ ∧
    ∀ m reply' now', Event.replied m reply' now' ∈ t₂ → ∃ e, fetch clientId reply' now' = .error e

theorem Cached.keep {p' : FspiopAccessTokenProvider} {e : Event} (h : Cached clientId t p)
    (htoken : p'.token = p.token) (hexpires : p'.expiresAt = p.expiresAt)
    (hne : e ≠ .invalidated)
    (hfailed : ∀ n reply now, e = .replied n reply now → ∃ e, fetch clientId reply now = .error e) :
    Cached clientId (t ++ [e]) p' := by
  intro token ht
  obtain ⟨t₁, n, reply, now, t₂, rfl, hfetch, hinv, hlater⟩ := h token (htoken ▸ ht)
  refine ⟨t₁, n, reply, now, t₂ ++ [e], by simp, hexpires ▸ hfetch, ?_, ?_⟩
  · intro hmem
    rcases List.mem_append.mp hmem with hmem | hmem
    · exact hinv hmem
    · exact hne (List.mem_singleton.mp hmem).symm
  · intro m reply' now' hmem
    rcases List.mem_append.mp hmem with hmem | hmem
    · exact hlater m reply' now' hmem
    · exact hfailed m reply' now' (List.mem_singleton.mp hmem).symm

theorem Run.cached (h : Run clientId t p) : Cached clientId t p := by
  induction h with
  | new =>
    intro token htoken
    cases htoken
  | @called t p now _ ih =>
    rcases accessToken_cases p now with ⟨token, -, -, hsame⟩ | hjoined
    · rw [hsame]
      exact ih.keep rfl rfl (by simp) (by simp)
    · rw [hjoined]
      exact ih.keep rfl rfl (by simp) (by simp)
  | @replied t p n reply now _ _ ih =>
    cases hfetch : fetch clientId reply now with
    | error e =>
      refine ih.keep (by simp [FspiopAccessTokenProvider.replied, hfetch])
        (by simp [FspiopAccessTokenProvider.replied, hfetch]) (by simp) ?_
      rintro m reply' now' ⟨⟩
      exact ⟨e, hfetch⟩
    | ok fetched =>
      intro token htoken
      refine ⟨t, n, reply, now, [], by simp, ?_, by simp, by simp⟩
      simp only [FspiopAccessTokenProvider.replied, hfetch] at htoken ⊢
      cases htoken
      rfl
  | landed _ _ ih => exact ih.keep rfl rfl (by simp) (by simp)
  | invalidated _ _ =>
    intro token htoken
    cases htoken

theorem fetch_eq_ok {reply : Reply} {now expiresAt : ℚ} {token : String}
    (h : fetch clientId reply now = .ok (token, expiresAt)) :
    ∃ data, reply = .answered (some data) ∧ data.accessToken = some token ∧ token ≠ "" ∧
      expiresAt = now + lifetimeMs data - skewMs data := by
  unfold fetch at h
  split at h
  · cases h
  · split at h
    · split at h
      · cases h
      · cases h
        exact ⟨_, rfl, rfl, ‹_›, rfl⟩
    · cases h

/-- A token handed out without a request is that of the last request that succeeded, with no
`invalidate` since, and has half a minute or half its life before it. -/
theorem cached_token_fresh {now : ℚ} {token : String}
    (h : Run clientId (t ++ [.called now (.resolved token)]) p) :
    ∃ t₁ n data at' t₂, t = t₁ ++ .replied n (.answered (some data)) at' :: t₂ ∧
      data.accessToken = some token ∧ token ≠ "" ∧ Event.invalidated ∉ t₂ ∧
      (∀ m reply now', Event.replied m reply now' ∈ t₂ →
        ∃ e, fetch clientId reply now' = .error e) ∧
      now + min maxExpirySkewMs (lifetimeMs data / 2) < at' + lifetimeMs data := by
  generalize ht' : t ++ [Event.called now (.resolved token)] = t' at h
  cases h with
  | new => simp at ht'
  | @called t₀ p now₀ hrun =>
    obtain ⟨rfl, hevent⟩ := List.append_inj' ht' rfl
    simp only [List.cons.injEq, Event.called.injEq, and_true] at hevent
    obtain ⟨rfl, hresolved⟩ := hevent
    rcases accessToken_cases p now with ⟨token', htoken, hnow, hsame⟩ | hjoined
    · rw [hsame] at hresolved
      cases hresolved
      obtain ⟨t₁, n, reply, at', t₂, rfl, hfetch, hinv, hlater⟩ := hrun.cached token htoken
      obtain ⟨data, rfl, htoken', hne, hexpires⟩ := fetch_eq_ok hfetch
      refine ⟨t₁, n, data, at', t₂, rfl, htoken', hne, hinv, hlater, ?_⟩
      rw [hexpires, skewMs] at hnow
      linarith
    · rw [hjoined] at hresolved
      cases hresolved
  | replied reply now' _ _ => simp at ht'
  | landed _ _ => simp at ht'
  | invalidated _ => simp at ht'

theorem sample_cached_token_fresh : ∃ t₁ n data at' t₂,
    sampleEvents = t₁ ++ .replied n (.answered (some data)) at' :: t₂ ∧
      data.accessToken = some "abc" ∧ "abc" ≠ "" ∧ Event.invalidated ∉ t₂ ∧
      (∀ m reply now', Event.replied m reply now' ∈ t₂ →
        ∃ e, fetch "pivotal" reply now' = .error e) ∧
      3 + min maxExpirySkewMs (lifetimeMs data / 2) < at' + lifetimeMs data :=
  cached_token_fresh (p := (sampleProvider.accessToken 3).1) (sample_run.called 3)

end FspiopAccessTokenProvider
end Fspiop
