import Pivotal.Async.Program

/-! Programs whose calls are themselves programs over smaller calls. -/
namespace Async
namespace Program

variable {Op Op' : Type} {Answer : Op → Type} {Answer' : Op' → Type} {σ ε α β : Type}

theorem settle_settle {γ : Type} (p : Program Op Answer ε α)
    (f : Except ε α → Program Op Answer ε β) (g : Except ε β → Program Op Answer ε γ) :
    (p.settle f).settle g = p.settle fun r => (f r).settle g := by
  induction p with
  | done r => rfl
  | call op resume ih => exact congrArg (Program.call op) (funext ih)

@[simp] theorem settle_done (p : Program Op Answer ε α) : p.settle Program.done = p := by
  induction p with
  | done r => rfl
  | call op resume ih => exact congrArg (Program.call op) (funext ih)

variable (h : σ → (op : Op) → Program Op' Answer' ε (Answer op × σ))

/-- Every call replaced by its program, which leaves something for the next one. -/
def interpret : Program Op Answer ε α → σ → Program Op' Answer' ε α
  | .done r, _ => .done r
  | .call op resume, s => h s op >>= fun answered => (resume answered.1).interpret answered.2

/-- From the states of `R`, and with whatever follows, `p` comes to `q`. -/
def ComesTo (R : σ → Prop) (p : Program Op Answer ε α) (q : Program Op' Answer' ε α) : Prop :=
  ∀ (β : Type) (f : Except ε α → Program Op Answer ε β) (g : Except ε α → Program Op' Answer' ε β),
    (∀ r s, R s → (f r).interpret h s = g r) → ∀ s, R s → (p.settle f).interpret h s = q.settle g

variable {h} {R : σ → Prop} {p : Program Op Answer ε α} {q : Program Op' Answer' ε α}

theorem ComesTo.interpret (hp : ComesTo h R p q) {s : σ} (hs : R s) : p.interpret h s = q := by
  have hdone := hp α Program.done Program.done (fun _ _ _ => rfl) s hs
  rwa [settle_done, settle_done] at hdone

theorem comesTo_done (r : Except ε α) : ComesTo h R (.done r) (.done r) :=
  fun _ _ _ hfg s hs => hfg r s hs

theorem ComesTo.settle {f : Except ε α → Program Op Answer ε β}
    {g : Except ε α → Program Op' Answer' ε β} (hp : ComesTo h R p q)
    (hf : ∀ r, ComesTo h R (f r) (g r)) : ComesTo h R (p.settle f) (q.settle g) := by
  intro γ f' g' hfg s hs
  rw [settle_settle, settle_settle]
  exact hp γ _ _ (fun r s' hs' => hf r γ f' g' hfg s' hs') s hs

theorem ComesTo.bind {f : α → Program Op Answer ε β} {g : α → Program Op' Answer' ε β}
    (hp : ComesTo h R p q) (hf : ∀ x, ComesTo h R (f x) (g x)) :
    ComesTo h R (p >>= f) (q >>= g) := by
  refine hp.settle ?_
  rintro (e | x)
  · exact comesTo_done _
  · exact hf x

theorem ComesTo.tryCatch {f : ε → Program Op Answer ε α} {g : ε → Program Op' Answer' ε α}
    (hp : ComesTo h R p q) (hf : ∀ e, ComesTo h R (f e) (g e)) :
    ComesTo h R (tryCatch p f) (tryCatch q g) := by
  refine hp.settle ?_
  rintro (e | x)
  · exact hf e
  · exact comesTo_done _

theorem ComesTo.tryFinally {cleanup : Program Op Answer ε Unit}
    {cleanup' : Program Op' Answer' ε Unit} (hp : ComesTo h R p q)
    (hcleanup : ComesTo h R cleanup cleanup') :
    ComesTo h R (p.tryFinally cleanup) (q.tryFinally cleanup') := by
  refine hp.settle fun r => hcleanup.settle ?_
  rintro (e | u)
  · exact comesTo_done _
  · exact comesTo_done _

/-- A call that is a program whose outcome, also a rejection, is the answer. -/
theorem comesTo_call {γ : Type} {op : Op} {resume : Answer op → Program Op Answer ε α}
    {q : Program Op' Answer' ε γ} {g : Except ε γ → Program Op' Answer' ε α}
    (answer : Except ε γ → Answer op) (next : σ → Except ε γ → σ)
    (hop : ∀ s, R s → h s op = q.settle fun r => .done (.ok (answer r, next s r)))
    (hnext : ∀ s r, R s → R (next s r)) (hresume : ∀ r, ComesTo h R (resume (answer r)) (g r)) :
    ComesTo h R (.call op resume) (q.settle g) := by
  intro β f g' hfg s hs
  have hcall : ((Program.call op resume).settle f).interpret h s =
      h s op >>= fun answered => ((resume answered.1).settle f).interpret h answered.2 := rfl
  rw [hcall, hop s hs, settle_settle]
  change (q.settle _).settle _ = _
  rw [settle_settle]
  exact congrArg q.settle (funext fun r => hresume r β f g' hfg _ (hnext s r hs))

/-- A call that is one smaller call. -/
theorem comesTo_perform {op : Op} {op' : Op'} {resume : Answer op → Program Op Answer ε α}
    {g : Answer' op' → Program Op' Answer' ε α} (answer : Answer' op' → Answer op)
    (hop : ∀ s, R s → h s op = .call op' fun a => .done (.ok (answer a, s)))
    (hresume : ∀ a, ComesTo h R (resume (answer a)) (g a)) :
    ComesTo h R (.call op resume) (.call op' g) := by
  intro β f g' hfg s hs
  have hcall : ((Program.call op resume).settle f).interpret h s =
      h s op >>= fun answered => ((resume answered.1).settle f).interpret h answered.2 := rfl
  rw [hcall, hop s hs]
  exact congrArg (Program.call op') (funext fun a => hresume a β f g' hfg s hs)

end Program
end Async
