import Pivotal.Async.Alone

/-! A program that may be stopped anywhere on its way: what every stop leaves, and what
it has reached where it returns. -/
namespace Async.Program

variable {Op : Type} {Answer : Op → Type} {ε α β ρ : Type}

/-- `I` holds of every state `p` may be stopped in, and `T` of what it returns. A rejection
is a stop like any other. -/
def Withstands (E : ρ → (op : Op) → Answer op → ρ → Prop) (I : ρ → Prop) :
    Program Op Answer ε α → ρ → (ρ → α → Prop) → Prop
  | .done r, s, T => I s ∧ ∀ a, r = .ok a → T s a
  | .call op resume, s, T => I s ∧ ∀ a s', E s op a s' → (resume a).Withstands E I s' T

variable {E : ρ → (op : Op) → Answer op → ρ → Prop} {I : ρ → Prop} {s s' : ρ}
  {T T' : ρ → α → Prop}

theorem Withstands.here {p : Program Op Answer ε α} (h : p.Withstands E I s T) : I s := by
  cases p with
  | done r => exact h.1
  | call op resume => exact h.1

theorem Withstands.mono {p : Program Op Answer ε α} (h : p.Withstands E I s T)
    (hT : ∀ s' a, I s' → T s' a → T' s' a) : p.Withstands E I s T' := by
  induction p generalizing s with
  | done r => exact ⟨h.1, fun a ha => hT s a h.1 (h.2 a ha)⟩
  | call op resume ih => exact ⟨h.1, fun a s' ha => ih a (h.2 a s' ha)⟩

/-- Wherever the program stops. -/
theorem Withstands.of_leaves {p : Program Op Answer ε α} (h : p.Withstands E I s T)
    (hp : p.Leaves E s s') : I s' := by
  induction hp with
  | stop p s => exact h.here
  | call ha _ ih => exact ih (h.2 _ _ ha)

/-- Where the program returns. -/
theorem Withstands.of_executes {p : Program Op Answer ε α} {a : α} (h : p.Withstands E I s T)
    (hp : p.Executes E s (.ok a) s') : T s' a := by
  generalize hr : Except.ok a = r at hp
  induction hp with
  | done r s => exact h.2 a hr.symm
  | call ha _ ih => exact ih (h.2 _ _ ha) hr

theorem withstands_pure {a : α} (hI : I s) (hT : T s a) :
    (pure a : Program Op Answer ε α).Withstands E I s T := by
  refine ⟨hI, ?_⟩
  rintro b ⟨⟩
  exact hT

theorem withstands_throw {e : ε} (hI : I s) :
    (throw e : Program Op Answer ε α).Withstands E I s T := by
  refine ⟨hI, ?_⟩
  rintro b ⟨⟩

/-- A call whose answer says how it ended. -/
theorem withstands_ask {op : Op} {x : Answer op → Except ε α} (hI : I s)
    (h : ∀ a s', E s op a s' → I s' ∧ ∀ b, x a = .ok b → T s' b) :
    (perform op >>= fun a => lift (x a) : Program Op Answer ε α).Withstands E I s T :=
  ⟨hI, fun a s' ha => h a s' ha⟩

/-- How the rest goes on from each way of settling. -/
theorem Withstands.settle {p : Program Op Answer ε β} {f : Except ε β → Program Op Answer ε α}
    {U : ρ → β → Prop} (hp : p.Withstands E I s U)
    (he : ∀ e s', I s' → (f (.error e)).Withstands E I s' T)
    (hf : ∀ b s', I s' → U s' b → (f (.ok b)).Withstands E I s' T) :
    (p.settle f).Withstands E I s T := by
  induction p generalizing s with
  | done r =>
    cases r with
    | error e => exact he e s hp.1
    | ok b => exact hf b s hp.1 (hp.2 b rfl)
  | call op resume ih => exact ⟨hp.1, fun a s' ha => ih a (hp.2 a s' ha)⟩

theorem Withstands.bind {p : Program Op Answer ε β} {f : β → Program Op Answer ε α}
    {U : ρ → β → Prop} (hp : p.Withstands E I s U)
    (hf : ∀ b s', I s' → U s' b → (f b).Withstands E I s' T) :
    (p >>= f).Withstands E I s T :=
  hp.settle (fun _ _ hI => withstands_throw hI) hf

theorem Withstands.tryCatch {p : Program Op Answer ε α} {f : ε → Program Op Answer ε α}
    (hp : p.Withstands E I s T) (he : ∀ e s', I s' → (f e).Withstands E I s' T) :
    (tryCatch p f).Withstands E I s T :=
  hp.settle he fun _ _ hI hT => withstands_pure hI hT

/-- The cleanup keeps what the program has reached. -/
theorem Withstands.tryFinally {p : Program Op Answer ε α} {cleanup : Program Op Answer ε Unit}
    (hp : p.Withstands E I s T)
    (he : ∀ s', I s' → cleanup.Withstands E I s' fun _ _ => True)
    (hc : ∀ a s', I s' → T s' a → cleanup.Withstands E I s' fun s'' _ => T s'' a) :
    (p.tryFinally cleanup).Withstands E I s T := by
  refine hp.settle ?_ ?_
  · intro e s' hI
    exact (he s' hI).bind fun _ _ hI' _ => withstands_throw hI'
  · intro a s' hI hT
    exact (hc a s' hI hT).bind fun _ _ hI' hT' => withstands_pure hI' hT'

/-- A loop over a list: what holds after the items it has done. -/
theorem Withstands.foldlM {γ : Type} {f : β → γ → Program Op Answer ε β} {items : List γ}
    (J : List γ → ρ → β → Prop)
    (hstep : ∀ before x after, items = before ++ x :: after → ∀ s b, I s → J before s b →
      (f b x).Withstands E I s (J (before ++ [x]))) {b : β} (hI : I s) (h₀ : J [] s b) :
    (items.foldlM f b).Withstands E I s (J items) := by
  have hrest : ∀ rest before s b, items = before ++ rest → I s → J before s b →
      (rest.foldlM f b).Withstands E I s (J items) := by
    intro rest
    induction rest with
    | nil =>
      intro before s b hitems hI hJ
      rw [List.append_nil] at hitems
      exact withstands_pure hI (hitems ▸ hJ)
    | cons x rest ih =>
      intro before s b hitems hI hJ
      rw [List.foldlM_cons]
      exact (hstep before x rest hitems s b hI hJ).bind fun b' s' hI' hJ' =>
        ih (before ++ [x]) s' b' (by simp [hitems]) hI' hJ'
  exact hrest items [] s b rfl hI h₀

end Async.Program
