import Pivotal.Async.Pool

/-! A program run by itself, against a state that answers its calls. -/
namespace Async.Program

variable {Op : Type} {Answer : Op → Type} {ε α β ρ : Type}

/-- `p.Executes E s r s'`: with nothing in between, `p` settles with `r` and leaves `s'`. -/
inductive Executes (E : ρ → (op : Op) → Answer op → ρ → Prop) :
    Program Op Answer ε α → ρ → Except ε α → ρ → Prop
  | done (r : Except ε α) (s : ρ) : Executes E (.done r) s r s
  | call {op : Op} {resume : Answer op → Program Op Answer ε α} {a : Answer op} {s s' s'' : ρ}
      {r : Except ε α} : E s op a s' → Executes E (resume a) s' r s'' →
      Executes E (.call op resume) s r s''

/-- A state that answers by a policy gives an execution. -/
theorem executes_solo {E : ρ → (op : Op) → Answer op → ρ → Prop}
    {policy : ρ → (op : Op) → Answer op × ρ}
    (hpolicy : ∀ s op, E s op (policy s op).1 (policy s op).2) (p : Program Op Answer ε α) (s : ρ)
    (t : List (Event Op Answer)) :
    p.Executes E s (p.solo policy s t).2.2 (p.solo policy s t).1 := by
  induction p generalizing s t with
  | done r => exact .done r s
  | call op resume ih => exact .call (hpolicy s op) (ih _ _ _)

/-- However the state answers, `p` ends in a state and an outcome that `Q` describes. -/
def Ensures (E : ρ → (op : Op) → Answer op → ρ → Prop) :
    Program Op Answer ε α → ρ → (ρ → Except ε α → Prop) → Prop
  | .done r, s, Q => Q s r
  | .call op resume, s, Q => ∀ a s', E s op a s' → (resume a).Ensures E s' Q

variable {E : ρ → (op : Op) → Answer op → ρ → Prop} {Q Q' : ρ → Except ε α → Prop} {s s' : ρ}

@[simp] theorem ensures_done {r : Except ε α} :
    (Program.done r : Program Op Answer ε α).Ensures E s Q ↔ Q s r := Iff.rfl

@[simp] theorem ensures_call {op : Op} {resume : Answer op → Program Op Answer ε α} :
    (Program.call op resume).Ensures E s Q ↔
      ∀ a s', E s op a s' → (resume a).Ensures E s' Q := Iff.rfl

/-- What is ensured is what holds after every execution. -/
theorem Ensures.of_executes {p : Program Op Answer ε α} {r : Except ε α} (h : p.Ensures E s Q)
    (hp : p.Executes E s r s') : Q s' r := by
  induction hp with
  | done r s => exact h
  | call ha _ ih => exact ih (h _ _ ha)

theorem ensures_settle {p : Program Op Answer ε β} {f : Except ε β → Program Op Answer ε α} :
    (p.settle f).Ensures E s Q ↔ p.Ensures E s fun s' r => (f r).Ensures E s' Q := by
  induction p generalizing s with
  | done r => rfl
  | call op resume ih => simp only [settle, ensures_call, ih]

theorem Ensures.mono {p : Program Op Answer ε α} (h : p.Ensures E s Q)
    (hQ : ∀ s' r, Q s' r → Q' s' r) : p.Ensures E s Q' := by
  induction p generalizing s with
  | done r => exact hQ _ _ h
  | call op resume ih => exact fun a s' ha => ih a (h a s' ha)

@[simp] theorem ensures_pure {a : α} :
    (pure a : Program Op Answer ε α).Ensures E s Q ↔ Q s (.ok a) := Iff.rfl

@[simp] theorem ensures_throw {e : ε} :
    (throw e : Program Op Answer ε α).Ensures E s Q ↔ Q s (.error e) := Iff.rfl

@[simp] theorem ensures_lift {r : Except ε α} :
    (lift r : Program Op Answer ε α).Ensures E s Q ↔ Q s r := Iff.rfl

@[simp] theorem ensures_perform {op : Op} {Q : ρ → Except ε (Answer op) → Prop} :
    (perform op : Program Op Answer ε (Answer op)).Ensures E s Q ↔
      ∀ a s', E s op a s' → Q s' (.ok a) := Iff.rfl

@[simp] theorem ensures_bind {p : Program Op Answer ε β} {f : β → Program Op Answer ε α} :
    (p >>= f).Ensures E s Q ↔ p.Ensures E s fun s' r => (onOk f r).Ensures E s' Q :=
  ensures_settle

/-- A partial correctness triple: what holds if the program settles with a value. -/
def Yields (E : ρ → (op : Op) → Answer op → ρ → Prop) (p : Program Op Answer ε α) (s : ρ)
    (Q : ρ → α → Prop) : Prop := p.Ensures E s fun s' r => ∀ a, r = .ok a → Q s' a

variable {R R' : ρ → α → Prop}

theorem Yields.mono {p : Program Op Answer ε α} (h : p.Yields E s R)
    (hR : ∀ s' a, R s' a → R' s' a) : p.Yields E s R' :=
  Ensures.mono h fun s' _ hr a ha => hR s' a (hr a ha)

theorem yields_pure {a : α} (h : R s a) : (pure a : Program Op Answer ε α).Yields E s R := by
  rintro b ⟨⟩
  exact h

theorem yields_throw (e : ε) : (throw e : Program Op Answer ε α).Yields E s R := by
  rintro b ⟨⟩

theorem yields_lift {r : Except ε α} (h : ∀ a, r = .ok a → R s a) :
    (lift r : Program Op Answer ε α).Yields E s R := h

theorem yields_perform {op : Op} {R : ρ → Answer op → Prop} (h : ∀ a s', E s op a s' → R s' a) :
    (perform op : Program Op Answer ε (Answer op)).Yields E s R := by
  rintro a s' ha b ⟨⟩
  exact h a s' ha

/-- Sequencing: only what the first program settles with successfully goes on. -/
theorem Yields.bind {p : Program Op Answer ε β} {f : β → Program Op Answer ε α}
    {P : ρ → β → Prop} (hp : p.Yields E s P) (hf : ∀ b s', P s' b → (f b).Yields E s' R) :
    (p >>= f).Yields E s R := by
  refine ensures_bind.mpr (Ensures.mono hp ?_)
  rintro s' (e | b) h
  · exact yields_throw e
  · exact hf b s' (h b rfl)

/-- A call whose answer says how it ended. -/
theorem yields_answer {op : Op} {f : Answer op → Except ε α}
    (h : ∀ a s', E s op a s' → ∀ b, f a = .ok b → R s' b) :
    (perform op >>= fun a => lift (f a) : Program Op Answer ε α).Yields E s R :=
  Yields.bind (yields_perform fun a s' ha => h a s' ha) fun _ _ hb => yields_lift hb

/-- A check that throws is passed. -/
theorem yields_unless {c : Prop} [Decidable c] {e : ε} {f : β → Program Op Answer ε α}
    {p : Program Op Answer ε α} (h : ¬ c → p.Yields E s R) :
    (if c then throw e >>= f else p).Yields E s R := by
  split
  · exact yields_throw e
  · exact h ‹_›

/-- A step that is only taken when it is asked for. -/
theorem yields_when {c : Prop} [Decidable c] {p : Program Op Answer ε Unit}
    {f : Unit → Program Op Answer ε α} {P : ρ → Unit → Prop} (hp : c → p.Yields E s P)
    (hs : ¬ c → P s ()) (hf : ∀ u s', P s' u → (f u).Yields E s' R) :
    (if c then p >>= f else f ()).Yields E s R := by
  split
  · exact Yields.bind (hp ‹_›) hf
  · exact hf () s (hs ‹_›)

theorem Yields.of_executes {p : Program Op Answer ε α} {a : α} (h : p.Yields E s R)
    (hp : p.Executes E s (.ok a) s') : R s' a :=
  Ensures.of_executes h hp a rfl

theorem Executes.mono {E' : ρ → (op : Op) → Answer op → ρ → Prop}
    (hE : ∀ s op a s', E s op a s' → E' s op a s') {p : Program Op Answer ε α} {r : Except ε α}
    (h : p.Executes E s r s') : p.Executes E' s r s' := by
  induction h with
  | done r s => exact .done r s
  | call ha _ ih => exact .call (hE _ _ _ _ ha) ih

/-- What is ensured of every answer is ensured of some of them. -/
theorem Ensures.restrict {E' : ρ → (op : Op) → Answer op → ρ → Prop}
    (hE : ∀ s op a s', E' s op a s' → E s op a s') {p : Program Op Answer ε α}
    (h : p.Ensures E s Q) : p.Ensures E' s Q := by
  induction p generalizing s with
  | done r => exact h
  | call op resume ih => exact fun a s' ha => ih a (h a s' (hE s op a s' ha))

theorem Ensures.and {p : Program Op Answer ε α} (h : p.Ensures E s Q) (h' : p.Ensures E s Q') :
    p.Ensures E s fun s' r => Q s' r ∧ Q' s' r := by
  induction p generalizing s with
  | done r => exact ⟨h, h'⟩
  | call op resume ih => exact fun a s' ha => ih a (h a s' ha) (h' a s' ha)

/-- Sequencing of what is kept, however the first program settles. -/
theorem Ensures.bind {I : ρ → Prop} {p : Program Op Answer ε β} {f : β → Program Op Answer ε α}
    (hp : p.Ensures E s fun s' _ => I s')
    (hf : ∀ b s', I s' → (f b).Ensures E s' fun s'' _ => I s'') :
    (p >>= f).Ensures E s fun s' _ => I s' := by
  refine ensures_bind.mpr (hp.mono ?_)
  rintro s' (e | b) h
  · exact h
  · exact hf b s' h

/-- What every call keeps, a program keeps. -/
theorem ensures_of_step {I : ρ → Prop} (hE : ∀ s op a s', I s → E s op a s' → I s')
    (p : Program Op Answer ε α) (hI : I s) : p.Ensures E s fun s' _ => I s' := by
  induction p generalizing s with
  | done r => exact hI
  | call op resume ih => exact fun a s' ha => ih a (hE s op a s' hI ha)

/-- What the calls of a program keep, it keeps. -/
theorem Within.ensures {P : Op → Prop} {I : ρ → Prop} {p : Program Op Answer ε α}
    (h : p.Within P) (hE : ∀ s op a s', P op → I s → E s op a s' → I s') (hI : I s) :
    p.Ensures E s fun s' _ => I s' := by
  induction p generalizing s with
  | done r => exact hI
  | call op resume ih => exact fun a s' ha => ih a (h.2 a) (hE s op a s' h.1 hI ha)

/-- A handler that passes every error on changes nothing of what is yielded. -/
theorem Yields.rethrow {p : Program Op Answer ε α} {f : ε → ε} (h : p.Yields E s R) :
    (tryCatch p fun e => throw (f e)).Yields E s R := by
  refine ensures_settle.mpr (Ensures.mono h ?_)
  rintro s' (e | a) hr
  · rintro b ⟨⟩
  · exact hr

/-- What follows a call whose answer says how it ended. -/
theorem Yields.answered {op : Op} {x : Answer op → Except ε β} {f : β → Program Op Answer ε α}
    (h : ∀ a s', E s op a s' → ∀ b, x a = .ok b → (f b).Yields E s' R) :
    (perform op >>= fun a => lift (x a) >>= f).Yields E s R := by
  intro a s' ha
  show (onOk f (x a)).Ensures E s' _
  cases hx : x a with
  | error e => exact yields_throw e
  | ok b => exact h a s' ha b hx

/-- A total correctness triple: the program settles with a value. -/
def Succeeds (E : ρ → (op : Op) → Answer op → ρ → Prop) (p : Program Op Answer ε α) (s : ρ)
    (R : ρ → α → Prop) : Prop := p.Ensures E s fun s' r => ∃ a, r = .ok a ∧ R s' a

theorem Succeeds.mono {p : Program Op Answer ε α} (h : p.Succeeds E s R)
    (hR : ∀ s' a, R s' a → R' s' a) : p.Succeeds E s R' := by
  refine Ensures.mono h ?_
  rintro s' r ⟨a, rfl, ha⟩
  exact ⟨a, rfl, hR s' a ha⟩

theorem succeeds_pure {a : α} (h : R s a) : (pure a : Program Op Answer ε α).Succeeds E s R :=
  ⟨a, rfl, h⟩

theorem succeeds_perform {op : Op} {R : ρ → Answer op → Prop} (h : ∀ a s', E s op a s' → R s' a) :
    (perform op : Program Op Answer ε (Answer op)).Succeeds E s R :=
  fun a s' ha => ⟨a, rfl, h a s' ha⟩

theorem Succeeds.bind {p : Program Op Answer ε β} {f : β → Program Op Answer ε α}
    {P : ρ → β → Prop} (hp : p.Succeeds E s P) (hf : ∀ b s', P s' b → (f b).Succeeds E s' R) :
    (p >>= f).Succeeds E s R := by
  refine ensures_bind.mpr (Ensures.mono hp ?_)
  rintro s' r ⟨b, rfl, hb⟩
  exact hf b s' hb

theorem Succeeds.tryCatch {p : Program Op Answer ε α} {f : ε → Program Op Answer ε α}
    (h : p.Succeeds E s R) : (tryCatch p f).Succeeds E s R := by
  refine ensures_settle.mpr (Ensures.mono h ?_)
  rintro s' r ⟨a, rfl, ha⟩
  exact ⟨a, rfl, ha⟩

/-- A call whose answer says how it ended. -/
theorem succeeds_answer {op : Op} {x : Answer op → Except ε α}
    (h : ∀ a s', E s op a s' → ∃ b, x a = .ok b ∧ R s' b) :
    (perform op >>= fun a => lift (x a) : Program Op Answer ε α).Succeeds E s R := h

/-- What follows a call whose answer says how it ended. -/
theorem Succeeds.answered {op : Op} {x : Answer op → Except ε β} {f : β → Program Op Answer ε α}
    (h : ∀ a s', E s op a s' → ∃ b, x a = .ok b ∧ (f b).Succeeds E s' R) :
    (perform op >>= fun a => lift (x a) >>= f).Succeeds E s R := by
  intro a s' ha
  obtain ⟨b, hb, hf⟩ := h a s' ha
  show (onOk f (x a)).Ensures E s' _
  rw [hb]
  exact hf

/-- A loop over a list: what holds after the items it has done. -/
theorem Succeeds.foldlM {γ : Type} {f : β → γ → Program Op Answer ε β} {items : List γ}
    (I : List γ → ρ → β → Prop)
    (hstep : ∀ before x after, items = before ++ x :: after → ∀ s b, I before s b →
      (f b x).Succeeds E s (I (before ++ [x]))) {b : β} (h₀ : I [] s b) :
    (items.foldlM f b).Succeeds E s (I items) := by
  have hrest : ∀ rest before s b, items = before ++ rest → I before s b →
      (rest.foldlM f b).Succeeds E s (I items) := by
    intro rest
    induction rest with
    | nil =>
      intro before s b hitems hI
      rw [List.append_nil] at hitems
      exact succeeds_pure (hitems ▸ hI)
    | cons x rest ih =>
      intro before s b hitems hI
      rw [List.foldlM_cons]
      exact (hstep before x rest hitems s b hI).bind fun b' s' hI' =>
        ih (before ++ [x]) s' b' (by simp [hitems]) hI'
  exact hrest items [] s b rfl h₀

/-- `p.Leaves E s s'`: somewhere on its way, or settled, `p` has left `s'`. -/
inductive Leaves (E : ρ → (op : Op) → Answer op → ρ → Prop) :
    Program Op Answer ε α → ρ → ρ → Prop
  | stop (p : Program Op Answer ε α) (s : ρ) : Leaves E p s s
  | call {op : Op} {resume : Answer op → Program Op Answer ε α} {a : Answer op} {s s' s'' : ρ} :
      E s op a s' → Leaves E (resume a) s' s'' → Leaves E (.call op resume) s s''

/-- A program that is stopped after some of its calls. -/
theorem leaves_advance {policy : ρ → (op : Op) → Answer op × ρ}
    (hpolicy : ∀ s op, E s op (policy s op).1 (policy s op).2) (n : ℕ) (p : Program Op Answer ε α)
    (s : ρ) (t : List (Event Op Answer)) : p.Leaves E s (p.advance policy n s t).1 := by
  induction n generalizing p s t with
  | zero => exact .stop p s
  | succ n ih =>
    cases p with
    | done r => exact .stop _ s
    | call op resume => exact .call (hpolicy s op) (ih _ _ _)

theorem Executes.leaves {p : Program Op Answer ε α} {r : Except ε α} (h : p.Executes E s r s') :
    p.Leaves E s s' := by
  induction h with
  | done r s => exact .stop _ s
  | call ha _ ih => exact .call ha ih

/-- What the calls that a monitor allows keep, of its record and the state. -/
theorem Leaves.invariant {σ : Type} {M : Monitor Op Answer σ} {r : σ}
    {I : σ → ρ → Prop} {p : Program Op Answer ε α} {Q : σ → Except ε α → Prop}
    (h : p.Leaves E s s') (hp : p.Obeys M r Q) (hI : I r s)
    (hstep : ∀ r s op a s', I r s → M.allows r op → E s op a s' → I (M.next r op a) s') :
    ∃ r', I r' s' := by
  induction h generalizing r with
  | stop p s => exact ⟨r, hI⟩
  | call ha _ ih => exact ih (hp.2 _) (hstep _ _ _ _ _ hI hp.1 ha)

end Async.Program
