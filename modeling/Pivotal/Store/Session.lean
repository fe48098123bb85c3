import Mathlib.Tactic.Common

/-! A connection to a transactional store: what is kept when it breaks, in a script of
statements of which some commit by themselves. -/
namespace Store

/-- What the connection sees, and what a rollback restores while a transaction is open. -/
structure Session (ρ : Type) where
  current : ρ
  saved : Option ρ
  deriving DecidableEq

/-- A statement ends an open transaction first if it `commits`; where it has no `effect` it
fails. -/
structure Statement (ρ : Type) where
  commits : Bool
  effect : ρ → Option ρ

namespace Session

variable {ρ σ : Type}

/-- A connection without a transaction. -/
def idle (d : ρ) : Session ρ := ⟨d, none⟩

/-- What is left when the connection breaks. -/
def durable (s : Session ρ) : ρ := s.saved.getD s.current

/-- `START TRANSACTION`, which commits what was open. -/
def start (s : Session ρ) : Session ρ := ⟨s.current, some s.current⟩

def commit (s : Session ρ) : Session ρ := idle s.current

def rollback (s : Session ρ) : Session ρ := idle s.durable

@[simp] theorem idle_current (d : ρ) : (idle d).current = d := rfl

@[simp] theorem durable_idle (d : ρ) : (idle d).durable = d := rfl

@[simp] theorem durable_rollback (s : Session ρ) : s.rollback.durable = s.durable := rfl

@[simp] theorem rollback_idle (d : ρ) : (idle d).rollback = idle d := rfl

@[simp] theorem start_idle (d : ρ) : (idle d).start = ⟨d, some d⟩ := rfl

@[simp] theorem durable_open (c d : ρ) : (⟨c, some d⟩ : Session ρ).durable = d := rfl

@[simp] theorem durable_closed (d : ρ) : (⟨d, none⟩ : Session ρ).durable = d := rfl

/-- The session that a statement takes effect in. -/
def before (st : Statement ρ) (s : Session ρ) : Session ρ := if st.commits then s.commit else s

/-- One statement, which commits by itself where no transaction is open. -/
def execute (st : Statement ρ) (s : Session ρ) : Option (Session ρ) :=
  (st.effect (before st s).current).map fun d => { before st s with current := d }

def executeAll : List (Statement ρ) → Session ρ → Option (Session ρ)
  | [], s => some s
  | st :: script, s => (execute st s).bind (executeAll script)

/-- How a script leaves the session when it does not end well: a statement is rejected, or the
transaction is lost after any of them, the last one too. -/
inductive Fails : List (Statement ρ) → Session ρ → Session ρ → Prop
  | rejected (st : Statement ρ) (script : List (Statement ρ)) (s : Session ρ) :
      Fails (st :: script) s (before st s)
  | lost (script : List (Statement ρ)) (s : Session ρ) : Fails script s s.rollback
  | next {st : Statement ρ} {script : List (Statement ρ)} {s s' s'' : Session ρ} :
      execute st s = some s' → Fails script s' s'' → Fails (st :: script) s s''

end Session

/-- What statements make of the data, one after the other. -/
def applyAll {ρ : Type} : List (Statement ρ) → ρ → Option ρ
  | [], d => some d
  | st :: script, d => (st.effect d).bind (applyAll script)

/-- The first statements of a script, of which one commits by itself or the next one does. -/
def Leftover {ρ : Type} (script : List (Statement ρ)) (d d' : ρ) : Prop :=
  ∃ ran rest, script = ran ++ rest ∧ applyAll ran d = some d' ∧
    ∃ st ∈ ran ++ rest.take 1, st.commits = true

namespace Session

variable {ρ : Type} {script ran rest : List (Statement ρ)} {d : ρ} {s s' : Session ρ}

theorem applyAll_append (script rest : List (Statement ρ)) (d : ρ) :
    applyAll (script ++ rest) d = (applyAll script d).bind (applyAll rest) := by
  induction script generalizing d with
  | nil => rfl
  | cons st script ih =>
    rw [List.cons_append, applyAll, applyAll]
    cases st.effect d with
    | none => rfl
    | some d' => exact ih d'

/-- The session after some statements of a transaction begun at `d`: the transaction is open
as long as none of them commits. -/
structure Ran (d : ρ) (ran : List (Statement ρ)) (s : Session ρ) : Prop where
  current : applyAll ran d = some s.current
  saved : s.saved = some d ∧ (∀ st ∈ ran, st.commits = false) ∨
    s.saved = none ∧ ∃ st ∈ ran, st.commits = true

theorem ran_start (d : ρ) : Ran d [] (idle d).start := ⟨rfl, .inl ⟨rfl, by simp⟩⟩

theorem current_before (st : Statement ρ) (s : Session ρ) : (before st s).current = s.current := by
  unfold before
  split
  · rfl
  · rfl

theorem Ran.execute {st : Statement ρ} (h : Ran d ran s) (he : Session.execute st s = some s') :
    Ran d (ran ++ [st]) s' := by
  unfold Session.execute at he
  rw [current_before, Option.map_eq_some_iff] at he
  obtain ⟨d', hd', rfl⟩ := he
  constructor
  · rw [applyAll_append, h.current, Option.bind_some, applyAll, hd']
    rfl
  · unfold before
    cases hc : st.commits with
    | true => exact .inr ⟨by simp [commit, idle], st, by simp, hc⟩
    | false =>
      rcases h.saved with ⟨hs, hran⟩ | ⟨hs, st', hst', hc'⟩
      · refine .inl ⟨by simpa using hs, ?_⟩
        intro st' hst'
        rcases List.mem_append.mp hst' with hst' | hst'
        · exact hran st' hst'
        · rw [List.mem_singleton.mp hst']
          exact hc
      · exact .inr ⟨by simpa using hs, st', List.mem_append_left _ hst', hc'⟩

theorem Ran.executeAll (h : Ran d ran s) (he : Session.executeAll rest s = some s') :
    Ran d (ran ++ rest) s' := by
  induction rest generalizing ran s with
  | nil =>
    cases he
    rw [List.append_nil]
    exact h
  | cons st rest ih =>
    obtain ⟨s₁, hs₁, hrest⟩ := Option.bind_eq_some_iff.mp he
    rw [List.append_cons]
    exact ih (h.execute hs₁) hrest

/-- What is left of a transaction when the connection breaks: nothing, or what its statements
made if one of them has committed. -/
theorem Ran.durable (h : Ran d ran s) (rest : List (Statement ρ)) :
    s.durable = d ∨ Leftover (ran ++ rest) d s.durable := by
  rcases h.saved with ⟨hs, -⟩ | ⟨hs, st, hst, hc⟩
  · exact .inl (by simp [Session.durable, hs])
  · have hdurable : s.durable = s.current := by simp [Session.durable, hs]
    exact .inr ⟨ran, rest, rfl, hdurable ▸ h.current, st, List.mem_append_left _ hst, hc⟩

theorem Ran.fails (h : Ran d ran s) (hf : Fails rest s s') :
    s'.durable = d ∨ Leftover (ran ++ rest) d s'.durable := by
  induction hf generalizing ran with
  | rejected st script s =>
    unfold before
    split
    · rename_i hc
      exact .inr ⟨ran, st :: script, rfl, h.current, st, by simp, hc⟩
    · exact h.durable _
  | lost script s => exact h.durable script
  | next he _ ih =>
    rw [List.append_cons]
    exact ih (h.execute he)

/-- A script begun in a transaction that does not end well leaves nothing, or its first
statements. -/
theorem Fails.durable (hf : Fails script (idle d).start s') :
    s'.durable = d ∨ Leftover script d s'.durable :=
  (ran_start d).fails hf

/-- Where no statement commits, a script is all or nothing. -/
theorem not_leftover {d' : ρ} (h : ∀ st ∈ script, st.commits = false) : ¬ Leftover script d d' := by
  rintro ⟨ran, rest, rfl, -, st, hst, hc⟩
  have hmem : st ∈ ran ++ rest := by
    rcases List.mem_append.mp hst with hst | hst
    · exact List.mem_append_left _ hst
    · exact List.mem_append_right _ (List.mem_of_mem_take hst)
  simp [h st hmem] at hc

end Session

namespace Leftover

variable {ρ : Type} {script : List (Statement ρ)} {d d' : ρ}

theorem append (h : Leftover script d d') (rest : List (Statement ρ)) :
    Leftover (script ++ rest) d d' := by
  obtain ⟨ran, rest', rfl, hran, st, hst, hc⟩ := h
  refine ⟨ran, rest' ++ rest, List.append_assoc _ _ _, hran, st, ?_, hc⟩
  rcases List.mem_append.mp hst with hst | hst
  · exact List.mem_append_left _ hst
  · cases rest' with
    | nil => cases hst
    | cons st' rest' => exact List.mem_append_right _ (by simpa using hst)

/-- A last statement that does not commit by itself adds nothing, or all. -/
theorem of_snoc {st : Statement ρ} (h : Leftover (script ++ [st]) d d')
    (hst : st.commits = false) : Leftover script d d' ∨ applyAll (script ++ [st]) d = some d' := by
  obtain ⟨ran, rest, hscript, hran, st', hst', hc⟩ := h
  rcases List.eq_nil_or_concat rest with rfl | ⟨rest, last, rfl⟩
  · rw [List.append_nil] at hscript
    exact .inr (hscript ▸ hran)
  · rw [List.concat_eq_append] at hst' hscript
    rw [← List.append_assoc] at hscript
    obtain ⟨rfl, hlast⟩ := List.append_inj' hscript rfl
    cases hlast
    refine .inl ⟨ran, rest, rfl, hran, st', ?_, hc⟩
    rcases List.mem_append.mp hst' with hst' | hst'
    · exact List.mem_append_left _ hst'
    · cases rest with
      | nil =>
        rw [List.nil_append, List.take_one, List.head?_cons, Option.toList_some,
          List.mem_singleton] at hst'
        rw [hst', hst] at hc
        cases hc
      | cons first rest => exact List.mem_append_right _ (by simpa using hst')

end Leftover
end Store
