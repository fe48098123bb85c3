import Mathlib.Data.Int.Notation
import Mathlib.Data.List.Induction
import Mathlib.Tactic.Common
import Mathlib.Tactic.SplitIfs

/-! Counters under keys, each of which lives for a time from when it is made. -/
namespace Store.Windows

structure Counter where
  count : ℕ
  expiresAt : ℤ
  deriving DecidableEq

/-- A counter is made by its first increment, and anew by the first after it has expired. -/
def Counter.increment (ttl now : ℤ) (counter : Option Counter) : Counter :=
  match counter with
  | none => ⟨1, now + ttl⟩
  | some counter =>
    if now ≤ counter.expiresAt then { counter with count := counter.count + 1 }
    else ⟨1, now + ttl⟩

abbrev Counters (κ : Type) := κ → Option Counter

variable {κ : Type} [DecidableEq κ]

def Counters.incrementWithTtl (counters : Counters κ) (key : κ) (ttl now : ℤ) : Counters κ :=
  fun other => if other = key then some (Counter.increment ttl now (counters key))
    else counters other

/-- The counter that is left by increments at some times. -/
def counterOf (ttl : ℤ) (times : List ℤ) : Option Counter :=
  times.foldl (fun counter now => some (Counter.increment ttl now counter)) none

theorem counterOf_concat (ttl : ℤ) (times : List ℤ) (now : ℤ) :
    counterOf ttl (times ++ [now]) = some (Counter.increment ttl now (counterOf ttl times)) := by
  rw [counterOf, List.foldl_append]
  rfl

/-- A counter is that of the increments of its own key. -/
theorem foldl_incrementWithTtl (ttl : ℤ) (hits : List (κ × ℤ)) (key : κ) :
    hits.foldl (fun counters hit => Counters.incrementWithTtl counters hit.1 ttl hit.2)
        (fun _ => none) key =
      counterOf ttl ((hits.filter fun hit => hit.1 = key).map Prod.snd) := by
  induction hits using List.reverseRecOn with
  | nil => rfl
  | append_singleton hits hit ih =>
    rw [List.foldl_append, List.foldl_cons, List.foldl_nil, List.filter_append, List.map_append]
    by_cases hkey : hit.1 = key
    · have hlast : [hit].filter (fun hit => hit.1 = key) = [hit] := by simp [hkey]
      rw [hlast, List.map_singleton, counterOf_concat, ← ih]
      simp [Counters.incrementWithTtl, hkey]
    · have hlast : [hit].filter (fun hit => hit.1 = key) = [] := by simp [hkey]
      rw [hlast, List.map_nil, List.append_nil, ← ih]
      simp [Counters.incrementWithTtl, Ne.symm hkey]

/-- The times that fall in one window with the last of them: a window begins with the first time
that falls in none before, and ends after `ttl`. -/
def place (ttl : ℤ) (window : List ℤ) (now : ℤ) : List ℤ :=
  match window with
  | [] => [now]
  | start :: _ => if now ≤ start + ttl then window ++ [now] else [now]

def windowOf (ttl : ℤ) (times : List ℤ) : List ℤ := times.foldl (place ttl) []

/-- A counter counts the times of the window in force. -/
theorem counterOf_eq (ttl : ℤ) (times : List ℤ) :
    counterOf ttl times =
      (windowOf ttl times).head?.map fun start => ⟨(windowOf ttl times).length, start + ttl⟩ := by
  induction times using List.reverseRecOn with
  | nil => rfl
  | append_singleton times now ih =>
    have hplace : windowOf ttl (times ++ [now]) = place ttl (windowOf ttl times) now := by
      rw [windowOf, List.foldl_append]
      rfl
    rw [counterOf_concat, ih, hplace]
    cases windowOf ttl times with
    | nil => rfl
    | cons start window =>
      rw [place]
      simp only [List.head?_cons, Option.map_some, Counter.increment]
      split_ifs with hwindow
      · simp
      · rfl

/-- The next increment counts the window that its time falls in. -/
theorem count_increment_counterOf (ttl : ℤ) (times : List ℤ) (now : ℤ) :
    (Counter.increment ttl now (counterOf ttl times)).count =
      (windowOf ttl (times ++ [now])).length := by
  have hconcat := counterOf_concat ttl times now
  rw [counterOf_eq] at hconcat
  obtain ⟨start, -, hcounter⟩ := Option.map_eq_some_iff.mp hconcat
  rw [← hcounter]

/-- Times that are all the same fall in one window. -/
theorem windowOf_replicate {ttl : ℤ} (httl : 0 ≤ ttl) (n : ℕ) (now : ℤ) :
    windowOf ttl (List.replicate n now) = List.replicate n now := by
  induction n with
  | zero => rfl
  | succ n ih =>
    rw [List.replicate_succ', windowOf, List.foldl_append, ← windowOf, ih]
    cases n with
    | zero => rfl
    | succ n => exact if_pos (by omega)

end Store.Windows
