import Mathlib.Data.Int.Bitwise
import Mathlib.Tactic.Common
import Pivotal.Fspiop.Errors
import Pivotal.Js.Date

/-! The generator of identifiers: a timestamp, a node and a sequence number. -/
open Fspiop (JsError)

/-- A generator, with the timestamp and the sequence number of its last identifier. -/
structure Snowflake where
  nodeId : ℕ
  lastTimestamp : ℤ
  sequence : ℕ
  deriving DecidableEq

namespace Snowflake

def epochBits : ℕ := 42

def nodeIdBits : ℕ := 10

def sequenceBits : ℕ := 12

def maxSequence : ℕ := 2 ^ sequenceBits - 1

def nodeIdShift : ℕ := sequenceBits

def timestampShift : ℕ := nodeIdBits + sequenceBits

def bigBang : ℤ := 1577813400000

def maxTimestamp : ℤ := 2 ^ epochBits - 1

/-- `nodeId & MAX_NODE_ID` is the remainder, also of a negative number. -/
def new (nodeId : ℤ) : Snowflake := ⟨(nodeId % 2 ^ nodeIdBits).toNat, -1, 0⟩

/-- Milliseconds since the epoch of the generator. -/
def timestamp (now : Js.Date) : ℤ := now - bigBang

/-- The readings of the clock are used up until one is late enough. Without one the call still
waits. -/
def waitNextMillis (lastTimestamp : ℤ) : List Js.Date → Option (ℤ × List Js.Date)
  | [] => none
  | now :: clock =>
    if timestamp now ≤ lastTimestamp then waitNextMillis lastTimestamp clock
    else some (timestamp now, clock)

/-- The timestamp, the node and the sequence number side by side. -/
def compose (timestamp : ℤ) (nodeId sequence : ℕ) : ℤ :=
  ((timestamp <<< timestampShift).lor ((nodeId : ℤ) <<< nodeIdShift)).lor
    ((sequence &&& maxSequence : ℕ) : ℤ)

def overflow : JsError := .plain ⟨"Error", "Snowflake timestamp overflow.", none, none⟩

/-- The sequence number and the timestamp that a call goes on with. -/
def advance (g : Snowflake) (currentTimestamp : ℤ) (clock : List Js.Date) :
    Option (ℤ × ℕ × List Js.Date) :=
  if currentTimestamp = g.lastTimestamp then
    let sequence := (g.sequence + 1) &&& maxSequence
    if sequence = 0 then
      (waitNextMillis g.lastTimestamp clock).map fun (ts, clock) => (ts, sequence, clock)
    else some (currentTimestamp, sequence, clock)
  else some (currentTimestamp, 0, clock)

/-- A clock that has gone back is waited for. -/
def catchUp (g : Snowflake) : List Js.Date → Option (ℤ × List Js.Date)
  | [] => none
  | now :: clock =>
    if timestamp now < g.lastTimestamp then waitNextMillis g.lastTimestamp clock
    else some (timestamp now, clock)

/-- A call, on the readings of the clock that are to come. -/
def nextId (g : Snowflake) (clock : List Js.Date) :
    Option (Except JsError ℤ × Snowflake × List Js.Date) := do
  let (currentTimestamp, clock) ← g.catchUp clock
  let (currentTimestamp, sequence, clock) ← g.advance currentTimestamp clock
  if currentTimestamp > maxTimestamp then
    return (.error overflow, { g with sequence := sequence }, clock)
  return (.ok (compose currentTimestamp g.nodeId sequence),
    ⟨g.nodeId, currentTimestamp, sequence⟩, clock)

/-- What the calls of a generator return, up to one that still waits. -/
def calls : ℕ → Snowflake → List Js.Date → List (Except JsError ℤ)
  | 0, _, _ => []
  | n + 1, g, clock =>
    match g.nextId clock with
    | none => []
    | some (result, g, clock) => result :: calls n g clock

/-- The clock is between the epoch and the last millisecond that has a timestamp. -/
def InRange (now : Js.Date) : Prop := 0 ≤ timestamp now ∧ timestamp now ≤ maxTimestamp

/-- How many readings are later than `last` and than all before them. -/
def milliseconds (last : ℤ) : List Js.Date → ℕ
  | [] => 0
  | now :: clock =>
    if timestamp now ≤ last then milliseconds last clock
    else milliseconds (timestamp now) clock + 1

structure Valid (g : Snowflake) : Prop where
  nodeId : g.nodeId < 2 ^ nodeIdBits
  sequence : g.sequence < 2 ^ sequenceBits
  timestamp : g.lastTimestamp ≤ maxTimestamp

/-- The last identifier of a generator, in its three parts. -/
def latest (g : Snowflake) : ℤ :=
  g.lastTimestamp * 2 ^ timestampShift + g.nodeId * 2 ^ nodeIdShift + g.sequence

theorem valid_new (nodeId : ℤ) : (new nodeId).Valid := by
  refine ⟨?_, by simp [new], by simp [new, maxTimestamp, epochBits]⟩
  have hlt := Int.emod_lt_of_pos nodeId (show (0 : ℤ) < 2 ^ nodeIdBits by simp)
  have hnonneg := Int.emod_nonneg nodeId (show (2 : ℤ) ^ nodeIdBits ≠ 0 by simp)
  simp only [new, nodeIdBits] at *
  omega

/-- The three parts do not overlap. -/
theorem compose_eq_latest {g : Snowflake} (hg : g.Valid) (ht : 0 ≤ g.lastTimestamp) :
    compose g.lastTimestamp g.nodeId g.sequence = g.latest := by
  obtain ⟨t, ht⟩ := Int.eq_ofNat_of_zero_le ht
  have hmask : g.sequence &&& maxSequence = g.sequence := by
    rw [maxSequence, Nat.and_two_pow_sub_one_eq_mod, Nat.mod_eq_of_lt hg.sequence]
  have hnode := hg.nodeId
  have hsequence := hg.sequence
  simp only [nodeIdBits, sequenceBits] at hnode hsequence
  have hupper : t <<< timestampShift ||| g.nodeId <<< nodeIdShift =
      (t * 2 ^ nodeIdBits + g.nodeId) <<< nodeIdShift := by
    have hpart : g.nodeId <<< nodeIdShift < 2 ^ timestampShift := by
      simp only [nodeIdShift, sequenceBits, timestampShift, nodeIdBits, Nat.shiftLeft_eq]
      omega
    rw [← Nat.shiftLeft_add_eq_or_of_lt hpart]
    simp only [Nat.shiftLeft_eq, timestampShift, nodeIdShift, nodeIdBits, sequenceBits]
    omega
  have hlower : (t * 2 ^ nodeIdBits + g.nodeId) <<< nodeIdShift ||| g.sequence =
      (t * 2 ^ nodeIdBits + g.nodeId) <<< nodeIdShift + g.sequence :=
    (Nat.shiftLeft_add_eq_or_of_lt hg.sequence _).symm
  calc compose g.lastTimestamp g.nodeId g.sequence
      = ((t <<< timestampShift ||| g.nodeId <<< nodeIdShift) ||| g.sequence : ℕ) := by
        rw [compose, hmask, ht]
        rfl
    _ = g.latest := by
        rw [hupper, hlower, latest, ht]
        simp only [Nat.shiftLeft_eq, timestampShift, nodeIdShift, nodeIdBits, sequenceBits]
        push_cast
        omega

theorem waitNextMillis_spec {last ts : ℤ} {clock clock' : List Js.Date}
    (h : waitNextMillis last clock = some (ts, clock')) :
    last < ts ∧ (∃ now ∈ clock, ts = timestamp now) ∧ ∀ now ∈ clock', now ∈ clock := by
  induction clock with
  | nil => cases h
  | cons now clock ih =>
    rw [waitNextMillis] at h
    split at h
    · obtain ⟨hlt, ⟨now', hnow', hts⟩, hrest⟩ := ih h
      exact ⟨hlt, ⟨now', List.mem_cons_of_mem _ hnow', hts⟩,
        fun now'' h'' => List.mem_cons_of_mem _ (hrest now'' h'')⟩
    · rename_i hlate
      cases h
      exact ⟨not_le.mp hlate, ⟨now, List.mem_cons_self .., rfl⟩,
        fun now' h' => List.mem_cons_of_mem _ h'⟩

theorem catchUp_spec {g : Snowflake} {ts : ℤ} {clock clock' : List Js.Date}
    (h : g.catchUp clock = some (ts, clock')) : g.lastTimestamp ≤ ts ∧
      (∃ now ∈ clock, ts = timestamp now) ∧ ∀ now ∈ clock', now ∈ clock := by
  cases clock with
  | nil => cases h
  | cons now clock =>
    rw [catchUp] at h
    split at h
    · obtain ⟨hlt, ⟨now', hnow', hts⟩, hrest⟩ := waitNextMillis_spec h
      exact ⟨hlt.le, ⟨now', List.mem_cons_of_mem _ hnow', hts⟩,
        fun now'' h'' => List.mem_cons_of_mem _ (hrest now'' h'')⟩
    · rename_i hlate
      cases h
      exact ⟨not_lt.mp hlate, ⟨now, List.mem_cons_self .., rfl⟩,
        fun now' h' => List.mem_cons_of_mem _ h'⟩

/-- The sequence number goes up with the timestamp as it is, or starts again with a later one. -/
theorem advance_spec {g : Snowflake} (hg : g.Valid) {ts ts' : ℤ} {sequence : ℕ}
    {clock clock' : List Js.Date} (hts : g.lastTimestamp ≤ ts)
    (h : g.advance ts clock = some (ts', sequence, clock')) :
    sequence < 2 ^ sequenceBits ∧
      (g.lastTimestamp < ts' ∨ g.lastTimestamp = ts' ∧ g.sequence < sequence) ∧
      (ts' = ts ∨ ∃ now ∈ clock, ts' = timestamp now) ∧ ∀ now ∈ clock', now ∈ clock := by
  have hmask : (g.sequence + 1) &&& maxSequence = (g.sequence + 1) % 2 ^ sequenceBits :=
    Nat.and_two_pow_sub_one_eq_mod _ _
  have hsequence := hg.sequence
  unfold advance at h
  simp only [hmask] at h
  split at h
  · rename_i hsame
    split at h
    · rename_i hzero
      obtain ⟨⟨ts'', clock''⟩, hwait, heq⟩ := Option.map_eq_some_iff.mp h
      cases heq
      obtain ⟨hlt, hread, hrest⟩ := waitNextMillis_spec hwait
      exact ⟨Nat.mod_lt _ (by simp), .inl hlt, .inr hread, hrest⟩
    · rename_i hzero
      cases h
      refine ⟨Nat.mod_lt _ (by simp), .inr ⟨hsame.symm, ?_⟩, .inl rfl, fun _ h => h⟩
      simp only [sequenceBits] at *
      omega
  · rename_i hother
    cases h
    exact ⟨by simp, .inl (lt_of_le_of_ne hts (Ne.symm hother)), .inl rfl, fun _ h => h⟩

theorem milliseconds_of_waits {last : ℤ} {clock : List Js.Date}
    (h : waitNextMillis last clock = none) : milliseconds last clock = 0 := by
  induction clock with
  | nil => rfl
  | cons now clock ih =>
    rw [waitNextMillis] at h
    split at h
    · rename_i hearly
      rw [milliseconds, if_pos hearly, ih h]
    · cases h

theorem milliseconds_of_waited {last ts : ℤ} {clock clock' : List Js.Date}
    (h : waitNextMillis last clock = some (ts, clock')) :
    milliseconds last clock = milliseconds ts clock' + 1 := by
  induction clock with
  | nil => cases h
  | cons now clock ih =>
    rw [waitNextMillis] at h
    split at h
    · rename_i hearly
      rw [milliseconds, if_pos hearly, ih h]
    · rename_i hlate
      cases h
      rw [milliseconds, if_neg hlate]

theorem catchUp_none {g : Snowflake} {clock : List Js.Date} (h : g.catchUp clock = none) :
    milliseconds g.lastTimestamp clock = 0 := by
  cases clock with
  | nil => rfl
  | cons now clock =>
    rw [catchUp] at h
    split at h
    · rename_i hearly
      rw [milliseconds, if_pos hearly.le, milliseconds_of_waits h]
    · cases h

/-- Catching up takes no later millisecond, or one, which is the timestamp. -/
theorem catchUp_milliseconds {g : Snowflake} {ts : ℤ} {clock clock' : List Js.Date}
    (h : g.catchUp clock = some (ts, clock')) :
    ts = g.lastTimestamp ∧
        milliseconds g.lastTimestamp clock = milliseconds g.lastTimestamp clock' ∨
      ts ≠ g.lastTimestamp ∧
        milliseconds g.lastTimestamp clock = milliseconds ts clock' + 1 := by
  cases clock with
  | nil => cases h
  | cons now clock =>
    rw [catchUp] at h
    split at h
    · rename_i hearly
      rw [milliseconds, if_pos hearly.le, milliseconds_of_waited h]
      exact .inr ⟨(waitNextMillis_spec h).1.ne', rfl⟩
    · rename_i hlate
      cases h
      rcases (not_lt.mp hlate).eq_or_lt with hsame | hlater
      · rw [milliseconds, if_pos hsame.ge]
        exact .inl ⟨hsame.symm, rfl⟩
      · rw [milliseconds, if_neg (not_le.mpr hlater)]
        exact .inr ⟨hlater.ne', rfl⟩

/-- A call waits for ever only where the clock shows no later millisecond any more. -/
theorem nextId_none {g : Snowflake} {clock : List Js.Date} (h : g.nextId clock = none) :
    milliseconds g.lastTimestamp clock = 0 := by
  unfold nextId at h
  cases hread : g.catchUp clock with
  | none => exact catchUp_none hread
  | some read =>
    obtain ⟨ts, clock'⟩ := read
    obtain ⟨rfl, hsame⟩ | ⟨hother, -⟩ := catchUp_milliseconds hread
    · cases hadvance : g.advance g.lastTimestamp clock' with
      | none =>
        rw [advance, if_pos rfl] at hadvance
        dsimp only at hadvance
        split at hadvance
        · exact hsame.trans (milliseconds_of_waits (Option.map_eq_none_iff.mp hadvance))
        · cases hadvance
      | some advanced =>
        simp only [hread, hadvance, Option.bind_eq_bind, Option.bind_some] at h
        split at h <;> cases h
    · simp only [hread, advance, if_neg hother, Option.bind_eq_bind, Option.bind_some] at h
      split at h <;> cases h

/-- A call takes at most one later millisecond of the clock. -/
theorem nextId_milliseconds {g g' : Snowflake} {clock clock' : List Js.Date} {id : ℤ}
    (h : g.nextId clock = some (.ok id, g', clock')) :
    milliseconds g.lastTimestamp clock ≤ milliseconds g'.lastTimestamp clock' + 1 := by
  obtain ⟨⟨ts, clock₁⟩, hread, h⟩ := Option.bind_eq_some_iff.mp h
  obtain ⟨⟨ts', sequence, clock₂⟩, hadvance, h⟩ := Option.bind_eq_some_iff.mp h
  dsimp only at h
  split at h
  · cases h
  cases h
  dsimp only
  rw [advance] at hadvance
  obtain ⟨rfl, hsame⟩ | ⟨hother, htaken⟩ := catchUp_milliseconds hread
  · rw [if_pos rfl] at hadvance
    dsimp only at hadvance
    split at hadvance
    · obtain ⟨⟨ts'', clock''⟩, hwait, heq⟩ := Option.map_eq_some_iff.mp hadvance
      cases heq
      exact (hsame.trans (milliseconds_of_waited hwait)).le
    · cases hadvance
      exact hsame.le.trans (Nat.le_succ _)
  · rw [if_neg hother] at hadvance
    cases hadvance
    exact htaken.le

/-- A call returns an identifier that is greater than the last one. -/
theorem nextId_spec {g g' : Snowflake} {clock clock' : List Js.Date}
    {result : Except JsError ℤ} (hg : g.Valid) (hclock : ∀ now ∈ clock, InRange now)
    (h : g.nextId clock = some (result, g', clock')) :
    result = .ok g'.latest ∧ g'.Valid ∧ g'.nodeId = g.nodeId ∧ g.latest < g'.latest ∧
      0 ≤ g'.lastTimestamp ∧ ∀ now ∈ clock', now ∈ clock := by
  obtain ⟨⟨ts, clock₁⟩, hread, h⟩ := Option.bind_eq_some_iff.mp h
  obtain ⟨⟨ts', sequence, clock₂⟩, hadvance, h⟩ := Option.bind_eq_some_iff.mp h
  obtain ⟨hlast, hts, hrest⟩ := catchUp_spec hread
  obtain ⟨hsequence, horder, hts', hrest'⟩ := advance_spec hg hlast hadvance
  have hrange : 0 ≤ ts' ∧ ts' ≤ maxTimestamp := by
    rcases hts' with rfl | ⟨now', hnow', rfl⟩
    · obtain ⟨now', hnow', rfl⟩ := hts
      exact hclock now' hnow'
    · exact hclock now' (hrest now' hnow')
  simp only [not_lt.mpr hrange.2, if_false] at h
  cases h
  have hvalid : Valid ⟨g.nodeId, ts', sequence⟩ := ⟨hg.nodeId, hsequence, hrange.2⟩
  refine ⟨congrArg _ (compose_eq_latest hvalid hrange.1), hvalid, rfl, ?_, hrange.1,
    fun now' h' => hrest now' (hrest' now' h')⟩
  have hbound := hg.sequence
  simp only [latest, timestampShift, nodeIdShift, nodeIdBits, sequenceBits] at *
  omega

theorem latest_bounds {g : Snowflake} (hg : g.Valid) (ht : 0 ≤ g.lastTimestamp) :
    0 ≤ g.latest ∧ g.latest < 2 ^ 64 := by
  obtain ⟨hnode, hsequence, htime⟩ := hg
  simp only [latest, timestampShift, nodeIdShift, nodeIdBits, sequenceBits, maxTimestamp,
    epochBits] at *
  omega

theorem nodeId_of_latest {g g' : Snowflake} (hg : g.Valid) (hg' : g'.Valid)
    (h : g.latest = g'.latest) : g.nodeId = g'.nodeId := by
  obtain ⟨hnode, hsequence, -⟩ := hg
  obtain ⟨hnode', hsequence', -⟩ := hg'
  simp only [latest, timestampShift, nodeIdShift, nodeIdBits, sequenceBits] at *
  omega

/-- What is known of a generator's identifiers from some point on. -/
theorem calls_spec (n : ℕ) {g : Snowflake} {clock : List Js.Date} (hg : g.Valid)
    (hclock : ∀ now ∈ clock, InRange now) : ∃ ids : List ℤ, calls n g clock = ids.map .ok ∧
      (ids.length ≤ n ∧ min n (milliseconds g.lastTimestamp clock) ≤ ids.length) ∧
      ids.Pairwise (· < ·) ∧ ∀ id ∈ ids, g.latest < id ∧
        ∃ g' : Snowflake, g'.Valid ∧ g'.nodeId = g.nodeId ∧ 0 ≤ g'.lastTimestamp ∧ id = g'.latest := by
  induction n generalizing g clock with
  | zero => exact ⟨[], rfl, ⟨le_rfl, Nat.min_le_left ..⟩, .nil, nofun⟩
  | succ n ih =>
    rw [calls]
    cases h : g.nextId clock with
    | none =>
      refine ⟨[], rfl, ⟨Nat.zero_le _, ?_⟩, .nil, nofun⟩
      rw [nextId_none h]
      exact Nat.min_le_right ..
    | some next =>
      obtain ⟨result, g', clock'⟩ := next
      obtain ⟨rfl, hvalid, hnode, hlt, htime, hrest⟩ := nextId_spec hg hclock h
      obtain ⟨ids, hids, ⟨hmost, hleast⟩, hordered, hlater⟩ :=
        ih hvalid fun now hnow => hclock now (hrest now hnow)
      have htaken := nextId_milliseconds h
      refine ⟨g'.latest :: ids, by simp [hids], ?_, ?_, ?_⟩
      · rw [List.length_cons]
        omega
      · exact List.pairwise_cons.mpr ⟨fun id hid => (hlater id hid).1, hordered⟩
      · intro id hid
        rcases List.mem_cons.mp hid with rfl | hid
        · exact ⟨hlt, g', hvalid, hnode, htime, rfl⟩
        · obtain ⟨hid, g'', hvalid', hnode', htime', heq⟩ := hlater id hid
          exact ⟨hlt.trans hid, g'', hvalid', hnode'.trans hnode, htime', heq⟩

/-- The calls of a generator return identifiers of 64 bits, each greater than the ones before it,
and no generator of another node returns one of them. There is one for each call, where the clock
shows as many milliseconds. -/
theorem ids_unique_and_ordered (nodeId : ℤ) (clock : List Js.Date) (n : ℕ)
    (hclock : ∀ now ∈ clock, InRange now) : ∃ ids : List ℤ,
      calls n (new nodeId) clock = ids.map .ok ∧
      (ids.length ≤ n ∧ min n (milliseconds (-1) clock) ≤ ids.length) ∧
      (∀ id ∈ ids, 0 ≤ id ∧ id < 2 ^ 64) ∧ ids.Nodup ∧ ids.Pairwise (· < ·) ∧
      ∀ (nodeId' : ℤ) (clock' : List Js.Date) (n' : ℕ), (∀ now ∈ clock', InRange now) →
        (new nodeId').nodeId ≠ (new nodeId).nodeId →
        ∀ id ∈ ids, .ok id ∉ calls n' (new nodeId') clock' := by
  obtain ⟨ids, hids, hcount, hordered, hspec⟩ := calls_spec n (valid_new nodeId) hclock
  refine ⟨ids, hids, hcount, ?_, hordered.imp ne_of_lt, hordered, ?_⟩
  · intro id hid
    obtain ⟨-, g, hg, -, ht, rfl⟩ := hspec id hid
    exact latest_bounds hg ht
  · intro nodeId' clock' n' hclock' hother id hid hmem
    obtain ⟨-, g, hg, hnode, -, heq⟩ := hspec id hid
    obtain ⟨ids', hids', -, -, hspec'⟩ := calls_spec n' (valid_new nodeId') hclock'
    rw [hids'] at hmem
    obtain ⟨id', hid', hsame⟩ := List.mem_map.mp hmem
    obtain ⟨-, g', hg', hnode', -, heq'⟩ := hspec' id' hid'
    have hlatest : g'.latest = g.latest := heq'.symm.trans ((Except.ok.inj hsame).trans heq)
    exact hother (hnode'.symm.trans ((nodeId_of_latest hg' hg hlatest).trans hnode))

theorem ids_unique_and_ordered_sample : ∃ ids : List ℤ, ids = [29364224, 29364225, 33558528] ∧
    calls 3 (new 1025) [1577813400007, 1577813400007, 1577813400005, 1577813400008] =
      ids.map .ok ∧
    (∀ id ∈ ids, 0 ≤ id ∧ id < 2 ^ 64) ∧ ids.Nodup ∧ ids.Pairwise (· < ·) ∧
    .ok 29364224 ∉ calls 1 (new 8) [1577813400007] := by
  have hrange : ∀ now ∈ ([1577813400007, 1577813400007, 1577813400005, 1577813400008] : List ℤ),
      InRange now := by
    simp [InRange, timestamp, bigBang, maxTimestamp, epochBits]
  obtain ⟨ids, hids, -, hbounds, hnodup, hordered, hothers⟩ := ids_unique_and_ordered 1025 _ 3 hrange
  have hreturned : ids = [29364224, 29364225, 33558528] :=
    List.map_injective_iff.mpr (fun _ _ => Except.ok.inj) (hids.symm.trans (by decide))
  exact ⟨ids, hreturned, hids, hbounds, hnodup, hordered,
    hothers 8 [1577813400007] 1 (fun now hnow => hrange now (by simp_all)) (by decide) _
      (by simp [hreturned])⟩

end Snowflake
