import Mathlib.Data.List.Lex
import Pivotal.Js.Members
import Pivotal.Outbound.AccessGuard

/-! The canonical texts of values, by which a signed payload is compared with a body. They are the
texts of the values with the members of every object in the order of `localeCompare`. -/
namespace Outbound
open Fspiop Js

variable {ν κ : Type}

/-- `Jwt.toCanonicalJson` has the same branches. -/
def Jwt.toCanonicalJson (guard : AccessGuard ν κ) (value : Value ν) : List Char :=
  guard.canonicalChars value

namespace AccessGuard
open Value

variable (guard : AccessGuard ν κ)

/-- A value with its members in order. -/
def sorted (v : Value ν) : Value ν := v.rebuild id guard.sortByKey

theorem commaJoin_items (item : Value ν) (items : List (Value ν)) :
    commaJoin ((item :: items).map (Value.chars guard.numbers)) ++ [']'] =
      item.chars guard.numbers ++ itemsChars guard.numbers items := by
  induction items generalizing item with
  | nil => rfl
  | cons next items ih =>
    rw [itemsChars, List.cons_append, ← ih next]
    simp [commaJoin]

theorem commaJoin_fields (key : Units) (value : Value ν) (fields : List (Units × Value ν)) :
    commaJoin (((key, value) :: fields).map fun field =>
        quote field.1 ++ ':' :: Value.chars guard.numbers field.2) ++ ['\x7d'] =
      quote key ++ ':' :: (value.chars guard.numbers ++ fieldsChars guard.numbers fields) := by
  induction fields generalizing key value with
  | nil => simp [commaJoin, fieldsChars]
  | cons field fields ih =>
    obtain ⟨next, nextValue⟩ := field
    have hnext := ih next nextValue
    simp only [List.map_cons, commaJoin, List.append_assoc, List.cons_append] at hnext ⊢
    rw [fieldsChars]
    simp only [List.append_assoc, List.cons_append]
    rw [← hnext]

theorem sortByKey_map {α β : Type} (f : α → β) (entries : List (Units × α)) :
    guard.sortByKey (entries.map (Prod.map id f)) = (guard.sortByKey entries).map (Prod.map id f) := by
  symm
  exact List.map_insertionSort _ _ _ _ fun _ _ _ _ => Iff.rfl

theorem arrayChars (items : List (Value ν)) :
    '[' :: commaJoin (items.map (Value.chars guard.numbers)) ++ [']'] =
      (Value.array items).chars guard.numbers := by
  cases items with
  | nil => rfl
  | cons item items =>
    rw [List.cons_append, commaJoin_items]
    rfl

theorem objectChars_map (fields : List (Units × Value ν)) :
    guard.objectChars (fields.map (Prod.map id (Value.chars guard.numbers))) =
      (Value.object (guard.sortByKey fields)).chars guard.numbers := by
  simp only [objectChars, sortByKey_map, List.map_map, Function.comp_def, Prod.map, id_eq]
  cases guard.sortByKey fields with
  | nil => rfl
  | cons field fields =>
    obtain ⟨key, value⟩ := field
    rw [List.cons_append, commaJoin_fields, Value.chars]
    simp only [List.cons_append, List.append_assoc]

theorem canonicalChars_leaf {v : Value ν} (hv : v.IsLeaf) :
    guard.canonicalChars v = v.chars guard.numbers := by
  cases v with
  | null | bool b | number n | string s => rfl
  | array items | object fields => exact hv.elim

theorem canonicalChars_array (items : List (Value ν)) :
    guard.canonicalChars (.array items) =
      '[' :: commaJoin (items.map guard.canonicalChars) ++ [']'] := by
  have hitems : guard.canonicalItems items = items.map guard.canonicalChars := by
    induction items with
    | nil => rfl
    | cons item items ih => exact congrArg _ ih
  rw [canonicalChars, hitems]

theorem canonicalChars_object (fields : List (Units × Value ν)) :
    guard.canonicalChars (.object fields) =
      guard.objectChars (fields.map (Prod.map id guard.canonicalChars)) := by
  have hfields : guard.canonicalFields fields = fields.map (Prod.map id guard.canonicalChars) := by
    induction fields with
    | nil => rfl
    | cons field fields ih => exact congrArg _ ih
  rw [canonicalChars, hfields]

/-- The canonical text is that of the value with its members in order. -/
theorem canonicalChars_eq (v : Value ν) :
    guard.canonicalChars v = (guard.sorted v).chars guard.numbers := by
  unfold sorted
  induction v using parts_induct with
  | hleaf v hv =>
    rw [rebuild_leaf _ _ hv, canonicalChars_leaf _ hv]
    rfl
  | harray items ih =>
    rw [canonicalChars_array, rebuild_array, ← arrayChars, List.map_map, List.map_congr_left ih]
    rfl
  | hobject fields ih =>
    have hfields : fields.map (Prod.map id guard.canonicalChars) =
        (fields.map (Prod.map id (rebuild id guard.sortByKey))).map
          (Prod.map id (Value.chars guard.numbers)) := by
      rw [List.map_map]
      exact List.map_congr_left fun field hfield => Prod.ext rfl (ih field hfield)
    rw [canonicalChars_object, rebuild_object, hfields, objectChars_map]

/-- Parts are not told apart by more than their texts. -/
theorem canonicalChars_rebuild {leaf : Value ν → Value ν}
    (hleaf : ∀ v : Value ν, v.IsLeaf → (leaf v).IsLeaf ∧
      (leaf v).chars guard.numbers = v.chars guard.numbers) (v : Value ν) :
    guard.canonicalChars (v.rebuild leaf id) = guard.canonicalChars v := by
  induction v using parts_induct with
  | hleaf v hv =>
    rw [rebuild_leaf _ _ hv, canonicalChars_leaf _ (hleaf v hv).1, canonicalChars_leaf _ hv]
    exact (hleaf v hv).2
  | harray items ih =>
    rw [rebuild_array, canonicalChars_array, canonicalChars_array, List.map_map,
      ← List.map_congr_left ih]
    rfl
  | hobject fields ih =>
    have hfields : (fields.map (Prod.map id (rebuild leaf id))).map
        (Prod.map id guard.canonicalChars) = fields.map (Prod.map id guard.canonicalChars) := by
      rw [List.map_map]
      exact List.map_congr_left fun field hfield => Prod.ext rfl (ih field hfield)
    rw [rebuild_object, canonicalChars_object, canonicalChars_object, id_eq, hfields]

/-- Two keys that `localeCompare` does not tell apart. -/
def Ties (key key' : Units) : Prop :=
  guard.localeLe key key' = true ∧ guard.localeLe key' key = true

instance (key key' : Units) : Decidable (guard.Ties key key') :=
  inferInstanceAs (Decidable (_ ∧ _))

/-- Keys of one object that tie are not listed in the order in which they are set. -/
def Separated : Value ν → Prop :=
  Every (fun _ => True) fun keys =>
    keys.Pairwise fun key key' => guard.Ties key key' → rank key ≠ rank key'

/-- The order of the members in a canonical text: members that tie stay as objects list them. -/
def EntryLe {α : Type} (left right : Units × α) : Prop :=
  guard.localeLe left.1 right.1 = true ∧
    (guard.localeLe right.1 left.1 = true → rank left.1 ≤ rank right.1)

instance {α : Type} : DecidableRel (guard.EntryLe (α := α)) :=
  fun _ _ => inferInstanceAs (Decidable (_ ∧ _))

/-- The members of a canonical text, however they are listed. -/
def sortEntries {α : Type} (entries : List (Units × α)) : List (Units × α) :=
  entries.insertionSort guard.EntryLe

theorem sortByKey_perm {α : Type} (entries : List (Units × α)) :
    (guard.sortByKey entries).Perm entries := List.perm_insertionSort _ _

theorem sortEntries_perm {α : Type} (entries : List (Units × α)) :
    (guard.sortEntries entries).Perm entries := List.perm_insertionSort _ _

theorem not_ties_symm {key key' : Units} (h : guard.Ties key key' → rank key ≠ rank key')
    (hties : guard.Ties key' key) : rank key' ≠ rank key :=
  (h ⟨hties.2, hties.1⟩).symm

theorem separated_iff {v w : Value ν} (h : SameMembers v w) :
    guard.Separated v ↔ guard.Separated w := by
  refine h.every_iff fun {l l'} hperm => ?_
  exact hperm.pairwise_iff fun {key key'} h => guard.not_ties_symm h

/-- Members whose keys are separated have one order. -/
theorem eq_of_pairwise_entryLe {α : Type} {entries sorted sorted' : List (Units × α)}
    (hseparated : (entries.map Prod.fst).Pairwise fun key key' =>
      guard.Ties key key' → rank key ≠ rank key')
    (hperm : sorted.Perm entries) (hperm' : sorted'.Perm entries)
    (hsorted : sorted.Pairwise guard.EntryLe) (hsorted' : sorted'.Pairwise guard.EntryLe) :
    sorted = sorted' := by
  have hsymm : Std.Symm fun left right : Units × α =>
      guard.Ties left.1 right.1 → rank left.1 ≠ rank right.1 :=
    ⟨fun _ _ h => guard.not_ties_symm h⟩
  have hapart := (List.pairwise_map.mp hseparated).forall
  refine List.Perm.eq_of_pairwise (fun left right hleft hright hle hge => ?_) hsorted hsorted'
    (hperm.trans hperm'.symm)
  by_contra hne
  exact hapart (hperm.mem_iff.mp hleft) (hperm'.mem_iff.mp hright) hne ⟨hle.1, hge.1⟩
    (le_antisymm (hle.2 hge.1) (hge.2 hle.1))

section Order

variable (htotal : ∀ key key', guard.localeLe key key' = true ∨ guard.localeLe key' key = true)
  (htrans : ∀ key key' key'', guard.localeLe key key' = true → guard.localeLe key' key'' = true →
    guard.localeLe key key'' = true)

include htotal htrans in
theorem pairwise_sortByKey {α : Type} (entries : List (Units × α)) :
    (guard.sortByKey entries).Pairwise fun left right => guard.localeLe left.1 right.1 = true := by
  have : Std.Total fun left right : Units × α => guard.localeLe left.1 right.1 = true :=
    ⟨fun left right => htotal left.1 right.1⟩
  have : IsTrans (Units × α) fun left right => guard.localeLe left.1 right.1 = true :=
    ⟨fun left middle right => htrans left.1 middle.1 right.1⟩
  exact List.pairwise_insertionSort _ entries

include htotal htrans in
theorem pairwise_sortEntries {α : Type} (entries : List (Units × α)) :
    (guard.sortEntries entries).Pairwise guard.EntryLe := by
  have : Std.Total (guard.EntryLe (α := α)) := by
    refine ⟨fun left right => ?_⟩
    by_cases hle : guard.localeLe left.1 right.1 = true
    · by_cases hge : guard.localeLe right.1 left.1 = true
      · exact (le_total (rank left.1) (rank right.1)).imp (fun h => ⟨hle, fun _ => h⟩)
          fun h => ⟨hge, fun _ => h⟩
      · exact .inl ⟨hle, fun h => absurd h hge⟩
    · exact .inr ⟨(htotal _ _).resolve_left hle, fun h => absurd h hle⟩
  have : IsTrans (Units × α) guard.EntryLe := by
    refine ⟨fun left middle right h h' => ⟨htrans _ _ _ h.1 h'.1, fun hback => ?_⟩⟩
    exact (h.2 (htrans _ _ _ h'.1 hback)).trans (h'.2 (htrans _ _ _ hback h.1))
  exact List.pairwise_insertionSort _ entries

include htotal htrans in
/-- The sort leaves members whose keys tie as they stand. -/
theorem pairwise_entryLe {α : Type} {entries : List (Units × α)}
    (hlisted : Listed (entries.map Prod.fst)) :
    (guard.sortByKey entries).Pairwise guard.EntryLe := by
  have hperm := guard.sortByKey_perm entries
  have hnodup := hperm.nodup_iff.mpr hlisted.1.of_map
  have hle := pairwise_sortByKey guard htotal htrans entries
  rw [List.pairwise_iff_forall_sublist] at hle ⊢
  intro left right hpair
  refine ⟨hle hpair, fun hback => ?_⟩
  have hne : left ≠ right := List.pairwise_iff_forall_sublist.mp hnodup hpair
  have hleft := hperm.mem_iff.mp (hpair.subset List.mem_cons_self)
  have hright := hperm.mem_iff.mp (hpair.subset (List.mem_cons_of_mem _ List.mem_cons_self))
  obtain hsame | hother := pair_sublist_or hleft hright hne
  · exact List.pairwise_iff_forall_sublist.mp (List.pairwise_map.mp hlisted.2) hsame
  · have hsorted := List.pair_sublist_insertionSort
      (r := fun left right : Units × α => guard.localeLe left.1 right.1 = true) hback hother
    exact absurd hsorted (not_pair_sublist hnodup hpair)

include htotal htrans in
theorem sortByKey_eq {α : Type} {entries : List (Units × α)}
    (hlisted : Listed (entries.map Prod.fst))
    (hseparated : (entries.map Prod.fst).Pairwise fun key key' =>
      guard.Ties key key' → rank key ≠ rank key') :
    guard.sortByKey entries = guard.sortEntries entries :=
  eq_of_pairwise_entryLe guard hseparated (guard.sortByKey_perm entries)
    (guard.sortEntries_perm entries) (pairwise_entryLe guard htotal htrans hlisted)
    (pairwise_sortEntries guard htotal htrans entries)

include htotal htrans in
theorem sortEntries_eq_of_perm {α : Type} {entries entries' : List (Units × α)}
    (hperm : entries.Perm entries')
    (hseparated : (entries.map Prod.fst).Pairwise fun key key' =>
      guard.Ties key key' → rank key ≠ rank key') :
    guard.sortEntries entries = guard.sortEntries entries' :=
  eq_of_pairwise_entryLe guard hseparated (guard.sortEntries_perm entries)
    ((guard.sortEntries_perm entries').trans hperm.symm)
    (pairwise_sortEntries guard htotal htrans entries)
    (pairwise_sortEntries guard htotal htrans entries')

theorem map_keys_rebuild (leaf : Value ν → Value ν)
    (order : List (Units × Value ν) → List (Units × Value ν)) (fields : List (Units × Value ν)) :
    (fields.map (Prod.map id (rebuild leaf order))).map Prod.fst = fields.map Prod.fst := by
  rw [List.map_map]
  rfl

include htotal htrans in
/-- A value that was read has its members put in order however they are listed. -/
theorem sorted_eq_rebuild {v : Value ν} (hjson : v.IsJson) (hseparated : guard.Separated v) :
    guard.sorted v = v.rebuild id guard.sortEntries := by
  unfold sorted
  induction v using parts_induct with
  | hleaf v hv => rw [rebuild_leaf _ _ hv, rebuild_leaf _ _ hv]
  | harray items ih =>
    rw [IsJson, every_array] at hjson
    rw [Separated, every_array] at hseparated
    rw [rebuild_array, rebuild_array]
    exact congrArg Value.array
      (List.map_congr_left fun item hitem => ih item hitem (hjson item hitem) (hseparated item hitem))
  | hobject fields ih =>
    rw [IsJson, every_object] at hjson
    rw [Separated, every_object] at hseparated
    have hfields : fields.map (Prod.map id (rebuild id guard.sortByKey)) =
        fields.map (Prod.map id (rebuild id guard.sortEntries)) :=
      List.map_congr_left fun field hfield =>
        Prod.ext rfl (ih field hfield (hjson.2 field hfield) (hseparated.2 field hfield))
    rw [rebuild_object, rebuild_object, hfields, sortByKey_eq guard htotal htrans]
    · rw [map_keys_rebuild]
      exact hjson.1
    · rw [map_keys_rebuild]
      exact hseparated.1

include htotal htrans in
theorem rebuild_congr {v w : Value ν} (h : SameMembers v w) (hseparated : guard.Separated v) :
    v.rebuild id guard.sortEntries = w.rebuild id guard.sortEntries := by
  induction h with
  | refl v => rfl
  | symm h ih => exact (ih ((guard.separated_iff h).mpr hseparated)).symm
  | trans h _ ih ih' => exact (ih hseparated).trans (ih' ((guard.separated_iff h).mp hseparated))
  | reorder hperm =>
    rw [Separated, every_object] at hseparated
    rw [rebuild_object, rebuild_object,
      sortEntries_eq_of_perm guard htotal htrans (hperm.map (Prod.map id (rebuild id guard.sortEntries)))]
    rw [map_keys_rebuild]
    exact hseparated.1
  | item before after _ ih =>
    rw [Separated, every_array] at hseparated
    rw [rebuild_array, rebuild_array, List.map_append, List.map_append, List.map_cons,
      List.map_cons, ih (hseparated _ (by simp))]
  | member key before after _ ih =>
    rw [Separated, every_object] at hseparated
    rw [rebuild_object, rebuild_object, List.map_append, List.map_append, List.map_cons,
      List.map_cons, Prod.map_apply, Prod.map_apply, ih (hseparated.2 (key, _) (by simp))]

end Order

/-- A canonical text without `null` in it is that of one value, up to the order of members. -/
theorem sameMembers_of_canonical
    (hread : ∀ n cs, guard.numbers.write n = some cs → guard.numbers.read cs = n) {v w : Value ν}
    (hnull : v.HasNoNull guard.numbers) (h : guard.canonicalChars v = guard.canonicalChars w) :
    guard.sorted v = guard.sorted w ∧ SameMembers v w := by
  have hv : SameMembers v (guard.sorted v) := sameMembers_rebuild guard.sortByKey_perm v
  have hw : SameMembers w (guard.sorted w) := sameMembers_rebuild guard.sortByKey_perm w
  have hsorted : guard.sorted v = guard.sorted w := by
    rw [canonicalChars_eq, canonicalChars_eq] at h
    exact chars_inj hread ((hv.every_iff fun _ => Iff.rfl).mp hnull) h
  refine ⟨hsorted, hv.trans ?_⟩
  rw [hsorted]
  exact hw.symm

/-- Members that are in one order whichever way round they were set have separated keys. -/
theorem separated_of_reversed {v : Value ν} (hjson : v.IsJson)
    (h : guard.sorted v = guard.sorted (v.rebuild id reversed)) : guard.Separated v := by
  unfold sorted at h
  induction v using parts_induct with
  | hleaf v hv => exact (every_leaf _ _ hv).mpr trivial
  | harray items ih =>
    rw [IsJson, every_array] at hjson
    rw [rebuild_array, rebuild_array, rebuild_array, List.map_map, Value.array.injEq] at h
    rw [Separated, every_array]
    exact fun item hitem => ih item hitem (hjson item hitem) (List.map_inj_left.mp h item hitem)
  | hobject fields ih =>
    rw [IsJson, every_object] at hjson
    rw [rebuild_object, rebuild_object, rebuild_object, reversed_map, Value.object.injEq,
      sortByKey_map, sortByKey_map, sortByKey_map] at h
    have hkeys : (guard.sortByKey fields).map Prod.fst =
        (guard.sortByKey (reversed fields)).map Prod.fst := by
      have hfst := congrArg (List.map Prod.fst) h
      rw [map_keys_rebuild, map_keys_rebuild, map_keys_rebuild] at hfst
      exact hfst
    have hperm := guard.sortByKey_perm (reversed fields)
    have hnodup : ((guard.sortByKey fields).map Prod.fst).Nodup :=
      ((guard.sortByKey_perm fields).map Prod.fst).nodup_iff.mpr hjson.1.1
    rw [Separated, every_object]
    refine ⟨List.pairwise_map.mpr (List.pairwise_iff_forall_sublist.mpr ?_), ?_⟩
    · intro field next hpair hties hrank
      have hforth : [field, next].Sublist (guard.sortByKey fields) :=
        List.pair_sublist_insertionSort hties.1 hpair
      have hback : [next, field].Sublist (guard.sortByKey (reversed fields)) :=
        List.pair_sublist_insertionSort hties.2
          (pair_sublist_reversed hpair (rank_eq_iff.mp hrank))
      have hback' := hback.map Prod.fst
      rw [← hkeys] at hback'
      exact not_pair_sublist hnodup (hforth.map Prod.fst) hback'
    · intro field hfield
      have hmem : (field.1, rebuild id guard.sortByKey field.2) ∈
          (guard.sortByKey fields).map (Prod.map id (rebuild id guard.sortByKey)) :=
        List.mem_map.mpr ⟨field, (guard.sortByKey_perm fields).mem_iff.mpr hfield, rfl⟩
      rw [h, List.map_map] at hmem
      obtain ⟨other, hother, heq⟩ := List.mem_map.mp hmem
      have hother' := (reversed_perm fields).mem_iff.mp (hperm.mem_iff.mp hother)
      obtain ⟨hkey, hvalue⟩ := Prod.ext_iff.mp heq
      obtain rfl := List.inj_on_of_nodup_map hjson.1.1 hother' hfield hkey
      exact ih other hfield (hjson.2 other hfield) hvalue.symm

/-- A part that is written as `null`, taken for another. -/
def refill (other leaf : Value ν) : Value ν :=
  if leaf.chars guard.numbers = ['n', 'u', 'l', 'l'] then other else leaf

theorem refill_leaf {other : Value ν} (hother : other.IsLeaf)
    (hnull : other.chars guard.numbers = ['n', 'u', 'l', 'l']) (v : Value ν) (hv : v.IsLeaf) :
    (guard.refill other v).IsLeaf ∧
      (guard.refill other v).chars guard.numbers = v.chars guard.numbers := by
  unfold refill
  split
  · rename_i h
    exact ⟨hother, hnull.trans h.symm⟩
  · exact ⟨hv, rfl⟩

/-- A value is told apart from all that differ from it in more than the order of members, and
from no others. -/
def Identified (v : Value ν) : Prop :=
  ∀ w : Value ν, w.IsJson →
    (guard.canonicalChars v = guard.canonicalChars w ↔ SameMembers v w) ∧
      (Jwt.toCanonicalJson guard v = Jwt.toCanonicalJson guard w ↔ SameMembers v w)

/-- Where every part that is written as `null` can be taken for another, it is that other. -/
theorem Identified.every_eq {v : Value ν} (h : guard.Identified v) (hjson : v.IsJson)
    (other : Value ν) (hother : other.IsLeaf)
    (hnull : other.chars guard.numbers = ['n', 'u', 'l', 'l']) :
    Every (fun leaf => leaf.chars guard.numbers = ['n', 'u', 'l', 'l'] → leaf = other)
      (fun _ => True) v := by
  have hleaf := guard.refill_leaf hother hnull
  have hrefilled : (v.rebuild (guard.refill other) id).IsJson :=
    every_rebuild (fun _ h => h) (fun _ => .refl _) (fun v hv => ⟨(hleaf v hv).1, trivial⟩) hjson
  have hsame := (h _ hrefilled).1.mp (guard.canonicalChars_rebuild hleaf v).symm
  refine (hsame.every_iff fun _ => Iff.rfl).mpr ?_
  refine every_rebuild (fun _ h => h) (fun _ => .refl _) (fun v hv => ⟨(hleaf v hv).1, ?_⟩)
    (every_of_forall (fun _ => trivial) v)
  rw [(hleaf v hv).2]
  exact fun hchars => if_pos hchars

theorem Identified.hasNoNull {v : Value ν} (h : guard.Identified v) (hjson : v.IsJson)
    {n : ν} (hn : guard.numbers.write n = none) : v.HasNoNull guard.numbers := by
  have hnumber : (Value.number n).chars guard.numbers = ['n', 'u', 'l', 'l'] := by
    rw [Value.chars, hn]
    rfl
  refine (h.every_eq guard hjson .null trivial rfl).imp₂ ?_ (fun _ _ _ => trivial)
    (h.every_eq guard hjson (.number n) trivial hnumber)
  intro leaf hleft hright hchars
  have heq := (hleft hchars).symm.trans (hright hchars)
  cases heq

/-- The canonical text of a value tells it apart exactly where no keys of one object tie, array
indices aside, and no part is written as `null`: `null` and the numbers that are not finite are
written alike. -/
theorem canonical_identifies_iff
    (htotal : ∀ key key', guard.localeLe key key' = true ∨ guard.localeLe key' key = true)
    (htrans : ∀ key key' key'', guard.localeLe key key' = true →
      guard.localeLe key' key'' = true → guard.localeLe key key'' = true)
    (hread : ∀ n cs, guard.numbers.write n = some cs → guard.numbers.read cs = n)
    (hinfinite : ∃ n, guard.numbers.write n = none) {v : Value ν} (hjson : v.IsJson) :
    guard.Identified v ↔ guard.Separated v ∧ v.HasNoNull guard.numbers := by
  constructor
  · intro h
    obtain ⟨n, hn⟩ := hinfinite
    have hnull := h.hasNoNull guard hjson hn
    have hsame : SameMembers v (v.rebuild id reversed) := sameMembers_rebuild reversed_perm v
    have hreversed : (v.rebuild id reversed).IsJson :=
      every_rebuild (fun _ => listed_reversed) reversed_perm (fun _ hv => ⟨hv, trivial⟩) hjson
    have hsorted := sameMembers_of_canonical guard hread hnull ((h _ hreversed).1.mpr hsame)
    exact ⟨guard.separated_of_reversed hjson hsorted.1, hnull⟩
  · rintro ⟨hseparated, hnull⟩ w hw
    have hiff : guard.canonicalChars v = guard.canonicalChars w ↔ SameMembers v w := by
      refine ⟨fun h => (sameMembers_of_canonical guard hread hnull h).2, fun h => ?_⟩
      have hseparated' := (guard.separated_iff h).mp hseparated
      rw [canonicalChars_eq, canonicalChars_eq, sorted_eq_rebuild guard htotal htrans hjson hseparated,
        sorted_eq_rebuild guard htotal htrans hw hseparated',
        rebuild_congr guard htotal htrans h hseparated]
    exact ⟨hiff, hiff⟩

/-- A text with each `e` and acute accent taken for the one letter that they make. -/
def composed : Units → Units
  | [] => []
  | [u] => [u]
  | u :: accent :: key =>
    if u = 0x65 ∧ accent = 0x301 then 0xE9 :: composed key else u :: composed (accent :: key)

/-- A guard with one number, which is not finite, and keys in the order of their letters. -/
def lettered : AccessGuard Unit Unit where
  numbers := Numbers.unit
  localeLe key key' :=
    decide ((composed key).map UInt16.toNat ≤ (composed key').map UInt16.toNat)
  jwtVerify _ _ _ := none
  policyEnabled := true

/-- `{"a": "x", "b": [true, "y"]}` -/
def letteredValue : Value Unit :=
  .object [([0x61], .string [0x78]), ([0x62], .array [.bool true, .string [0x79]])]

theorem canonical_identifies_sample : lettered.Identified letteredValue := by
  have hle : ∀ key key', lettered.localeLe key key' = true ↔
      (composed key).map UInt16.toNat ≤ (composed key').map UInt16.toNat :=
    fun _ _ => decide_eq_true_iff
  refine (canonical_identifies_iff lettered ?_ ?_ ?_ ⟨(), rfl⟩ ?_).mpr ⟨?_, ?_⟩
  · intro key key'
    rw [hle, hle]
    exact le_total _ _
  · intro key key' key'' h h'
    rw [hle] at h h' ⊢
    exact h.trans h'
  · intro n cs h
    cases h
  · exact ⟨by decide, trivial, ⟨trivial, trivial, trivial⟩, trivial⟩
  · exact ⟨by decide, trivial, ⟨trivial, trivial, trivial⟩, trivial⟩
  · have htext : ∀ leaf : Value Unit, leaf.IsLeaf →
        leaf.chars Numbers.unit ≠ ['n', 'u', 'l', 'l'] → leaf.HasNoNull Numbers.unit :=
      fun leaf hleaf hchars => (every_leaf _ _ hleaf).mpr hchars
    exact ⟨trivial, htext _ trivial (by decide), ⟨htext _ trivial (by decide),
      htext _ trivial (by decide), trivial⟩, trivial⟩

/-- `{"é": "1", "é": "2"}`, where the letter is one unit of the first key and two of the second. -/
def accented : List (Units × Value Unit) :=
  [([0xE9], .string [0x31]), ([0x65, 0x301], .string [0x32])]

/-- An object with one member, of the key `a`. -/
def lone (value : Value Unit) : Value Unit := .object [([0x61], value)]

/-- Two orders of the members of one object have two canonical texts, and `{"a": null}` has that
of `{"a": 1e400}`. -/
theorem canonical_ambiguous :
    ((Value.object accented).IsJson ∧ (Value.object accented.reverse).IsJson ∧
      SameMembers (.object accented) (.object accented.reverse) ∧
      lettered.canonicalChars (.object accented) ≠
        lettered.canonicalChars (.object accented.reverse)) ∧
    (lone .null).IsJson ∧ (lone (.number ())).IsJson ∧
      ¬ SameMembers (lone .null) (lone (.number ())) ∧
      lettered.canonicalChars (lone .null) = lettered.canonicalChars (lone (.number ())) := by
  refine ⟨⟨?_, ?_, ?_, ?_⟩, ?_, ?_, ?_, ?_⟩
  · exact ⟨by decide, trivial, trivial, trivial⟩
  · exact ⟨by decide, trivial, trivial, trivial⟩
  · exact .reorder accented.reverse_perm.symm
  · decide
  · exact ⟨by decide, trivial, trivial⟩
  · exact ⟨by decide, trivial, trivial⟩
  · intro h
    have hnull : Every (· = .null) (fun _ => True) (lone (.number ())) :=
      (h.every_iff fun _ => Iff.rfl).mp ⟨trivial, rfl, trivial⟩
    cases hnull.2.1
  · rfl

end AccessGuard
end Outbound
