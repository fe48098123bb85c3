import Pivotal.Js.RoundTrip

/-! Values up to the order of the members of their objects, and texts that tell values apart. -/
namespace Js.Value

variable {ν : Type}

/-- Members may be put in another order, in any object of a value. -/
inductive SameMembers : Value ν → Value ν → Prop
  | refl (v : Value ν) : SameMembers v v
  | symm {v w : Value ν} : SameMembers v w → SameMembers w v
  | trans {u v w : Value ν} : SameMembers u v → SameMembers v w → SameMembers u w
  | reorder {fields fields' : List (Units × Value ν)} : fields.Perm fields' →
      SameMembers (.object fields) (.object fields')
  | item {v w : Value ν} (before after : List (Value ν)) : SameMembers v w →
      SameMembers (.array (before ++ v :: after)) (.array (before ++ w :: after))
  | member {v w : Value ν} (key : Units) (before after : List (Units × Value ν)) :
      SameMembers v w →
      SameMembers (.object (before ++ (key, v) :: after)) (.object (before ++ (key, w) :: after))

theorem SameMembers.array {items items' : List (Value ν)}
    (h : List.Forall₂ SameMembers items items') : SameMembers (.array items) (.array items') := by
  have hbefore : ∀ before : List (Value ν),
      SameMembers (.array (before ++ items)) (.array (before ++ items')) := by
    induction h with
    | nil => exact fun _ => .refl _
    | @cons v w items items' hvw _ ih =>
      intro before
      have hrest := ih (before ++ [w])
      rw [List.append_assoc, List.append_assoc] at hrest
      exact .trans (.item before items hvw) hrest
  exact hbefore []

theorem SameMembers.object {fields fields' : List (Units × Value ν)}
    (h : List.Forall₂ (fun f g => f.1 = g.1 ∧ SameMembers f.2 g.2) fields fields') :
    SameMembers (.object fields) (.object fields') := by
  have hbefore : ∀ before : List (Units × Value ν),
      SameMembers (.object (before ++ fields)) (.object (before ++ fields')) := by
    induction h with
    | nil => exact fun _ => .refl _
    | @cons f g fields fields' hfg _ ih =>
      intro before
      obtain ⟨key, v⟩ := f
      obtain ⟨key', w⟩ := g
      obtain ⟨rfl, hvw⟩ := hfg
      have hrest := ih (before ++ [(key, w)])
      rw [List.append_assoc, List.append_assoc] at hrest
      exact .trans (.member key before fields hvw) hrest
  exact hbefore []

mutual

/-- Induction over the parts of a value. -/
theorem parts_induct {P : Value ν → Prop} (hleaf : ∀ v : Value ν, v.IsLeaf → P v)
    (harray : ∀ items : List (Value ν), (∀ item ∈ items, P item) → P (.array items))
    (hobject : ∀ fields : List (Units × Value ν), (∀ field ∈ fields, P field.2) →
      P (.object fields)) (v : Value ν) : P v := by
  match v with
  | .null | .bool _ | .number _ | .string _ => exact hleaf _ trivial
  | .array items => exact harray items (parts_induct_items hleaf harray hobject items)
  | .object fields => exact hobject fields (parts_induct_fields hleaf harray hobject fields)

theorem parts_induct_items {P : Value ν → Prop} (hleaf : ∀ v : Value ν, v.IsLeaf → P v)
    (harray : ∀ items : List (Value ν), (∀ item ∈ items, P item) → P (.array items))
    (hobject : ∀ fields : List (Units × Value ν), (∀ field ∈ fields, P field.2) →
      P (.object fields)) (items : List (Value ν)) : ∀ item ∈ items, P item := by
  match items with
  | [] => simp
  | item :: items =>
    exact List.forall_mem_cons.mpr
      ⟨parts_induct hleaf harray hobject item, parts_induct_items hleaf harray hobject items⟩

theorem parts_induct_fields {P : Value ν → Prop} (hleaf : ∀ v : Value ν, v.IsLeaf → P v)
    (harray : ∀ items : List (Value ν), (∀ item ∈ items, P item) → P (.array items))
    (hobject : ∀ fields : List (Units × Value ν), (∀ field ∈ fields, P field.2) →
      P (.object fields)) (fields : List (Units × Value ν)) : ∀ field ∈ fields, P field.2 := by
  match fields with
  | [] => simp
  | (key, value) :: fields =>
    exact List.forall_mem_cons.mpr
      ⟨parts_induct hleaf harray hobject value, parts_induct_fields hleaf harray hobject fields⟩

end

section Every

variable (leaf : Value ν → Prop) (keys : List Units → Prop)

mutual

/-- Every part that is no array and no object satisfies `leaf`, and the keys of every object
satisfy `keys`. -/
def Every : Value ν → Prop
  | .null => leaf .null
  | .bool b => leaf (.bool b)
  | .number n => leaf (.number n)
  | .string s => leaf (.string s)
  | .array items => EveryItem items
  | .object fields => keys (fields.map Prod.fst) ∧ EveryField fields

def EveryItem : List (Value ν) → Prop
  | [] => True
  | item :: items => Every item ∧ EveryItem items

def EveryField : List (Units × Value ν) → Prop
  | [] => True
  | (_, value) :: fields => Every value ∧ EveryField fields

end

theorem everyItem_iff (items : List (Value ν)) :
    EveryItem leaf keys items ↔ ∀ item ∈ items, Every leaf keys item := by
  induction items with
  | nil => simp [EveryItem]
  | cons item items ih => simp [EveryItem, ih]

theorem everyField_iff (fields : List (Units × Value ν)) :
    EveryField leaf keys fields ↔ ∀ field ∈ fields, Every leaf keys field.2 := by
  induction fields with
  | nil => simp [EveryField]
  | cons field fields ih => simp [EveryField, ih]

theorem every_array (items : List (Value ν)) :
    Every leaf keys (.array items) ↔ ∀ item ∈ items, Every leaf keys item := by
  rw [Every, everyItem_iff]

theorem every_object (fields : List (Units × Value ν)) :
    Every leaf keys (.object fields) ↔
      keys (fields.map Prod.fst) ∧ ∀ field ∈ fields, Every leaf keys field.2 := by
  rw [Every, everyField_iff]

theorem every_leaf {v : Value ν} (hv : v.IsLeaf) : Every leaf keys v ↔ leaf v := by
  cases v with
  | null | bool b | number n | string s => rfl
  | array items | object fields => exact hv.elim

/-- What follows of leaves and of keys each. -/
theorem Every.imp₂ {leaf leaf' leaf'' : Value ν → Prop} {keys keys' keys'' : List Units → Prop}
    (hleaf : ∀ v, leaf v → leaf' v → leaf'' v) (hkeys : ∀ l, keys l → keys' l → keys'' l)
    {v : Value ν} (h : Every leaf keys v) (h' : Every leaf' keys' v) : Every leaf'' keys'' v := by
  induction v using parts_induct with
  | hleaf v hv =>
    rw [every_leaf _ _ hv] at h h' ⊢
    exact hleaf v h h'
  | harray items ih =>
    rw [every_array] at h h' ⊢
    exact fun item hitem => ih item hitem (h item hitem) (h' item hitem)
  | hobject fields ih =>
    rw [every_object] at h h' ⊢
    exact ⟨hkeys _ h.1 h'.1, fun field hfield => ih field hfield (h.2 field hfield)
      (h'.2 field hfield)⟩

theorem every_of_forall {leaf : Value ν → Prop} (hleaf : ∀ v, leaf v) (v : Value ν) :
    Every leaf (fun _ => True) v := by
  induction v using parts_induct with
  | hleaf v hv => exact (every_leaf _ _ hv).mpr (hleaf v)
  | harray items ih => exact (every_array _ _ _).mpr ih
  | hobject fields ih => exact (every_object _ _ _).mpr ⟨trivial, ih⟩

/-- What does not look at the order of the keys does not change with it. -/
theorem SameMembers.every_iff {leaf : Value ν → Prop} {keys : List Units → Prop}
    (hkeys : ∀ {l l' : List Units}, l.Perm l' → (keys l ↔ keys l')) {v w : Value ν}
    (h : SameMembers v w) : Every leaf keys v ↔ Every leaf keys w := by
  induction h with
  | refl v => rfl
  | symm _ ih => exact ih.symm
  | trans _ _ ih ih' => exact ih.trans ih'
  | reorder hperm =>
    simp only [Every, everyField_iff, hkeys (hperm.map Prod.fst), hperm.mem_iff]
  | item before after _ ih => simp only [Every, everyItem_iff, List.forall_mem_append,
      List.forall_mem_cons, ih]
  | member key before after _ ih =>
    simp only [Every, everyField_iff, List.forall_mem_append, List.forall_mem_cons, ih,
      List.map_append, List.map_cons]

end Every

section Rebuild

variable (leaf : Value ν → Value ν) (order : List (Units × Value ν) → List (Units × Value ν))

mutual

/-- A value with its leaves replaced and the members of its objects put in order, from the inside
out. -/
def rebuild : Value ν → Value ν
  | .null => leaf .null
  | .bool b => leaf (.bool b)
  | .number n => leaf (.number n)
  | .string s => leaf (.string s)
  | .array items => .array (rebuildItems items)
  | .object fields => .object (order (rebuildFields fields))

def rebuildItems : List (Value ν) → List (Value ν)
  | [] => []
  | item :: items => rebuild item :: rebuildItems items

def rebuildFields : List (Units × Value ν) → List (Units × Value ν)
  | [] => []
  | (key, value) :: fields => (key, rebuild value) :: rebuildFields fields

end

theorem rebuildItems_eq (items : List (Value ν)) :
    rebuildItems leaf order items = items.map (rebuild leaf order) := by
  induction items with
  | nil => rfl
  | cons item items ih => exact congrArg _ ih

theorem rebuildFields_eq (fields : List (Units × Value ν)) :
    rebuildFields leaf order fields = fields.map (Prod.map id (rebuild leaf order)) := by
  induction fields with
  | nil => rfl
  | cons field fields ih => exact congrArg _ ih

theorem rebuild_array (items : List (Value ν)) :
    rebuild leaf order (.array items) = .array (items.map (rebuild leaf order)) := by
  rw [rebuild, rebuildItems_eq]

theorem rebuild_object (fields : List (Units × Value ν)) :
    rebuild leaf order (.object fields) =
      .object (order (fields.map (Prod.map id (rebuild leaf order)))) := by
  rw [rebuild, rebuildFields_eq]

theorem rebuild_leaf {v : Value ν} (hv : v.IsLeaf) : v.rebuild leaf order = leaf v := by
  cases v with
  | null | bool b | number n | string s => rfl
  | array items | object fields => exact hv.elim

variable {leaf order}

/-- Keys that are put in another order, and leaves that are what they have to be. -/
theorem every_rebuild {p : Value ν → Prop} {keys : List Units → Prop}
    (hkeys : ∀ fields, keys (fields.map Prod.fst) → keys ((order fields).map Prod.fst))
    (horder : ∀ fields, (order fields).Perm fields)
    (hleaf : ∀ v : Value ν, v.IsLeaf → (leaf v).IsLeaf ∧ p (leaf v)) {v : Value ν}
    (h : Every (fun _ => True) keys v) : Every p keys (v.rebuild leaf order) := by
  induction v using parts_induct with
  | hleaf v hv =>
    rw [rebuild_leaf _ _ hv, every_leaf _ _ (hleaf v hv).1]
    exact (hleaf v hv).2
  | harray items ih =>
    rw [every_array] at h
    rw [rebuild_array, every_array]
    intro item hitem
    obtain ⟨part, hpart, rfl⟩ := List.mem_map.mp hitem
    exact ih part hpart (h part hpart)
  | hobject fields ih =>
    rw [every_object] at h
    rw [rebuild_object, every_object]
    have hperm := horder (fields.map (Prod.map id (rebuild leaf order)))
    refine ⟨?_, ?_⟩
    · apply hkeys
      rw [List.map_map]
      exact h.1
    · intro field hfield
      obtain ⟨part, hpart, rfl⟩ := List.mem_map.mp (hperm.mem_iff.mp hfield)
      exact ih part hpart (h.2 part hpart)

mutual

/-- Members that are only put in another order. -/
theorem sameMembers_rebuild (horder : ∀ fields, (order fields).Perm fields) (v : Value ν) :
    SameMembers v (v.rebuild id order) := by
  match v with
  | .null => exact .refl _
  | .bool b => exact .refl _
  | .number n => exact .refl _
  | .string s => exact .refl _
  | .array items => exact .array (sameItems_rebuild horder items)
  | .object fields =>
    exact .trans (.object (sameFields_rebuild horder fields)) (.reorder (horder _).symm)

theorem sameItems_rebuild (horder : ∀ fields, (order fields).Perm fields) (items : List (Value ν)) :
    List.Forall₂ SameMembers items (rebuildItems id order items) := by
  match items with
  | [] => exact .nil
  | item :: items => exact .cons (sameMembers_rebuild horder item) (sameItems_rebuild horder items)

theorem sameFields_rebuild (horder : ∀ fields, (order fields).Perm fields)
    (fields : List (Units × Value ν)) :
    List.Forall₂ (fun f g => f.1 = g.1 ∧ SameMembers f.2 g.2) fields
      (rebuildFields id order fields) := by
  match fields with
  | [] => exact .nil
  | (key, value) :: fields =>
    exact .cons ⟨rfl, sameMembers_rebuild horder value⟩ (sameFields_rebuild horder fields)

end

end Rebuild

section Listed

/-- The place of a key among the keys of an object: array indices stand by value, and before the
others. -/
def rank (key : Units) : WithTop ℕ :=
  match indexValue key with
  | some index => (index : WithTop ℕ)
  | none => ⊤

/-- Keys as an object lists them. -/
def Listed (keys : List Units) : Prop :=
  keys.Nodup ∧ keys.Pairwise fun key key' => rank key ≤ rank key'

instance (keys : List Units) : Decidable (Listed keys) := inferInstanceAs (Decidable (_ ∧ _))

/-- The values that texts are read as. -/
def IsJson : Value ν → Prop := Every (fun _ => True) Listed

theorem rank_of_some {key : Units} {index : ℕ} (h : indexValue key = some index) :
    rank key = index := by
  rw [rank, h]

theorem rank_of_none {key : Units} (h : indexValue key = none) : rank key = ⊤ := by
  rw [rank, h]

theorem rank_eq_iff {key key' : Units} :
    rank key = rank key' ↔ indexValue key = indexValue key' := by
  cases hkey : indexValue key with
  | none =>
    cases hkey' : indexValue key' with
    | none => simp [rank_of_none hkey, rank_of_none hkey']
    | some index => simp [rank_of_none hkey, rank_of_some hkey']
  | some index =>
    cases hkey' : indexValue key' with
    | none => simp [rank_of_some hkey, rank_of_none hkey']
    | some index' => simp [rank_of_some hkey, rank_of_some hkey']

variable {α : Type}

theorem rank_le_of_isSome {field next : Units × α} (hfield : (indexValue field.1).isSome = true)
    (hnext : (indexValue next.1).isSome = true) :
    rank field.1 ≤ rank next.1 ↔ IndexLe field next := by
  obtain ⟨index, hindex⟩ := Option.isSome_iff_exists.mp hfield
  obtain ⟨index', hindex'⟩ := Option.isSome_iff_exists.mp hnext
  rw [rank_of_some hindex, rank_of_some hindex', IndexLe, hindex, hindex']
  exact WithTop.coe_le_coe

theorem listed_orderFields {fields : List (Units × α)} (h : (fields.map Prod.fst).Nodup) :
    Listed ((orderFields fields).map Prod.fst) := by
  refine ⟨((orderFields_perm fields).map Prod.fst).nodup_iff.mpr h, ?_⟩
  rw [List.pairwise_map, orderFields, List.pairwise_append]
  refine ⟨?_, ?_, ?_⟩
  · refine (List.pairwise_insertionSort IndexLe _).imp_of_mem ?_
    intro field next hfield hnext hle
    rw [List.mem_insertionSort, List.mem_filter] at hfield hnext
    exact (rank_le_of_isSome hfield.2 hnext.2).mpr hle
  · refine List.pairwise_of_forall_mem_list ?_
    intro field hfield next hnext
    rw [List.mem_filter, Option.isNone_iff_eq_none] at hnext
    rw [rank_of_none hnext.2]
    exact le_top
  · intro field hfield next hnext
    rw [List.mem_filter, Option.isNone_iff_eq_none] at hnext
    rw [rank_of_none hnext.2]
    exact le_top

theorem mem_of_mem_setField {fields : List (Units × α)} {member field : Units × α}
    (h : field ∈ setField fields member.1 member.2) : field = member ∨ field ∈ fields := by
  unfold setField at h
  split at h
  · obtain ⟨old, hold, rfl⟩ := List.mem_map.mp h
    by_cases hkey : old.1 = member.1
    · exact .inl (if_pos hkey)
    · rw [if_neg hkey]
      exact .inr hold
  · rw [List.mem_append, List.mem_singleton] at h
    exact h.symm

/-- An object has no members but those that were set. -/
theorem mem_of_mem_ofMembers {members : List (Units × α)} {field : Units × α}
    (h : field ∈ ofMembers members) : field ∈ members := by
  have hfold : ∀ fields : List (Units × α),
      field ∈ members.foldl (fun fields member => setField fields member.1 member.2) fields →
        field ∈ members ∨ field ∈ fields := by
    clear h
    induction members with
    | nil => exact fun fields h => .inr h
    | cons member members ih =>
      intro fields h
      obtain hrest | hset := ih _ h
      · exact .inl (List.mem_cons_of_mem _ hrest)
      · obtain rfl | hfields := mem_of_mem_setField hset
        · exact .inl List.mem_cons_self
        · exact .inr hfields
  exact (hfold [] ((orderFields_perm _).mem_iff.mp h)).resolve_right List.not_mem_nil

theorem listed_ofMembers (members : List (Units × α)) :
    Listed ((ofMembers members).map Prod.fst) := by
  have hkeys := ofMembers_keys members
  rw [ofMembers] at hkeys ⊢
  exact listed_orderFields (((orderFields_perm _).map Prod.fst).nodup_iff.mp hkeys)

theorem isJson_of_parse {numbers : Numbers ν} {text : String} {v : Value ν}
    (h : parse numbers text = some v) : v.IsJson := by
  refine of_parse numbers (fun v hv => ?_) (fun items ih => ?_) (fun members ih => ?_) h
  · exact (every_leaf _ _ hv).mpr trivial
  · exact (every_array _ _ _).mpr ih
  · exact (every_object _ _ _).mpr ⟨listed_ofMembers members,
      fun field hfield => ih field (mem_of_mem_ofMembers hfield)⟩

/-- The members of an object set in the opposite order. -/
def reversed (fields : List (Units × α)) : List (Units × α) := orderFields fields.reverse

theorem reversed_perm (fields : List (Units × α)) : (reversed fields).Perm fields :=
  (orderFields_perm _).trans fields.reverse_perm

theorem reversed_map {β : Type} (f : α → β) (fields : List (Units × α)) :
    reversed (fields.map (Prod.map id f)) = (reversed fields).map (Prod.map id f) := by
  rw [reversed, ← List.map_reverse, orderFields_map]
  rfl

theorem listed_reversed {fields : List (Units × α)} (h : Listed (fields.map Prod.fst)) :
    Listed ((reversed fields).map Prod.fst) := by
  apply listed_orderFields
  rw [List.map_reverse, List.nodup_reverse]
  exact h.1

/-- Of two elements one stands before the other. -/
theorem pair_sublist_or {a b : α} {l : List α} (ha : a ∈ l) (hb : b ∈ l) (hne : a ≠ b) :
    [a, b].Sublist l ∨ [b, a].Sublist l := by
  obtain ⟨before, after, rfl⟩ := List.append_of_mem ha
  obtain hbefore | hb := List.mem_append.mp hb
  · exact .inr ((List.singleton_sublist.mpr hbefore).append
      (List.singleton_sublist.mpr List.mem_cons_self))
  · have hafter := (List.mem_cons.mp hb).resolve_left hne.symm
    exact .inl (((List.singleton_sublist.mpr hafter).cons_cons a).trans
      (List.sublist_append_right before _))

theorem not_pair_sublist {a b : α} {l : List α} (hl : l.Nodup) (h : [a, b].Sublist l) :
    ¬ [b, a].Sublist l := by
  induction l with
  | nil => cases h
  | cons c l ih =>
    obtain ⟨hc, hl⟩ := List.nodup_cons.mp hl
    intro hback
    cases h with
    | cons _ h =>
      cases hback with
      | cons _ hback => exact ih hl h hback
      | cons_cons _ hback => exact hc (h.subset (List.mem_cons_of_mem _ List.mem_cons_self))
    | cons_cons _ h =>
      cases hback with
      | cons _ hback => exact hc (hback.subset (List.mem_cons_of_mem _ List.mem_cons_self))
      | cons_cons _ hback => exact hc (h.subset List.mem_cons_self)

/-- Two members are the other way round unless an array index is among their keys. -/
theorem pair_sublist_reversed {field next : Units × α} {fields : List (Units × α)}
    (h : [field, next].Sublist fields) (hindex : indexValue field.1 = indexValue next.1) :
    [next, field].Sublist (reversed fields) := by
  have hreverse : [next, field].Sublist fields.reverse := h.reverse
  rw [reversed, orderFields]
  cases hnext : indexValue next.1 with
  | none =>
    have hfilter := hreverse.filter fun field => (indexValue field.1).isNone
    simp only [List.filter_cons, hindex, hnext, Option.isNone_none, if_true,
      List.filter_nil] at hfilter
    exact hfilter.trans (List.sublist_append_right _ _)
  | some index =>
    have hfilter := hreverse.filter fun field => (indexValue field.1).isSome
    simp only [List.filter_cons, hindex, hnext, Option.isSome_some, if_true,
      List.filter_nil] at hfilter
    have hle : IndexLe next field := by
      rw [IndexLe, hindex]
    exact (List.pair_sublist_insertionSort hle hfilter).trans (List.sublist_append_left _ _)

end Listed

section Injective

variable (numbers : Numbers ν)

/-- No part of a value is written as `null`. -/
def HasNoNull : Value ν → Prop :=
  Every (fun leaf => leaf.chars numbers ≠ ['n', 'u', 'l', 'l']) fun _ => True

theorem reread_number_eq (n : ν) : (Value.number n).reread numbers = .null ∨
    ∃ m, (Value.number n).reread numbers = .number m := by
  cases hn : numbers.write n with
  | none => exact .inl (by simp only [reread, hn])
  | some cs => exact .inr ⟨numbers.read cs, by simp only [reread, hn]⟩

/-- What is read again is an array of an array alone, and an object of an object. -/
theorem eq_array_of_reread {v : Value ν} {items : List (Value ν)}
    (h : v.reread numbers = .array items) :
    ∃ items', v = .array items' ∧ rereadItems numbers items' = items := by
  cases v with
  | array items' => exact ⟨items', rfl, by simpa [reread] using h⟩
  | number n =>
    obtain hnull | ⟨m, hm⟩ := reread_number_eq numbers n
    · rw [hnull] at h
      cases h
    · rw [hm] at h
      cases h
  | null | bool b | string s | object fields => cases h

theorem eq_object_of_reread {v : Value ν} {fields : List (Units × Value ν)}
    (h : v.reread numbers = .object fields) :
    ∃ fields', v = .object fields' ∧ ofMembers (rereadFields numbers fields') = fields := by
  cases v with
  | object fields' => exact ⟨fields', rfl, by simpa [reread] using h⟩
  | number n =>
    obtain hnull | ⟨m, hm⟩ := reread_number_eq numbers n
    · rw [hnull] at h
      cases h
    · rw [hm] at h
      cases h
  | null | bool b | string s | array items => cases h

variable {numbers} (hread : ∀ n cs, numbers.write n = some cs → numbers.read cs = n)

include hread in
/-- Parts with no parts of their own are told apart by what is read again. -/
theorem leaf_eq_of_reread {v w : Value ν} (hv : v.reread numbers = v)
    (hleaf : v.chars numbers ≠ ['n', 'u', 'l', 'l']) (harray : ∀ items, v ≠ .array items)
    (hobject : ∀ fields, v ≠ .object fields) (h : v.reread numbers = w.reread numbers) : v = w := by
  rw [hv] at h
  cases w with
  | number m =>
    cases hm : numbers.write m with
    | none =>
      simp only [reread, hm] at h
      rw [h] at hleaf
      exact absurd rfl hleaf
    | some cs =>
      simp only [reread, hm, hread m cs hm] at h
      exact h
  | array items => exact absurd h (harray _)
  | object fields => exact absurd h (hobject _)
  | null | bool b | string s => exact h

/-- Two texts that begin with a value each are read alike and go on alike. -/
theorem reread_of_append (v w : Value ν) {rest rest' : List Char} (hrest : Ends rest)
    (hrest' : Ends rest') (h : v.chars numbers ++ rest = w.chars numbers ++ rest') :
    v.reread numbers = w.reread numbers ∧ rest = rest' := by
  have hv := parseValue_chars numbers v
    (2 * (v.chars numbers).length + 2 * (w.chars numbers).length) rest (by omega) hrest
  have hw := parseValue_chars numbers w
    (2 * (v.chars numbers).length + 2 * (w.chars numbers).length) rest' (by omega) hrest'
  rw [h, hw] at hv
  simpa [eq_comm] using hv

theorem quote_append_inj {s t : Units} {rest rest' : List Char}
    (h : quote s ++ rest = quote t ++ rest') : s = t ∧ rest = rest' := by
  simp only [quote, List.cons_append, List.append_assoc, List.cons.injEq, true_and,
    List.nil_append] at h
  have hs := parseString_stringChars s rest
  rw [h, parseString_stringChars] at hs
  simpa [eq_comm] using hs

mutual

/-- The texts of values without `null` tell them apart, the order of members included. -/
theorem chars_append_inj (hread : ∀ n cs, numbers.write n = some cs → numbers.read cs = n)
    (v w : Value ν) {rest rest' : List Char} (hv : v.HasNoNull numbers) (hrest : Ends rest)
    (hrest' : Ends rest') (h : v.chars numbers ++ rest = w.chars numbers ++ rest') :
    v = w ∧ rest = rest' := by
  obtain ⟨hreread, hends⟩ := reread_of_append v w hrest hrest' h
  refine ⟨?_, hends⟩
  match v with
  | .null => exact absurd rfl hv
  | .bool b => exact leaf_eq_of_reread hread rfl hv (by simp) (by simp) hreread
  | .string s => exact leaf_eq_of_reread hread rfl hv (by simp) (by simp) hreread
  | .number n =>
    cases hn : numbers.write n with
    | none => exact absurd (by simp only [chars, hn]; rfl) hv
    | some cs =>
      have hsame : (Value.number n).reread numbers = .number n := by
        simp only [reread, hn, hread n cs hn]
      exact leaf_eq_of_reread hread hsame hv (by simp) (by simp) hreread
  | .array [] =>
    obtain ⟨items, rfl, hitems⟩ := eq_array_of_reread numbers hreread.symm
    cases items with
    | nil => rfl
    | cons item items => cases hitems
  | .array (item :: items) =>
    obtain ⟨items', rfl, hread'⟩ := eq_array_of_reread numbers hreread.symm
    cases items' with
    | nil => cases hread'
    | cons item' items' =>
      obtain ⟨hitem, hitems⟩ := hv
      simp only [chars, List.cons_append, List.append_assoc, List.cons.injEq, true_and] at h
      obtain ⟨rfl, htail⟩ := chars_append_inj hread item item' hitem (itemsChars_ends numbers _ _)
        (itemsChars_ends numbers _ _) h
      rw [itemsChars_append_inj hread items items' hitems hrest hrest' htail]
  | .object [] =>
    obtain ⟨fields, rfl, hfields⟩ := eq_object_of_reread numbers hreread.symm
    cases fields with
    | nil => rfl
    | cons field fields =>
      obtain ⟨key, value⟩ := field
      exact absurd hfields (ofMembers_ne_nil (by simp [rereadFields]))
  | .object ((key, value) :: fields) =>
    obtain ⟨fields', rfl, hmembers⟩ := eq_object_of_reread numbers hreread.symm
    cases fields' with
    | nil => exact absurd hmembers.symm (ofMembers_ne_nil (by simp [rereadFields]))
    | cons field' fields' =>
      obtain ⟨key', value'⟩ := field'
      obtain ⟨-, hvalue, hfields⟩ := hv
      simp only [chars, List.cons_append, List.append_assoc, List.cons.injEq, true_and] at h
      obtain ⟨rfl, htext⟩ := quote_append_inj h
      obtain ⟨rfl, htail⟩ := chars_append_inj hread value value' hvalue
        (fieldsChars_ends numbers _ _) (fieldsChars_ends numbers _ _) (List.cons.inj htext).2
      rw [fieldsChars_append_inj hread fields fields' hfields hrest hrest' htail]

theorem itemsChars_append_inj (hread : ∀ n cs, numbers.write n = some cs → numbers.read cs = n)
    (items items' : List (Value ν)) {rest rest' : List Char}
    (hitems : EveryItem (fun leaf => leaf.chars numbers ≠ ['n', 'u', 'l', 'l']) (fun _ => True) items)
    (hrest : Ends rest) (hrest' : Ends rest')
    (h : itemsChars numbers items ++ rest = itemsChars numbers items' ++ rest') :
    items = items' := by
  match items, items' with
  | [], [] => rfl
  | [], _ :: _ | _ :: _, [] => simp [itemsChars] at h
  | item :: items, item' :: items' =>
    obtain ⟨hitem, hitems⟩ := hitems
    simp only [itemsChars, List.cons_append, List.append_assoc, List.cons.injEq, true_and] at h
    obtain ⟨rfl, htail⟩ := chars_append_inj hread item item' hitem (itemsChars_ends numbers _ _)
      (itemsChars_ends numbers _ _) h
    rw [itemsChars_append_inj hread items items' hitems hrest hrest' htail]

theorem fieldsChars_append_inj (hread : ∀ n cs, numbers.write n = some cs → numbers.read cs = n)
    (fields fields' : List (Units × Value ν)) {rest rest' : List Char}
    (hfields : EveryField (fun leaf => leaf.chars numbers ≠ ['n', 'u', 'l', 'l']) (fun _ => True)
      fields) (hrest : Ends rest) (hrest' : Ends rest')
    (h : fieldsChars numbers fields ++ rest = fieldsChars numbers fields' ++ rest') :
    fields = fields' := by
  match fields, fields' with
  | [], [] => rfl
  | [], (_, _) :: _ | (_, _) :: _, [] => simp [fieldsChars] at h
  | (key, value) :: fields, (key', value') :: fields' =>
    obtain ⟨hvalue, hfields⟩ := hfields
    simp only [fieldsChars, List.cons_append, List.append_assoc, List.cons.injEq, true_and] at h
    obtain ⟨rfl, htext⟩ := quote_append_inj h
    obtain ⟨rfl, htail⟩ := chars_append_inj hread value value' hvalue
      (fieldsChars_ends numbers _ _) (fieldsChars_ends numbers _ _) (List.cons.inj htext).2
    rw [fieldsChars_append_inj hread fields fields' hfields hrest hrest' htail]

end

theorem chars_inj (hread : ∀ n cs, numbers.write n = some cs → numbers.read cs = n)
    {v w : Value ν} (hv : v.HasNoNull numbers) (h : v.chars numbers = w.chars numbers) : v = w := by
  have hends : Ends [] := by simp [Ends]
  refine (chars_append_inj hread v w hv hends hends ?_).1
  rw [List.append_nil, List.append_nil, h]

end Injective

end Js.Value
