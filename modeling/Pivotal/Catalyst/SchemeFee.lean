import Pivotal.Catalyst.Fees
import Pivotal.Fspiop.Conversions
import Pivotal.Store.Choice

/-! The scheme fee that the engine exports, against the sum of one fee a role. -/
namespace Fspiop.FspiopMoney
open Js

/-- What the text of an amount denotes, if it denotes something. -/
def decimal (amount : String) : ℚ := (rational amount.toList).getD 0

/-- The amount is a whole number of minor units. -/
def ExactIn (scale : ℕ) (amount : String) : Prop :=
  ∃ n : ℕ, rational amount.toList = some ((n : ℚ) / 10 ^ scale)

/-- The minor units of an amount. -/
def minorUnits (scale : ℕ) (amount : String) : ℤ := ⌊decimal amount * 10 ^ scale⌋

/-- 64 bits hold the minor units of the amount. -/
def Fits (scale : ℕ) (amount : String) : Prop := minorUnits scale amount ≤ uint64Max

instance (scale : ℕ) (amount : String) : Decidable (Fits scale amount) :=
  inferInstanceAs (Decidable (_ ≤ _))

section Exact

variable {scale : ℕ} {amount : String}

theorem ExactIn.decimal_eq (h : ExactIn scale amount) :
    decimal amount = minorUnits scale amount / 10 ^ scale := by
  obtain ⟨n, hn⟩ := h
  have hpos : (10 : ℚ) ^ scale ≠ 0 := by positivity
  have hvalue : decimal amount = (n : ℚ) / 10 ^ scale := by rw [decimal, hn, Option.getD_some]
  rw [minorUnits, hvalue, div_mul_cancel₀ _ hpos, Int.floor_natCast, Int.cast_natCast]

theorem ExactIn.decimal_nonneg (h : ExactIn scale amount) : 0 ≤ decimal amount := by
  obtain ⟨n, hn⟩ := h
  rw [decimal, hn, Option.getD_some]
  positivity

theorem ExactIn.minorUnits_nonneg (h : ExactIn scale amount) : 0 ≤ minorUnits scale amount := by
  have hnonneg := h.decimal_nonneg
  exact Int.floor_nonneg.mpr (by positivity)

theorem ExactIn.serialize (h : ExactIn scale amount) (mode : FspiopRoundingMode) :
    serialize amount scale mode = if Fits scale amount then .ok (minorUnits scale amount)
      else .error (.ofMessage "Amount is greater than uint64 max.") := by
  have hvalue := h.decimal_eq
  have hnonneg := h.minorUnits_nonneg
  obtain ⟨n, hn⟩ := h
  have hpos : (10 : ℚ) ^ scale ≠ 0 := by positivity
  have hwhole : (n : ℚ) / 10 ^ scale * 10 ^ scale = minorUnits scale amount := by
    rw [decimal, hn, Option.getD_some] at hvalue
    rw [hvalue, div_mul_cancel₀ _ hpos]
  rw [serialize_of_whole hn hwhole hnonneg mode, checkUint64, if_neg (not_lt.mpr hnonneg)]
  by_cases hfits : minorUnits scale amount ≤ uint64Max
  · rw [if_neg (not_lt.mpr hfits)]
    exact (if_pos hfits).symm
  · rw [if_pos (not_le.mp hfits)]
    exact (if_neg hfits).symm

end Exact

end Fspiop.FspiopMoney

namespace Catalyst
open Fspiop FspiopMoney CatalystFeeEngine

/-- The sum of amounts that are serialised one after another. -/
def serializeAll (scale : ℕ) : ℤ → List String → Except JsError ℤ
  | total, [] => .ok total
  | total, amount :: rest => do
    let serialized ← serialize amount scale
    serializeAll scale (total + serialized) rest

theorem serializeAll_exact {scale : ℕ} {amounts : List String}
    (h : ∀ amount ∈ amounts, ExactIn scale amount) (total : ℤ) :
    serializeAll scale total amounts =
      if ∀ amount ∈ amounts, Fits scale amount then .ok (total + (amounts.map (minorUnits scale)).sum)
      else .error (.ofMessage "Amount is greater than uint64 max.") := by
  induction amounts generalizing total with
  | nil => simp [serializeAll]
  | cons amount rest ih =>
    obtain ⟨hfirst, hrest⟩ := List.forall_mem_cons.mp h
    rw [serializeAll, hfirst.serialize]
    by_cases hfits : Fits scale amount
    · have hall : (∀ a ∈ amount :: rest, Fits scale a) ↔ ∀ a ∈ rest, Fits scale a := by
        simp [hfits]
      rw [if_pos hfits, List.map_cons, List.sum_cons, ← add_assoc]
      simp only [hall]
      exact ih hrest _
    · have hnot : ¬ ∀ a ∈ amount :: rest, Fits scale a := fun hall =>
        hfits (hall amount List.mem_cons_self)
      rw [if_neg hfits, if_neg hnot]
      rfl

theorem serializeAll_append (scale : ℕ) (total : ℤ) (amounts amounts' : List String) :
    serializeAll scale total (amounts ++ amounts') =
      serializeAll scale total amounts >>= fun total' => serializeAll scale total' amounts' := by
  induction amounts generalizing total with
  | nil => rfl
  | cons amount rest ih =>
    rw [List.cons_append, serializeAll, serializeAll]
    cases serialize amount scale with
    | error e => rfl
    | ok serialized => exact ih _

theorem addFees_eq (scale : ℕ) (total : ℤ) (fees : List (FeeSplitRole × Money)) :
    addFees scale total fees = serializeAll scale total (fees.map fun e => e.2.amount) := by
  induction fees generalizing total with
  | nil => rfl
  | cons fee rest ih =>
    rw [List.map_cons, addFees, serializeAll]
    cases serialize fee.2.amount scale with
    | error e => rfl
    | ok serialized => exact ih _

/-- The role and the amount of a split that is charged beside the fees. -/
def chargedSplit (preCalculatedFeeKeys : List String) (e : String × FeeSplit) :
    Option (String × String) :=
  e.2.amount.bind fun amount =>
    if toExtensionKey e.1 ∈ preCalculatedFeeKeys then none else some (toExtensionKey e.1, amount)

theorem chargedSplit_eq_some_iff {keys : List String} {e : String × FeeSplit}
    {role amount : String} : chargedSplit keys e = some (role, amount) ↔
      role ∉ keys ∧ toExtensionKey e.1 = role ∧ e.2.amount = some amount := by
  unfold chargedSplit
  rw [Option.bind_eq_some_iff]
  constructor
  · rintro ⟨amount', hamount, hcharged⟩
    split_ifs at hcharged with hkey
    obtain ⟨rfl, rfl⟩ := Prod.mk.inj (Option.some.inj hcharged)
    exact ⟨hkey, rfl, hamount⟩
  · rintro ⟨hkey, rfl, hamount⟩
    exact ⟨amount, hamount, if_neg hkey⟩

def chargedSplits (preCalculatedFeeKeys : List String) (splits : List (String × FeeSplit)) :
    List (String × String) :=
  splits.filterMap (chargedSplit preCalculatedFeeKeys)

theorem addSplits_eq (keys : List String) (scale : ℕ) (total : ℤ)
    (splits : List (String × FeeSplit)) :
    addSplits keys scale total splits =
      serializeAll scale total ((chargedSplits keys splits).map Prod.snd) := by
  induction splits generalizing total with
  | nil => rfl
  | cons e rest ih =>
    obtain ⟨key, split⟩ := e
    unfold addSplits
    rw [chargedSplits, List.filterMap_cons]
    cases hamount : split.amount with
    | none =>
      simp only [chargedSplit, hamount, Option.bind_none]
      exact ih total
    | some amount =>
      by_cases hkey : toExtensionKey key ∈ keys
      · simp only [chargedSplit, hamount, Option.bind_some, hkey, if_true]
        exact ih total
      · simp only [chargedSplit, hamount, Option.bind_some, hkey, if_false, List.map_cons]
        rw [serializeAll]
        cases serialize amount scale with
        | error e => rfl
        | ok serialized => exact ih _

/-- The fees and the splits that are charged, with their roles. -/
def charges (preCalculatedFees : Fees) (splits : List (String × FeeSplit)) : List (String × String) :=
  (preCalculatedFees.entries.map fun e => (toExtensionKey e.1.value, e.2.amount)) ++
    chargedSplits (preCalculatedFees.entries.map fun e => toExtensionKey e.1.value) splits

/-- The scheme fee that a list of extensions carries. -/
def exportedSchemeFee (extensions : ExtensionList) : List String :=
  (extensions.extension.getD []).filterMap fun e =>
    if e.key = some schemeFeeAmountKey then e.value else none

/-- The currency of the scheme fee. -/
def schemeFeeProfile (preCalculatedFees : Fees) (feeCurrency : Option Currency) :
    Option FspiopCurrencyProfile :=
  (feeCurrency.or (preCalculatedFees.entries.head?.map fun e => e.2.currency)).bind FspiopCurrencies.get

theorem toSchemeFeeAmount_eq {fees : Fees} {splits : List (String × FeeSplit)}
    {feeCurrency : Option Currency} {profile : FspiopCurrencyProfile}
    (h : schemeFeeProfile fees feeCurrency = some profile) :
    toSchemeFeeAmount fees (fees.entries.map fun e => toExtensionKey e.1.value) splits feeCurrency =
      serializeAll profile.scale 0 ((charges fees splits).map Prod.snd) >>= fun total =>
        some <$> deserialize total profile.scale := by
  unfold schemeFeeProfile at h
  unfold toSchemeFeeAmount charges
  dsimp only
  rw [h, List.map_append, serializeAll_append, List.map_map]
  dsimp only
  rw [addFees_eq]
  simp only [addSplits_eq, Function.comp_def]
  cases serializeAll profile.scale 0 (fees.entries.map fun e => e.2.amount) <;> rfl

theorem toExtension_key_ne (role : FeeSplitRole) (amount : String) :
    (toExtension role amount).key ≠ some schemeFeeAmountKey := by
  have hne : role.feeKey ≠ schemeFeeAmountKey := by cases role <;> decide
  unfold toExtension
  rw [toExtensionKey_value]
  exact fun h => hne (Option.some.inj h)

theorem toCcExtension_key_ne (role amount : String) :
    (toCcExtension role amount).key ≠ some schemeFeeAmountKey := by
  have hscheme : endsWithCc schemeFeeAmountKey = false := by decide
  unfold toCcExtension
  dsimp only
  intro h
  have hends : endsWithCc schemeFeeAmountKey = true := by
    rw [← Option.some.inj h]
    split_ifs with hcc
    · exact hcc
    · simp [endsWithCc, String.toList_append]
  rw [hscheme] at hends
  cases hends

/-- No other extension has the key of the scheme fee. -/
theorem exportedSchemeFee_map (fees : Fees) (splits : Option (Js.Map String FeeSplit))
    (feeCurrency : Option Currency) (feePolicyId : Option String) :
    exportedSchemeFee <$> toExtensionList fees splits feeCurrency feePolicyId =
      Option.toList <$> toSchemeFeeAmount fees
        (fees.entries.map fun e => toExtensionKey e.1.value) (splits.getD .empty).entries
        feeCurrency := by
  have hentries : (splits.map Js.Map.entries).getD [] = (splits.getD .empty).entries := by
    cases splits <;> rfl
  unfold toExtensionList
  rw [hentries]
  dsimp only
  cases toSchemeFeeAmount fees (fees.entries.map fun e => toExtensionKey e.1.value)
      (splits.getD .empty).entries feeCurrency with
  | error e => rfl
  | ok schemeFeeAmount =>
    apply congrArg Except.ok
    have hnone : ∀ {es : List Extension}, (∀ e ∈ es, e.key ≠ some schemeFeeAmountKey) →
        es.filterMap (fun e => if e.key = some schemeFeeAmountKey then e.value else none) = [] := by
      intro es hes
      rw [List.filterMap_eq_nil_iff]
      exact fun e he => if_neg (hes e he)
    have hfees : ∀ e ∈ fees.entries.map (fun e => toExtension e.1 e.2.amount),
        e.key ≠ some schemeFeeAmountKey :=
      List.forall_mem_map.mpr fun e _ => toExtension_key_ne e.1 e.2.amount
    have hsplits : ∀ e ∈ (splits.getD .empty).entries.filterMap
        (fun e => e.2.amount.map (toCcExtension e.1)),
        e.key ≠ some schemeFeeAmountKey := by
      intro e he
      obtain ⟨split, -, hsplit⟩ := List.mem_filterMap.mp he
      obtain ⟨amount, -, rfl⟩ := Option.map_eq_some_iff.mp hsplit
      exact toCcExtension_key_ne split.1 amount
    have hcurrency : ∀ e ∈ (feeCurrency.map (toSimpleExtension feeCurrencyKey)).toList,
        e.key ≠ some schemeFeeAmountKey := by
      cases feeCurrency <;> simp [toSimpleExtension, feeCurrencyKey, schemeFeeAmountKey]
    have hpolicy : ∀ e ∈ (((feePolicyId.map Js.trim).filter (· ≠ "")).map
        (toSimpleExtension feePolicyIdKey)).toList, e.key ≠ some schemeFeeAmountKey := by
      generalize (feePolicyId.map Js.trim).filter (· ≠ "") = policy
      cases policy <;> simp [toSimpleExtension, feePolicyIdKey, schemeFeeAmountKey]
    dsimp only [exportedSchemeFee]
    rw [Option.getD_some, List.filterMap_append, List.filterMap_append, List.filterMap_append,
      List.filterMap_append, hnone hfees, hnone hsplits, hnone hcurrency, hnone hpolicy]
    cases schemeFeeAmount <;> simp [toSimpleExtension]

/-- The roles that have a fee, or a split with an amount. -/
def roles (preCalculatedFees : Fees) (splits : Js.Map String FeeSplit) : Finset String :=
  (preCalculatedFees.entries.map fun e => toExtensionKey e.1.value).toFinset ∪
    ((splits.entries.filter fun e => e.2.amount.isSome).map fun e => toExtensionKey e.1).toFinset

/-- The fee of a role: that which was calculated beforehand, or what the engine splits. -/
inductive FeeOf (preCalculatedFees : Fees) (splits : Js.Map String FeeSplit) (role : String) :
    ℚ → Prop
  | preCalculated {r : FeeSplitRole} {money : Money} (fee : (r, money) ∈ preCalculatedFees.entries)
      (same : toExtensionKey r.value = role) :
      FeeOf preCalculatedFees splits role (decimal money.amount)
  | split {key : String} {split : FeeSplit} {amount : String}
      (fee : ∀ e ∈ preCalculatedFees.entries, toExtensionKey e.1.value ≠ role)
      (mem : (key, split) ∈ splits.entries) (same : toExtensionKey key = role)
      (some : split.amount = some amount) : FeeOf preCalculatedFees splits role (decimal amount)

/-- The splits are the same but for the keys under which those of a role are. -/
def SameRoles (splits splits' : Js.Map String FeeSplit) : Prop :=
  (splits.entries.map fun e => (toExtensionKey e.1, e.2)).Perm
    (splits'.entries.map fun e => (toExtensionKey e.1, e.2))

/-- What is exported is the sum of one fee for each role, and does not depend on the keys under
which the splits of a role are; unless a number of minor units is too large something is exported. -/
structure CountsEachRoleOnce (preCalculatedFees : Fees)
    (calculatedFeeSplits : Option (Js.Map String FeeSplit)) (feeCurrency : Option Currency)
    (feePolicyId : Option String) (scale : ℕ) : Prop where
  returns : (∀ charge ∈ charges preCalculatedFees (calculatedFeeSplits.getD .empty).entries,
      Fits scale charge.2) →
    ∃ extensions, toExtensionList preCalculatedFees calculatedFeeSplits feeCurrency feePolicyId =
      .ok extensions
  exact : ∀ extensions,
    toExtensionList preCalculatedFees calculatedFeeSplits feeCurrency feePolicyId = .ok extensions →
      ∃ text, ∃ fee : String → ℚ, exportedSchemeFee extensions = [text] ∧
        (∀ role ∈ roles preCalculatedFees (calculatedFeeSplits.getD .empty),
          FeeOf preCalculatedFees (calculatedFeeSplits.getD .empty) role (fee role)) ∧
        rational text.toList =
          some (∑ role ∈ roles preCalculatedFees (calculatedFeeSplits.getD .empty), fee role)
  renamed : ∀ splits, SameRoles splits (calculatedFeeSplits.getD .empty) →
    exportedSchemeFee <$> toExtensionList preCalculatedFees (some splits) feeCurrency feePolicyId =
      exportedSchemeFee <$>
        toExtensionList preCalculatedFees calculatedFeeSplits feeCurrency feePolicyId

/-- Of two splits of a role without a fee of its own one adds nothing. -/
def SplitsEachRoleOnce (preCalculatedFees : Fees) (splits : Js.Map String FeeSplit) : Prop :=
  ∀ e ∈ splits.entries, ∀ e' ∈ splits.entries, e.1 ≠ e'.1 →
    toExtensionKey e.1 = toExtensionKey e'.1 →
    (∀ fee ∈ preCalculatedFees.entries, toExtensionKey fee.1.value ≠ toExtensionKey e.1) →
      ∀ amount ∈ e.2.amount, ∀ amount' ∈ e'.2.amount, decimal amount = 0 ∨ decimal amount' = 0

section Roles

-- No step below depends on how a key is computed.
attribute [local irreducible] toExtensionKey

variable {fees : Fees} {splits : Js.Map String FeeSplit}

theorem mem_chargedSplits {keys : List String} {es : List (String × FeeSplit)}
    {role amount : String} : (role, amount) ∈ chargedSplits keys es ↔
      role ∉ keys ∧ ∃ e ∈ es, toExtensionKey e.1 = role ∧ e.2.amount = some amount := by
  unfold chargedSplits
  simp only [List.mem_filterMap, chargedSplit_eq_some_iff]
  constructor
  · rintro ⟨e, he, hkey, hsplit⟩
    exact ⟨hkey, e, he, hsplit⟩
  · rintro ⟨hkey, e, he, hsplit⟩
    exact ⟨e, he, hkey, hsplit⟩

theorem feeOf_iff {role : String} {q : ℚ} : FeeOf fees splits role q ↔
    (role, q) ∈ (charges fees splits.entries).map fun c => (c.1, decimal c.2) := by
  unfold charges
  rw [List.map_append, List.mem_append, List.map_map]
  constructor
  · intro h
    cases h with
    | preCalculated hfee hsame =>
      left
      exact List.mem_map.mpr ⟨_, hfee, by rw [← hsame]; rfl⟩
    | split hnone hmem hsame hsome =>
      right
      refine List.mem_map.mpr ⟨(role, _), mem_chargedSplits.mpr ⟨?_, _, hmem, hsame, hsome⟩, rfl⟩
      intro hkey
      obtain ⟨e, he, hrole⟩ := List.mem_map.mp hkey
      exact hnone e he hrole
  · intro h
    rcases h with h | h
    · obtain ⟨e, he, heq⟩ := List.mem_map.mp h
      obtain ⟨hrole, rfl⟩ := Prod.mk.inj heq
      exact .preCalculated he hrole
    · obtain ⟨⟨role', amount⟩, hcharged, heq⟩ := List.mem_map.mp h
      obtain ⟨rfl, rfl⟩ := Prod.mk.inj heq
      obtain ⟨hkey, e, he, hsame, hsome⟩ := mem_chargedSplits.mp hcharged
      exact .split (fun e he hrole => hkey (List.mem_map.mpr ⟨e, he, hrole⟩)) he hsame hsome

theorem roles_eq : roles fees splits =
    (((charges fees splits.entries).map fun c => (c.1, decimal c.2)).map Prod.fst).toFinset := by
  ext role
  have hcharged : role ∈ roles fees splits ↔ ∃ amount, (role, amount) ∈ charges fees splits.entries := by
    unfold roles charges
    simp only [Finset.mem_union, List.mem_toFinset, List.mem_append, mem_chargedSplits]
    constructor
    · rintro (hfee | hsplit)
      · obtain ⟨e, he, rfl⟩ := List.mem_map.mp hfee
        exact ⟨_, .inl (List.mem_map.mpr ⟨e, he, rfl⟩)⟩
      · obtain ⟨e, he, rfl⟩ := List.mem_map.mp hsplit
        obtain ⟨he, hsome⟩ := List.mem_filter.mp he
        obtain ⟨amount, hamount⟩ := Option.isSome_iff_exists.mp hsome
        by_cases hkey : toExtensionKey e.1 ∈ fees.entries.map fun e => toExtensionKey e.1.value
        · obtain ⟨fee, hfee, hrole⟩ := List.mem_map.mp hkey
          exact ⟨_, .inl (List.mem_map.mpr ⟨fee, hfee, by rw [hrole]⟩)⟩
        · exact ⟨amount, .inr ⟨hkey, e, he, rfl, hamount⟩⟩
    · rintro ⟨amount, hfee | ⟨-, e, he, rfl, hamount⟩⟩
      · obtain ⟨e, he, heq⟩ := List.mem_map.mp hfee
        left
        exact List.mem_map.mpr ⟨e, he, congrArg Prod.fst heq⟩
      · right
        exact List.mem_map.mpr ⟨e, List.mem_filter.mpr ⟨he, by simp [hamount]⟩, rfl⟩
  rw [hcharged, List.map_map, List.mem_toFinset, List.mem_map]
  constructor
  · rintro ⟨amount, hmem⟩
    exact ⟨_, hmem, rfl⟩
  · rintro ⟨⟨role', amount⟩, hmem, rfl⟩
    exact ⟨amount, hmem⟩

theorem feeKey_injective : Function.Injective FeeSplitRole.feeKey := by
  intro role role' h
  cases role <;> cases role' <;> first | rfl | exact absurd h (by decide)

/-- The splits that are charged are those of the map, each with a key of its own. -/
theorem pairwise_chargedSplits_iff {keys : List String} :
    ((chargedSplits keys splits.entries).Pairwise
      fun c c' => c.1 = c'.1 → decimal c.2 = 0 ∨ decimal c'.2 = 0) ↔
    ∀ e ∈ splits.entries, ∀ e' ∈ splits.entries, e.1 ≠ e'.1 →
      ∀ c, chargedSplit keys e = some c → ∀ c', chargedSplit keys e' = some c' →
        c.1 = c'.1 → decimal c.2 = 0 ∨ decimal c'.2 = 0 := by
  have hsymm : Std.Symm fun e e' : String × FeeSplit =>
      ∀ c, chargedSplit keys e = some c → ∀ c', chargedSplit keys e' = some c' →
        c.1 = c'.1 → decimal c.2 = 0 ∨ decimal c'.2 = 0 :=
    ⟨fun _ _ h c hc c' hc' hsame => (h c' hc' c hc hsame.symm).symm⟩
  rw [chargedSplits, List.pairwise_filterMap]
  exact splits.pairwise_entries_iff

/-- Of two charges of one role one adds nothing exactly if that is so of the splits. -/
theorem pairwise_charges_iff :
    ((charges fees splits.entries).map fun c => (c.1, decimal c.2)).Pairwise
      (fun r r' => r.1 = r'.1 → r.2 = 0 ∨ r'.2 = 0) ↔ SplitsEachRoleOnce fees splits := by
  have hfees : (fees.entries.map fun e => (toExtensionKey e.1.value, e.2.amount)).Pairwise
      fun c c' => c.1 = c'.1 → decimal c.2 = 0 ∨ decimal c'.2 = 0 := by
    have hnodup := fees.nodup
    rw [List.Nodup, List.pairwise_map] at hnodup
    rw [List.pairwise_map]
    refine hnodup.imp ?_
    intro e e' hne hsame
    rw [toExtensionKey_value, toExtensionKey_value] at hsame
    exact absurd (feeKey_injective hsame) hne
  have hcross : ∀ c ∈ fees.entries.map (fun e => (toExtensionKey e.1.value, e.2.amount)),
      ∀ c' ∈ chargedSplits (fees.entries.map fun e => toExtensionKey e.1.value) splits.entries,
        c.1 = c'.1 → decimal c.2 = 0 ∨ decimal c'.2 = 0 := by
    intro c hc c' hc' hsame
    obtain ⟨e, he, rfl⟩ := List.mem_map.mp hc
    have hkey := (mem_chargedSplits.mp hc').1
    exact absurd (List.mem_map.mpr ⟨e, he, hsame⟩) hkey
  have hfree : ∀ role, role ∉ fees.entries.map (fun e => toExtensionKey e.1.value) ↔
      ∀ fee ∈ fees.entries, toExtensionKey fee.1.value ≠ role := by
    intro role
    simp
  unfold charges SplitsEachRoleOnce
  rw [List.pairwise_map, List.pairwise_append, pairwise_chargedSplits_iff]
  constructor
  · rintro ⟨-, hcharged, -⟩ e he e' he' hne hsame hnone amount hamount amount' hamount'
    have hkey := (hfree _).mpr hnone
    exact hcharged e he e' he' hne (_, amount) (chargedSplit_eq_some_iff.mpr ⟨hkey, rfl, hamount⟩)
      (_, amount') (chargedSplit_eq_some_iff.mpr ⟨hsame ▸ hkey, rfl, hamount'⟩) hsame
  · intro hsplit
    refine ⟨hfees, ?_, hcross⟩
    intro e he e' he' hne c hc c' hc' hsame
    obtain ⟨hkey, hrole, hamount⟩ := chargedSplit_eq_some_iff.mp hc
    obtain ⟨-, hrole', hamount'⟩ := chargedSplit_eq_some_iff.mp hc'
    exact hsplit e he e' he' hne (hrole.trans (hsame.trans hrole'.symm))
      ((hfree _).mp (hrole ▸ hkey)) c.2 hamount c'.2 hamount'

end Roles

section Export

variable {fees : Fees} {feeCurrency : Option Currency} {profile : FspiopCurrencyProfile}

/-- What is exported for amounts that are whole numbers of minor units. -/
theorem export_eq (h : schemeFeeProfile fees feeCurrency = some profile)
    {splits : Option (Js.Map String FeeSplit)}
    (hexact : ∀ charge ∈ charges fees (splits.getD .empty).entries, ExactIn profile.scale charge.2)
    (feePolicyId : Option String) :
    exportedSchemeFee <$> toExtensionList fees splits feeCurrency feePolicyId =
      if ∀ charge ∈ charges fees (splits.getD .empty).entries, Fits profile.scale charge.2 then
        (fun text => [text]) <$> deserialize
          ((charges fees (splits.getD .empty).entries).map fun c => minorUnits profile.scale c.2).sum
          profile.scale
      else .error (.ofMessage "Amount is greater than uint64 max.") := by
  have hexact' : ∀ amount ∈ (charges fees (splits.getD .empty).entries).map Prod.snd,
      ExactIn profile.scale amount := List.forall_mem_map.mpr hexact
  rw [exportedSchemeFee_map, toSchemeFeeAmount_eq h, serializeAll_exact hexact', List.map_map, zero_add]
  simp only [List.forall_mem_map, Function.comp_def]
  generalize ((charges fees (splits.getD .empty).entries).map fun c =>
    minorUnits profile.scale c.2).sum = total
  split_ifs
  · show Option.toList <$> some <$> deserialize total profile.scale = _
    cases deserialize total profile.scale <;> rfl
  · rfl

/-- The sum of amounts in minor units, of which the text is what is exported. -/
theorem exists_deserialize_sum {scale : ℕ} {charged : List (String × String)}
    (hexact : ∀ charge ∈ charged, ExactIn scale charge.2) :
    ∃ text, deserialize (charged.map fun c => minorUnits scale c.2).sum scale = .ok text ∧
      rational text.toList = some ((charged.map fun c => decimal c.2).sum) := by
  have hsum : 0 ≤ (charged.map fun c => minorUnits scale c.2).sum ∧
      (charged.map fun c => decimal c.2).sum =
        ((charged.map fun c => minorUnits scale c.2).sum : ℤ) / (10 : ℚ) ^ scale := by
    induction charged with
    | nil => simp
    | cons charge rest ih =>
      obtain ⟨hfirst, hrest⟩ := List.forall_mem_cons.mp hexact
      obtain ⟨hnonneg, hvalue⟩ := ih hrest
      have hfirst' := hfirst.minorUnits_nonneg
      simp only [List.map_cons, List.sum_cons]
      constructor
      · omega
      · rw [hvalue, hfirst.decimal_eq]
        push_cast
        ring
  obtain ⟨n, hn⟩ := Int.eq_ofNat_of_zero_le hsum.1
  obtain ⟨i, f, htext, hcanonical, -, hvalue⟩ := deserialize_spec n scale
  rw [hsum.2, hn]
  refine ⟨_, htext, ?_⟩
  rw [String.toList_ofList, rational_canonical hcanonical, hvalue]
  rfl

/-- The keys of the splits count only for the roles that they are of. -/
theorem charges_perm {splits splits' : Js.Map String FeeSplit} (h : SameRoles splits splits') :
    (charges fees splits.entries).Perm (charges fees splits'.entries) := by
  have hsplits : ∀ (keys : List String) (es : List (String × FeeSplit)), chargedSplits keys es =
      (es.map fun e => (toExtensionKey e.1, e.2)).filterMap fun e => e.2.amount.bind fun amount =>
        if e.1 ∈ keys then none else some (e.1, amount) := by
    intro keys es
    rw [List.filterMap_map]
    rfl
  unfold charges
  rw [hsplits, hsplits]
  exact (h.filterMap _).append_left _

/-- One fee of each role makes up all charges exactly if no role is charged for twice. -/
theorem exists_fees_iff {scale : ℕ} {splits : Js.Map String FeeSplit}
    (hexact : ∀ charge ∈ charges fees splits.entries, ExactIn scale charge.2) :
    (∃ fee : String → ℚ, (∀ role ∈ roles fees splits, FeeOf fees splits role (fee role)) ∧
      ∑ role ∈ roles fees splits, fee role =
        ((charges fees splits.entries).map fun c => decimal c.2).sum) ↔
    SplitsEachRoleOnce fees splits := by
  have hnonneg : ∀ r ∈ (charges fees splits.entries).map (fun c => (c.1, decimal c.2)), 0 ≤ r.2 :=
    List.forall_mem_map.mpr fun charge hcharge => (hexact charge hcharge).decimal_nonneg
  have hsum : (((charges fees splits.entries).map fun c => (c.1, decimal c.2)).map Prod.snd).sum =
      ((charges fees splits.entries).map fun c => decimal c.2).sum := by
    rw [List.map_map]
    rfl
  rw [← pairwise_charges_iff, ← Store.exists_choice_iff hnonneg, ← roles_eq, hsum]
  simp only [feeOf_iff]

/-- For amounts that are whole numbers of minor units one fee of each role is counted exactly if, of
two splits of a role without a fee of its own, one adds nothing, or else an amount is too large. -/
theorem counts_each_role_once_iff (h : schemeFeeProfile fees feeCurrency = some profile)
    {splits : Option (Js.Map String FeeSplit)}
    (hexact : ∀ charge ∈ charges fees (splits.getD .empty).entries, ExactIn profile.scale charge.2)
    (feePolicyId : Option String) :
    CountsEachRoleOnce fees splits feeCurrency feePolicyId profile.scale ↔
      ((∀ charge ∈ charges fees (splits.getD .empty).entries, Fits profile.scale charge.2) →
        SplitsEachRoleOnce fees (splits.getD .empty)) := by
  have hexport := export_eq h hexact feePolicyId
  obtain ⟨text, htext, hrational⟩ := exists_deserialize_sum hexact
  have hrenamed : ∀ splits', SameRoles splits' (splits.getD .empty) →
      exportedSchemeFee <$> toExtensionList fees (some splits') feeCurrency feePolicyId =
        exportedSchemeFee <$> toExtensionList fees splits feeCurrency feePolicyId := by
    intro splits' hsame
    have hperm := @charges_perm fees _ _ hsame
    have hexact' : ∀ charge ∈ charges fees ((some splits').getD .empty).entries,
        ExactIn profile.scale charge.2 := fun charge hcharge => hexact _ (hperm.mem_iff.mp hcharge)
    rw [hexport, export_eq h hexact' feePolicyId, Option.getD_some,
      (hperm.map fun c => minorUnits profile.scale c.2).sum_eq]
    simp only [hperm.mem_iff]
  rw [htext] at hexport
  cases hlist : toExtensionList fees splits feeCurrency feePolicyId with
  | error e =>
    have hfits : ¬ ∀ charge ∈ charges fees (splits.getD .empty).entries,
        Fits profile.scale charge.2 := by
      intro hfits
      rw [hlist, if_pos hfits] at hexport
      cases hexport
    constructor
    · exact fun _ hall => absurd hall hfits
    · intro _
      refine ⟨fun hall => absurd hall hfits, ?_, hrenamed⟩
      intro extensions hok
      rw [hlist] at hok
      cases hok
  | ok extensions =>
    have hfits : ∀ charge ∈ charges fees (splits.getD .empty).entries,
        Fits profile.scale charge.2 := by
      by_contra hfits
      rw [hlist, if_neg hfits] at hexport
      cases hexport
    rw [hlist, if_pos hfits] at hexport
    have hexported : exportedSchemeFee extensions = [text] := Except.ok.inj hexport
    rw [forall_prop_of_true hfits, ← exists_fees_iff hexact]
    constructor
    · intro hcounts
      obtain ⟨text', fee, htext', hfee, hsum⟩ := hcounts.exact extensions hlist
      have hsame : text = text' := List.head_eq_of_cons_eq (hexported.symm.trans htext')
      rw [← hsame, hrational] at hsum
      exact ⟨fee, hfee, (Option.some.inj hsum).symm⟩
    · rintro ⟨fee, hfee, hsum⟩
      refine ⟨fun _ => ⟨extensions, hlist⟩, ?_, hrenamed⟩
      intro extensions' hlist'
      obtain rfl := Except.ok.inj (hlist.symm.trans hlist')
      exact ⟨text, fee, hexported, hfee, by rw [hrational, hsum]⟩

/-- A split of the hub under each of two of its keys. -/
def sampleHubSplits : Js.Map String FeeSplit :=
  (Js.Map.empty.set "HUB" ⟨some "1", some "USD"⟩).set "hub" ⟨some "1", some "USD"⟩

theorem exactIn_one : ExactIn 2 "1" := by
  use 100
  have hone : rational "1".toList = some 1 := by decide +kernel
  rw [hone]
  norm_num

/-- A second split of the hub that adds nothing. -/
def sampleOneHubSplit : Js.Map String FeeSplit :=
  (Js.Map.empty.set "HUB" ⟨some "1", some "USD"⟩).set "hub" ⟨some "0", some "USD"⟩

theorem exactIn_zero : ExactIn 2 "0" := by
  use 0
  have hzero : rational "0".toList = some 0 := by decide +kernel
  rw [hzero]
  norm_num

/-- A fee of the payer and two splits of the hub, of which one is of nothing. -/
theorem counts_each_role_once_sample :
    CountsEachRoleOnce (Js.Map.empty.set .payer ⟨"USD", "1"⟩) (some sampleOneHubSplit)
      (some "USD") none 2 := by
  have hcharges : charges (Js.Map.empty.set .payer ⟨"USD", "1"⟩) sampleOneHubSplit.entries =
      [("payer_fsp_fee", "1"), ("hub_fee", "1"), ("hub_fee", "0")] := by decide
  refine (@counts_each_role_once_iff (Js.Map.empty.set .payer ⟨"USD", "1"⟩) (some "USD") ⟨"USD", 2⟩
    (by decide) (some sampleOneHubSplit) ?_ none).mpr fun _ => ?_
  · rw [Option.getD_some, hcharges]
    simp [exactIn_one, exactIn_zero]
  · have hzero : decimal "0" = 0 := by decide +kernel
    have hentries : sampleOneHubSplit.entries =
        [("HUB", ⟨some "1", some "USD"⟩), ("hub", ⟨some "0", some "USD"⟩)] := rfl
    intro e he e' he' hne
    rw [Option.getD_some, hentries] at he he'
    simp only [List.mem_cons, List.not_mem_nil, or_false] at he he'
    rcases he with rfl | rfl
    · rcases he' with rfl | rfl
      · exact absurd rfl hne
      · rintro - - _ - _ ⟨⟩
        exact .inr hzero
    · rintro - - _ ⟨⟩ _ -
      exact .inl hzero

/-- The hub's fee of one is exported as two. -/
theorem not_counts_each_role_once : ¬ ∀ (fees : Fees) (splits : Option (Js.Map String FeeSplit))
    (feeCurrency : Option Currency) (feePolicyId : Option String) (profile : FspiopCurrencyProfile),
    schemeFeeProfile fees feeCurrency = some profile →
      (∀ charge ∈ charges fees (splits.getD .empty).entries, ExactIn profile.scale charge.2) →
        CountsEachRoleOnce fees splits feeCurrency feePolicyId profile.scale := by
  intro h
  have hcharges : charges Js.Map.empty sampleHubSplits.entries =
      [("hub_fee", "1"), ("hub_fee", "1")] := by decide
  have hroles : "hub_fee" ∈ roles Js.Map.empty sampleHubSplits ∧
      roles Js.Map.empty sampleHubSplits ⊆ {"hub_fee"} := by decide
  have hlist : exportedSchemeFee <$> toExtensionList Js.Map.empty (some sampleHubSplits)
      (some "USD") none = .ok ["2"] := by decide +kernel
  have hcounts := h Js.Map.empty (some sampleHubSplits) (some "USD") none ⟨"USD", 2⟩ (by decide)
    (by rw [Option.getD_some, hcharges]; simp [exactIn_one])
  cases hok : toExtensionList Js.Map.empty (some sampleHubSplits) (some "USD") none with
  | error e =>
    rw [hok] at hlist
    cases hlist
  | ok extensions =>
    obtain ⟨text, fee, htext, hfee, hsum⟩ := hcounts.exact extensions hok
    rw [hok] at hlist
    have htwo : text = "2" := List.head_eq_of_cons_eq (htext.symm.trans (Except.ok.inj hlist))
    have hvalue : rational "2".toList = some 2 := by decide +kernel
    have hone : decimal "1" = 1 := by decide +kernel
    have hfee := hfee "hub_fee" hroles.1
    rw [Option.getD_some, feeOf_iff, hcharges] at hfee
    have hfee : fee "hub_fee" = 1 := by simpa [hone] using hfee
    have hroles : roles Js.Map.empty sampleHubSplits = {"hub_fee"} :=
      Finset.Subset.antisymm hroles.2 (Finset.singleton_subset_iff.mpr hroles.1)
    rw [htwo, hvalue, Option.getD_some, hroles, Finset.sum_singleton, hfee] at hsum
    norm_num at hsum

end Export

end Catalyst
