import Mathlib.Data.Fintype.Basic
import Pivotal.Fspiop.Dto
import Pivotal.Fspiop.Money
import Pivotal.Js.Map

/-! Fees that were calculated beforehand, their validation against what the fee engine splits, and
the extensions that are made of both. -/
namespace Catalyst
open Fspiop

inductive FeeSplitRole where
  | payer | payee | hub | si | fxp
  deriving DecidableEq

instance : Fintype FeeSplitRole where
  elems := {.payer, .payee, .hub, .si, .fxp}
  complete := fun role => by cases role <;> decide

def FeeSplitRole.value : FeeSplitRole → String
  | .payer => "PAYER_FSP"
  | .payee => "PAYEE_FSP"
  | .hub => "HUB"
  | .si => "SI"
  | .fxp => "FXP"

structure FeePolicy where
  feePolicyId : Option String
  deriving DecidableEq

structure FeeSplit where
  amount : Option String
  currency : Option Currency
  deriving DecidableEq

/-- The splits are in the order in which the properties of an object are listed. -/
structure FeeCalculationResult where
  feePolicy : Option FeePolicy
  feeCurrency : Option Currency
  feeSplits : Option (Js.Map String FeeSplit)

abbrev Fees := Js.Map FeeSplitRole Money

/-- `new CatalystException(message)`. -/
def catalystException (message : String) : JsError :=
  .plain ⟨"CatalystException", message, some "CATALYST_ERROR", none⟩

namespace FeeValidator

def resolveScale (currency : Currency) (role : FeeSplitRole) : Except JsError ℕ :=
  match FspiopCurrencies.get currency with
  | none => .error (catalystException s!"Wrong currency information for {role.value}")
  | some currencyProfile => .ok currencyProfile.scale

def resolveRoleAliases : FeeSplitRole → List String
  | .payer => ["payer_fsp", "payer_fsp_fee", "payer_fsp_fee_cc", "PAYER_FSP"]
  | .payee => ["payee_fsp", "payee_fsp_fee", "payee_fsp_fee_cc", "PAYEE_FSP"]
  | .hub => ["hub", "hub_fee", "HUB"]
  | .si => ["si", "SI"]
  | .fxp => ["fxp", "FXP"]

def resolveSplit (feeSplits : Js.Map String FeeSplit) (role : FeeSplitRole) : Option FeeSplit :=
  match feeSplits.get role.value with
  | some direct => some direct
  | none => (resolveRoleAliases role).findSome? feeSplits.get

/-- One turn of the loop. -/
def validateFee (feePolicy : FeePolicy) (calculatedSplits : Js.Map String FeeSplit)
    (role : FeeSplitRole) (preCalculatedFee : Money) : Except JsError Unit := do
  let some calculatedSplit := resolveSplit calculatedSplits role
    | throw (catalystException (s!"{role.value} fee cannot be resolved in current policy ID : " ++
        feePolicy.feePolicyId.getD "undefined"))
  let some calculatedCurrency := calculatedSplit.currency
    | throw (catalystException s!"Missing currency information for {role.value}")
  if preCalculatedFee.currency ≠ calculatedCurrency then
    throw (catalystException s!"Currency information mismatch for {role.value}")
  let some calculated := calculatedSplit.amount
    | throw (catalystException s!"Missing amount for {role.value}")
  let scale ← resolveScale preCalculatedFee.currency role
  let preCalculatedAmount ← FspiopMoney.serialize preCalculatedFee.amount scale
  let calculatedAmount ← FspiopMoney.serialize calculated scale
  if preCalculatedAmount > calculatedAmount then
    throw (catalystException
      s!"Pre-calculated fee is larger than the Fee Engine's calculation for {role.value}")

def validateFees (feePolicy : FeePolicy) (calculatedSplits : Js.Map String FeeSplit) :
    List (FeeSplitRole × Money) → Except JsError Unit
  | [] => .ok ()
  | (role, preCalculatedFee) :: rest => do
    validateFee feePolicy calculatedSplits role preCalculatedFee
    validateFees feePolicy calculatedSplits rest

def validate (preCalculatedFees : Fees) (feeCalculationResult : FeeCalculationResult) :
    Except JsError Unit :=
  match feeCalculationResult.feePolicy with
  | none => .ok ()
  | some feePolicy => validateFees feePolicy (feeCalculationResult.feeSplits.getD .empty)
      preCalculatedFees.entries

end FeeValidator

inductive EngineMode where
  | bypass | strict
  deriving DecidableEq

namespace CatalystFeeEngine

def schemeFeeAmountKey : String := "scheme_fee_amount"

def feeCurrencyKey : String := "scheme_fee_currency"

def feePolicyIdKey : String := "scheme_fee_policy_id"

def toExtensionKey (role : String) : String :=
  let normalizedRole := Js.trim role
  if normalizedRole = FeeSplitRole.payer.value ∨ normalizedRole = "payer_fsp" ∨
      normalizedRole = "payer_fsp_fee" ∨ normalizedRole = "payer_fsp_fee_cc" then
    "payer_fsp_fee"
  else if normalizedRole = FeeSplitRole.payee.value ∨ normalizedRole = "payee_fsp" ∨
      normalizedRole = "payee_fsp_fee" ∨ normalizedRole = "payee_fsp_fee_cc" then
    "payee_fsp_fee"
  else if normalizedRole = FeeSplitRole.hub.value ∨ normalizedRole = "hub" ∨
      normalizedRole = "hub_fee" ∨ normalizedRole = "hub_fee_cc" then
    "hub_fee"
  else if normalizedRole = FeeSplitRole.si.value ∨ normalizedRole = "si" ∨
      normalizedRole = "si_fee" ∨ normalizedRole = "si_fee_cc" then
    "si_fee"
  else if normalizedRole = FeeSplitRole.fxp.value ∨ normalizedRole = "fxp" ∨
      normalizedRole = "fxp_fee" ∨ normalizedRole = "fxp_fee_cc" then
    "fxp_fee"
  else Js.toLowerCase normalizedRole

def toExtension (role : FeeSplitRole) (amount : String) : Extension :=
  ⟨some (toExtensionKey role.value), some amount⟩

def endsWithCc (key : String) : Bool := "_cc".toList.isSuffixOf key.toList

def toCcExtension (role amount : String) : Extension :=
  let extensionKey := toExtensionKey role
  ⟨some (if endsWithCc extensionKey then extensionKey else extensionKey ++ "_cc"), some amount⟩

def toSimpleExtension (key value : String) : Extension := ⟨some key, some value⟩

/-- The splits of the roles that are charged beside the fees that were calculated beforehand. -/
def addSplits (preCalculatedFeeKeys : List String) (scale : ℕ) :
    ℤ → List (String × FeeSplit) → Except JsError ℤ
  | total, [] => .ok total
  | total, (key, split) :: rest =>
    match split.amount with
    | none => addSplits preCalculatedFeeKeys scale total rest
    | some amount =>
      if toExtensionKey key ∈ preCalculatedFeeKeys then
        addSplits preCalculatedFeeKeys scale total rest
      else do
        let serialized ← FspiopMoney.serialize amount scale
        addSplits preCalculatedFeeKeys scale (total + serialized) rest

def addFees (scale : ℕ) : ℤ → List (FeeSplitRole × Money) → Except JsError ℤ
  | total, [] => .ok total
  | total, (_, money) :: rest => do
    let amount ← FspiopMoney.serialize money.amount scale
    addFees scale (total + amount) rest

def toSchemeFeeAmount (preCalculatedFees : Fees) (preCalculatedFeeKeys : List String)
    (calculatedFeeSplits : List (String × FeeSplit)) (feeCurrency : Option Currency) :
    Except JsError (Option String) := do
  let first := preCalculatedFees.entries.head?.map fun e => e.2.currency
  let some currencyProfile := (feeCurrency.or first).bind FspiopCurrencies.get
    | return none
  let fees ← addFees currencyProfile.scale 0 preCalculatedFees.entries
  let total ← addSplits preCalculatedFeeKeys currencyProfile.scale fees calculatedFeeSplits
  return some (← FspiopMoney.deserialize total currencyProfile.scale)

def toExtensionList (preCalculatedFees : Fees)
    (calculatedFeeSplits : Option (Js.Map String FeeSplit)) (feeCurrency : Option Currency)
    (feePolicyId : Option String) : Except JsError ExtensionList := do
  let splits := (calculatedFeeSplits.map Js.Map.entries).getD []
  let fees := preCalculatedFees.entries.map fun (role, money) => toExtension role money.amount
  let preCalculatedFeeKeys := preCalculatedFees.entries.map fun (role, _) =>
    toExtensionKey role.value
  let charged := splits.filterMap fun (role, split) => split.amount.map (toCcExtension role)
  let schemeFeeAmount ← toSchemeFeeAmount preCalculatedFees preCalculatedFeeKeys splits feeCurrency
  let normalizedFeePolicyId := (feePolicyId.map Js.trim).filter (· ≠ "")
  return ⟨some (fees ++ charged ++
    (schemeFeeAmount.map (toSimpleExtension schemeFeeAmountKey)).toList ++
    (feeCurrency.map (toSimpleExtension feeCurrencyKey)).toList ++
    (normalizedFeePolicyId.map (toSimpleExtension feePolicyIdKey)).toList)⟩

/-- With what the calculator answers, which is not asked in the mode that bypasses it. -/
def execute (engineMode : EngineMode) (preCalculatedFees : Fees) (feePolicyId : ℤ)
    (feeCalculationResult : FeeCalculationResult) : Except JsError ExtensionList := do
  if engineMode = .bypass then
    return ← toExtensionList preCalculatedFees none none none
  FeeValidator.validate preCalculatedFees feeCalculationResult
  let resolvedFeePolicyId := (feeCalculationResult.feePolicy.bind FeePolicy.feePolicyId).or
    (if feePolicyId > 0 then some (toString feePolicyId) else none)
  toExtensionList preCalculatedFees feeCalculationResult.feeSplits feeCalculationResult.feeCurrency
    resolvedFeePolicyId

end CatalystFeeEngine

/-! Which splits are those of a role, to the validator and to the engine. -/

namespace FeeSplitRole

/-- The key of the extension that carries the fee of the role. -/
def feeKey : FeeSplitRole → String
  | .payer => "payer_fsp_fee"
  | .payee => "payee_fsp_fee"
  | .hub => "hub_fee"
  | .si => "si_fee"
  | .fxp => "fxp_fee"

/-- The spellings of the role that the engine compares with. -/
def spellings : FeeSplitRole → List String
  | .payer => ["PAYER_FSP", "payer_fsp", "payer_fsp_fee", "payer_fsp_fee_cc"]
  | .payee => ["PAYEE_FSP", "payee_fsp", "payee_fsp_fee", "payee_fsp_fee_cc"]
  | .hub => ["HUB", "hub", "hub_fee", "hub_fee_cc"]
  | .si => ["SI", "si", "si_fee", "si_fee_cc"]
  | .fxp => ["FXP", "fxp", "fxp_fee", "fxp_fee_cc"]

/-- The keys under which the validator looks for the split of the role. -/
def readKeys (role : FeeSplitRole) : List String :=
  role.value :: FeeValidator.resolveRoleAliases role

end FeeSplitRole

open CatalystFeeEngine (toExtensionKey)

/-- A spelling that the engine compares with belongs to one role. -/
theorem toExtensionKey_of_mem {role : FeeSplitRole} {key : String}
    (h : Js.trim key ∈ role.spellings) : toExtensionKey key = role.feeKey := by
  unfold toExtensionKey
  generalize Js.trim key = text at h
  cases role with
  | payer | payee | hub | si | fxp =>
    simp only [FeeSplitRole.spellings, List.mem_cons, List.not_mem_nil, or_false] at h
    rcases h with rfl | rfl | rfl | rfl <;> decide

theorem toExtensionKey_of_not_mem {key : String}
    (h : ∀ role : FeeSplitRole, Js.trim key ∉ role.spellings) :
    toExtensionKey key = Js.toLowerCase (Js.trim key) := by
  unfold toExtensionKey
  rw [if_neg (by simpa [FeeSplitRole.spellings, FeeSplitRole.value] using h .payer),
    if_neg (by simpa [FeeSplitRole.spellings, FeeSplitRole.value] using h .payee),
    if_neg (by simpa [FeeSplitRole.spellings, FeeSplitRole.value] using h .hub),
    if_neg (by simpa [FeeSplitRole.spellings, FeeSplitRole.value] using h .si),
    if_neg (by simpa [FeeSplitRole.spellings, FeeSplitRole.value] using h .fxp)]

/-- No spelling of one role is one of another, or lower-cased the key of another. -/
theorem role_of_spelling : ∀ role role' : FeeSplitRole, ∀ text ∈ role'.spellings,
    text ∈ role.spellings ∨ Js.toLowerCase text = role.feeKey ∨ role'.feeKey = role.feeKey →
      role' = role := by
  decide

theorem toExtensionKey_eq_iff {role : FeeSplitRole} {key : String} :
    toExtensionKey key = role.feeKey ↔
      Js.trim key ∈ role.spellings ∨ Js.toLowerCase (Js.trim key) = role.feeKey := by
  by_cases hmem : ∃ role' : FeeSplitRole, Js.trim key ∈ role'.spellings
  · obtain ⟨role', hrole'⟩ := hmem
    rw [toExtensionKey_of_mem hrole']
    constructor
    · intro hkey
      obtain rfl := role_of_spelling role role' _ hrole' (.inr (.inr hkey))
      exact .inl hrole'
    · intro hspelled
      have hspelled' : Js.trim key ∈ role.spellings ∨ Js.toLowerCase (Js.trim key) = role.feeKey ∨
          role'.feeKey = role.feeKey := hspelled.imp id .inl
      rw [role_of_spelling role role' _ hrole' hspelled']
  · have hnone : ∀ role' : FeeSplitRole, Js.trim key ∉ role'.spellings := not_exists.mp hmem
    rw [toExtensionKey_of_not_mem hnone]
    constructor
    · exact .inr
    · exact fun hspelled => hspelled.resolve_left (hnone role)

theorem toExtensionKey_value (role : FeeSplitRole) : toExtensionKey role.value = role.feeKey := by
  cases role <;> decide

/-- What the validator reads the engine counts as the role's. -/
theorem toExtensionKey_of_readKeys : ∀ role : FeeSplitRole, ∀ key ∈ role.readKeys,
    toExtensionKey key = role.feeKey := by
  decide

section Splits

variable {splits : Js.Map String FeeSplit} {role : FeeSplitRole} {split : FeeSplit}

theorem resolveSplit_eq : FeeValidator.resolveSplit splits role =
    role.readKeys.findSome? splits.get := by
  unfold FeeValidator.resolveSplit FeeSplitRole.readKeys
  rw [List.findSome?_cons]
  cases splits.get role.value <;> rfl

theorem exists_of_resolveSplit (h : FeeValidator.resolveSplit splits role = some split) :
    ∃ key ∈ role.readKeys, splits.get key = some split := by
  rw [resolveSplit_eq] at h
  exact List.exists_of_findSome?_eq_some h

theorem resolveSplit_isSome_iff : (FeeValidator.resolveSplit splits role).isSome = true ↔
    ∃ key ∈ role.readKeys, (splits.get key).isSome = true := by
  rw [resolveSplit_eq, List.findSome?_isSome_iff]

end Splits

/-- The engine counts a split as the role's. -/
def Charges (splits : Js.Map String FeeSplit) (role : FeeSplitRole) (key : String) : Prop :=
  (splits.get key).isSome = true ∧ toExtensionKey key = toExtensionKey role.value

/-- The validator finds a split of a role where the engine has one, and compares with one that the
engine counts as the role's. -/
structure Agrees (preCalculatedFees : Fees) (result : FeeCalculationResult) : Prop where
  finds : ∀ role, (preCalculatedFees.get role).isSome = true →
    ((FeeValidator.resolveSplit (result.feeSplits.getD .empty) role).isSome = true ↔
      ∃ key, Charges (result.feeSplits.getD .empty) role key)
  compares : ∀ role split, (preCalculatedFees.get role).isSome = true →
    FeeValidator.resolveSplit (result.feeSplits.getD .empty) role = some split →
      ∃ key, Charges (result.feeSplits.getD .empty) role key ∧
        (result.feeSplits.getD .empty).get key = some split

/-- A spelling of the role with white space around it, with capitals in its fee form, or with a
suffix that the validator does not know. -/
def Overlooked (role : FeeSplitRole) (key : String) : Prop :=
  key ∉ role.readKeys ∧
    (Js.trim key ∈ role.spellings ∨ Js.toLowerCase (Js.trim key) = role.feeKey)

instance (role : FeeSplitRole) (key : String) : Decidable (Overlooked role key) :=
  inferInstanceAs (Decidable (_ ∧ _))

/-- The condition of the result. A role with a split under an overlooked spelling has one under a
spelling that the validator reads. -/
def Legible (preCalculatedFees : Fees) (result : FeeCalculationResult) : Prop :=
  ∀ role key, (preCalculatedFees.get role).isSome = true →
    ((result.feeSplits.getD .empty).get key).isSome = true → Overlooked role key →
      ∃ key' ∈ role.readKeys, ((result.feeSplits.getD .empty).get key').isSome = true

/-- The validator checks the splits that the engine charges exactly if the condition holds. -/
theorem validator_agrees_iff (preCalculatedFees : Fees) (result : FeeCalculationResult) :
    Agrees preCalculatedFees result ↔ Legible preCalculatedFees result := by
  constructor
  · intro hagrees role key hrole hkey hoverlooked
    have hcharges : Charges (result.feeSplits.getD .empty) role key := by
      refine ⟨hkey, ?_⟩
      rw [toExtensionKey_value, toExtensionKey_eq_iff]
      exact hoverlooked.2
    exact resolveSplit_isSome_iff.mp ((hagrees.finds role hrole).mpr ⟨key, hcharges⟩)
  · intro hlegible
    constructor
    · intro role hrole
      rw [resolveSplit_isSome_iff]
      constructor
      · rintro ⟨key, hread, hkey⟩
        refine ⟨key, hkey, ?_⟩
        rw [toExtensionKey_of_readKeys role key hread, toExtensionKey_value]
      · rintro ⟨key, hkey, hsame⟩
        by_cases hread : key ∈ role.readKeys
        · exact ⟨key, hread, hkey⟩
        · rw [toExtensionKey_value, toExtensionKey_eq_iff] at hsame
          exact hlegible role key hrole hkey ⟨hread, hsame⟩
    · intro role split _ hsplit
      obtain ⟨key, hread, hget⟩ := exists_of_resolveSplit hsplit
      refine ⟨key, ⟨by rw [hget]; rfl, ?_⟩, hget⟩
      rw [toExtensionKey_of_readKeys role key hread, toExtensionKey_value]

theorem resolved_of_validateFees {feePolicy : FeePolicy} {splits : Js.Map String FeeSplit}
    {fees : List (FeeSplitRole × Money)}
    (h : FeeValidator.validateFees feePolicy splits fees = .ok ()) {role : FeeSplitRole}
    {money : Money} (hfee : (role, money) ∈ fees) :
    (FeeValidator.resolveSplit splits role).isSome = true := by
  induction fees with
  | nil => cases hfee
  | cons fee rest ih =>
    obtain ⟨role', money'⟩ := fee
    cases hfirst : FeeValidator.validateFee feePolicy splits role' money' with
    | error e =>
      rw [FeeValidator.validateFees, hfirst] at h
      cases h
    | ok _ =>
      rw [FeeValidator.validateFees, hfirst] at h
      rcases List.mem_cons.mp hfee with heq | hrest
      · obtain ⟨rfl, rfl⟩ := Prod.mk.inj heq
        cases hsplit : FeeValidator.resolveSplit splits role with
        | some split => rfl
        | none =>
          rw [FeeValidator.validateFee, hsplit] at hfirst
          cases hfirst
      · exact ih h hrest

/-- A fee that passes the validation is that of a role for which the engine charges a split. -/
theorem charged_of_validate {preCalculatedFees : Fees} {result : FeeCalculationResult}
    (hpolicy : result.feePolicy.isSome = true)
    (h : FeeValidator.validate preCalculatedFees result = .ok ()) {role : FeeSplitRole}
    {money : Money} (hfee : preCalculatedFees.get role = some money) :
    ∃ key, Charges (result.feeSplits.getD .empty) role key := by
  obtain ⟨feePolicy, hsome⟩ := Option.isSome_iff_exists.mp hpolicy
  rw [FeeValidator.validate, hsome] at h
  have hresolved := resolved_of_validateFees h (Js.Map.mem_entries.mpr hfee)
  obtain ⟨key, hread, hkey⟩ := resolveSplit_isSome_iff.mp hresolved
  refine ⟨key, hkey, ?_⟩
  rw [toExtensionKey_of_readKeys role key hread, toExtensionKey_value]

/-- A split of the service integrator, under the key of its fee. -/
def sampleSplits : FeeCalculationResult where
  feePolicy := some ⟨some "1"⟩
  feeCurrency := some "USD"
  feeSplits := some (Js.Map.empty.set "si_fee" ⟨some "1", some "USD"⟩)

/-- The engine charges it, and the validator says that there is none. -/
theorem not_validator_agrees : ¬ ∀ (preCalculatedFees : Fees) (result : FeeCalculationResult),
    result.feePolicy.isSome = true → Agrees preCalculatedFees result := by
  intro h
  have hagrees := h (Js.Map.empty.set .si ⟨"USD", "1"⟩) sampleSplits rfl
  have hcharges : Charges (sampleSplits.feeSplits.getD .empty) .si "si_fee" := by
    constructor <;> decide
  have hfound := (hagrees.finds .si (by decide)).mpr ⟨"si_fee", hcharges⟩
  revert hfound
  decide

end Catalyst
