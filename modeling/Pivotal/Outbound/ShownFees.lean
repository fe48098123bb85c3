import Pivotal.Audit.Ingestion
import Pivotal.Outbound.System

/-! The fees of a quote, as the payer is shown them and as they are audited. -/
namespace Outbound
open Audit (AuditQuotesResponseCommand AuditTransactionMapper.toFeeAmount
  AuditTransactionMapper.toQuotesResponseInput Numeric UpsertInput sampleNumeric)
open Fspiop

section Occurrences

variable {α : Type} (p q : α → Prop)

/-- The first of a list of which `p` holds, between what is before and after it. -/
def IsFirst (l before : List α) (a : α) (after : List α) : Prop :=
  l = before ++ a :: after ∧ p a ∧ ∀ x ∈ before, ¬ p x

/-- The last. -/
def IsLast (l before : List α) (a : α) (after : List α) : Prop :=
  l = before ++ a :: after ∧ p a ∧ ∀ x ∈ after, ¬ p x

variable {p q}

theorem exists_isLast {l : List α} (h : ∃ a ∈ l, p a) : ∃ before a after, IsLast p l before a after := by
  induction l with
  | nil =>
    obtain ⟨a, ha, -⟩ := h
    cases ha
  | cons x rest ih =>
    by_cases hrest : ∃ a ∈ rest, p a
    · obtain ⟨before, a, after, rfl, ha, hafter⟩ := ih hrest
      exact ⟨x :: before, a, after, rfl, ha, hafter⟩
    · obtain ⟨a, ha, hpa⟩ := h
      rcases List.mem_cons.mp ha with rfl | ha
      · exact ⟨[], a, rest, rfl, hpa, fun b hb hpb => hrest ⟨b, hb, hpb⟩⟩
      · exact absurd ⟨a, ha, hpa⟩ hrest

/-- Another of which `p` holds stands after the first. -/
theorem IsFirst.eq_or_mem {l before after b r : List α} {a e : α} (h : IsFirst p l before a after)
    (hl : l = b ++ e :: r) (he : p e) : (b = before ∧ e = a ∧ r = after) ∨
      a ∈ b ∧ e ∈ after := by
  obtain ⟨rfl, -, hbefore⟩ := h
  rcases List.append_eq_append_iff.mp hl with ⟨c, rfl, hc⟩ | ⟨c, rfl, hc⟩
  · cases c with
    | nil =>
      obtain ⟨rfl, rfl⟩ := List.cons.inj hc
      exact .inl ⟨by simp, rfl, rfl⟩
    | cons x c =>
      obtain ⟨rfl, rfl⟩ := List.cons.inj hc
      exact .inr ⟨by simp, by simp⟩
  · cases c with
    | nil =>
      obtain ⟨rfl, rfl⟩ := List.cons.inj hc
      exact .inl ⟨by simp, rfl, rfl⟩
    | cons x c =>
      obtain ⟨rfl, rfl⟩ := List.cons.inj hc
      exact absurd he (hbefore e (by simp))

/-- The entries of which `p` holds, and the first of them in its place. -/
theorem filter_eq_cons [DecidablePred p] {l rest : List α} {a : α}
    (h : l.filter p = a :: rest) : ∃ before after, IsFirst p l before a after ∧
      after.filter p = rest := by
  obtain ⟨before, after, rfl, hbefore, ha, hafter⟩ := List.filter_eq_cons_iff.mp h
  exact ⟨before, after, ⟨rfl, by simpa using ha, by simpa using hbefore⟩, hafter⟩

end Occurrences

/-- A fee of a quote, with the key under which the payer's response finds it and the one under which
the audit does. -/
inductive QuoteFee where
  | payee | payer | scheme
  deriving DecidableEq

namespace QuoteFee

def mapKey : QuoteFee → String
  | .payee => "payeefee"
  | .payer => "payerfee"
  | .scheme => "schemefee"

def auditKey : QuoteFee → String
  | .payee => "payeeFee"
  | .payer => "payerFee"
  | .scheme => "schemeFee"

def shown (response : SendMoneyResponse) : QuoteFee → String
  | .payee => response.payeeFee
  | .payer => response.payerFee
  | .scheme => response.schemeFee

def stored {J ν : Type} (input : UpsertInput J ν) : QuoteFee → Option ν
  | .payee => input.payeeFee
  | .payer => input.payerFee
  | .scheme => input.schemeFee

theorem mapKey_eq (fee : QuoteFee) : Js.toLowerCase (Js.trim fee.auditKey) = fee.mapKey := by
  cases fee <;> decide

theorem mapKey_ne_empty (fee : QuoteFee) : fee.mapKey ≠ "" := by
  cases fee <;> decide

end QuoteFee

variable {J ν : Type} {numeric : Numeric ν} {fee : QuoteFee} {extensions : List Extension}

/-- The entry has the key of the fee. -/
def Keyed (fee : QuoteFee) (ext : Extension) : Prop :=
  SendMoneyResponseMapper.keyOf ext = some fee.mapKey

instance (fee : QuoteFee) : DecidablePred (Keyed fee) :=
  fun ext => inferInstanceAs (Decidable (SendMoneyResponseMapper.keyOf ext = _))

/-- The entry is set in the map. -/
def Entered (fee : QuoteFee) (ext : Extension) : Prop := Keyed fee ext ∧ Js.blank ext.value = false

instance (fee : QuoteFee) : DecidablePred (Entered fee) :=
  fun ext => inferInstanceAs (Decidable (Keyed fee ext ∧ Js.blank ext.value = false))

/-- The payer is shown the value of the entry: no later one is set. -/
def Shows (fee : QuoteFee) (extensions before : List Extension) (ext : Extension)
    (after : List Extension) : Prop :=
  IsLast (Entered fee) extensions before ext after

/-- The text is a number. -/
def Storable (numeric : Numeric ν) (value : Option String) : Prop :=
  Js.blank value = false ∧ numeric.isFinite (numeric.number (Js.trim (value.getD ""))) = true

instance (numeric : Numeric ν) : DecidablePred (Storable numeric) :=
  fun value => inferInstanceAs (Decidable (Js.blank value = false ∧ _ = true))

/-- The audit stores the value of the entry: the first with the key, if it is a number. -/
def Stores (numeric : Numeric ν) (fee : QuoteFee) (extensions before : List Extension)
    (ext : Extension) (after : List Extension) : Prop :=
  IsFirst (Keyed fee) extensions before ext after ∧ Storable numeric ext.value

section Map

open SendMoneyResponseMapper (feeOf indexExtensions keyOf)

theorem indexExtensions_append (exts exts' : List Extension) :
    indexExtensions (some (exts ++ exts')) =
      indexExtensions (some exts) ++ indexExtensions (some exts') := by
  simp [indexExtensions]

theorem lookup_indexExtensions (fee : QuoteFee) (ext : Extension) :
    (indexExtensions (some [ext])).reverse.lookup fee.mapKey =
      if Keyed fee ext ∧ Js.blank ext.value = false then some (Js.trim (ext.value.getD ""))
      else none := by
  obtain ⟨key, value⟩ := ext
  have hne := fee.mapKey_ne_empty
  cases hkey : keyOf ⟨key, value⟩ with
  | none => simp [indexExtensions, Keyed, hkey]
  | some found =>
    cases value with
    | none => simp [indexExtensions, Keyed, hkey, Js.blank]
    | some text =>
      by_cases htext : Js.trim text = ""
      · simp [indexExtensions, hkey, Js.blank, htext]
      · by_cases hfound : found = fee.mapKey
        · simp [indexExtensions, Keyed, hkey, Js.blank, htext, hfound, hne]
        · have hfound' : fee.mapKey ≠ found := fun h => hfound h.symm
          by_cases hempty : found = ""
          · simp [indexExtensions, Keyed, hkey, hempty, hne.symm]
          · simp [indexExtensions, Keyed, hkey, htext, hempty, hfound, hfound']

theorem lookup_eq_none (h : ∀ ext ∈ extensions, ¬ Entered fee ext) :
    (indexExtensions (some extensions)).reverse.lookup fee.mapKey = none := by
  induction extensions with
  | nil => rfl
  | cons ext rest ih =>
    have hext : ¬ (Keyed fee ext ∧ Js.blank ext.value = false) := h ext List.mem_cons_self
    rw [← List.singleton_append, indexExtensions_append, List.reverse_append, List.lookup_append,
      lookup_indexExtensions, if_neg hext, ih fun e he => h e (List.mem_cons_of_mem _ he)]
    rfl

/-- The payer is shown the value of the last entry that is set. -/
theorem feeOf_of_shows {before after : List Extension} {ext : Extension}
    (h : Shows fee extensions before ext after) :
    feeOf (some extensions) fee.mapKey = Js.trim (ext.value.getD "") := by
  obtain ⟨rfl, hext, hafter⟩ := h
  have hentered : Keyed fee ext ∧ Js.blank ext.value = false := hext
  rw [feeOf, indexExtensions_append, ← List.singleton_append, indexExtensions_append,
    List.reverse_append, List.reverse_append, List.lookup_append, List.lookup_append,
    lookup_eq_none hafter, lookup_indexExtensions, if_pos hentered]
  rfl

end Map

section Audited

theorem toOptionalNumber_isSome_iff {value : Option String} :
    (Audit.AuditTransactionMapper.toOptionalNumber numeric value).isSome = true ↔
      Storable numeric value := by
  unfold Audit.AuditTransactionMapper.toOptionalNumber Storable
  cases value with
  | none => simp [Js.blank]
  | some text =>
    by_cases hblank : Js.blank (some text) = true
    · simp [hblank]
    · simp [hblank, Audit.AuditTransactionMapper.toNumber, Option.isSome_filter]

theorem toOptionalNumber_eq {value : Option String} {amount : ν}
    (h : Audit.AuditTransactionMapper.toOptionalNumber numeric value = some amount) :
    amount = numeric.number (Js.trim (value.getD "")) := by
  unfold Audit.AuditTransactionMapper.toOptionalNumber at h
  cases value with
  | none => simp [Js.blank] at h
  | some text =>
    split at h
    · cases h
    · have hnumber := (Option.filter_eq_some_iff.mp h).1
      simpa [Audit.AuditTransactionMapper.toNumber, eq_comm] using hnumber

/-- The entries of an extension list. -/
def entriesOf (extensionList : Option ExtensionList) : List Extension :=
  (extensionList.bind (·.extension)).getD []

theorem findExtensionValue_eq (fee : QuoteFee) (extensionList : Option ExtensionList) :
    Audit.AuditTransactionMapper.findExtensionValue extensionList fee.auditKey =
      ((entriesOf extensionList).find? fun ext => Keyed fee ext).bind (·.value) := by
  simp only [Audit.AuditTransactionMapper.findExtensionValue, fee.mapKey_eq]
  rfl

/-- The audit stores the value of the first entry with the key, if it is a number. -/
theorem toFeeAmount_of_isFirst {extensionList : Option ExtensionList} {before after : List Extension}
    {ext : Extension} (h : IsFirst (Keyed fee) (entriesOf extensionList) before ext after) :
    AuditTransactionMapper.toFeeAmount numeric extensionList fee.auditKey =
      Audit.AuditTransactionMapper.toOptionalNumber numeric ext.value := by
  obtain ⟨hsplit, hext, hbefore⟩ := h
  have hfind : (entriesOf extensionList).find? (fun ext => Keyed fee ext) = some ext := by
    rw [List.find?_eq_some_iff_append]
    exact ⟨by simpa using hext, before, after, hsplit, by simpa using hbefore⟩
  rw [AuditTransactionMapper.toFeeAmount, findExtensionValue_eq, hfind]
  rfl

theorem toFeeAmount_of_none {extensionList : Option ExtensionList}
    (h : ∀ ext ∈ entriesOf extensionList, ¬ Keyed fee ext) :
    AuditTransactionMapper.toFeeAmount numeric extensionList fee.auditKey = none := by
  have hfind : (entriesOf extensionList).find? (fun ext => Keyed fee ext) = none := by
    simpa [List.find?_eq_none] using h
  rw [AuditTransactionMapper.toFeeAmount, findExtensionValue_eq, hfind]
  rfl

end Audited

/-- The payer is shown a value, and not the default, exactly if one is stored, and both are that of
one entry. -/
structure FeeAgrees (numeric : Numeric ν) (fee : QuoteFee) (extensions : List Extension)
    (shown : String) (stored : Option ν) : Prop where
  shown_iff : (∃ before ext after, Shows fee extensions before ext after ∧
    shown = Js.trim (ext.value.getD "")) ↔ stored.isSome = true
  same_entry : ∀ before ext after amount, Shows fee extensions before ext after →
    stored = some amount → Stores numeric fee extensions before ext after ∧
      amount = numeric.number (Js.trim (ext.value.getD ""))

/-- The condition of the result, on the entries with the key of a fee: all but the first are blank,
and the first is blank or a number. -/
def Unambiguous (numeric : Numeric ν) : List Extension → Prop
  | [] => True
  | first :: rest => (∀ ext ∈ rest, Js.blank ext.value = true) ∧
    (Js.blank first.value = true ∨ Storable numeric first.value)

instance (numeric : Numeric ν) : DecidablePred (Unambiguous numeric)
  | [] => inferInstanceAs (Decidable True)
  | first :: rest => inferInstanceAs (Decidable ((∀ ext ∈ rest, Js.blank ext.value = true) ∧
      (Js.blank first.value = true ∨ Storable numeric first.value)))

theorem feeAgrees_iff (numeric : Numeric ν) (fee : QuoteFee) (extensionList : Option ExtensionList) :
    FeeAgrees numeric fee (entriesOf extensionList)
      (SendMoneyResponseMapper.feeOf (some (entriesOf extensionList)) fee.mapKey)
      (AuditTransactionMapper.toFeeAmount numeric extensionList fee.auditKey) ↔
    Unambiguous numeric ((entriesOf extensionList).filter fun ext => Keyed fee ext) := by
  cases hfilter : (entriesOf extensionList).filter fun ext => Keyed fee ext with
  | nil =>
    have hnone : ∀ ext ∈ entriesOf extensionList, ¬ Keyed fee ext := by
      simpa [List.filter_eq_nil_iff] using hfilter
    rw [toFeeAmount_of_none hnone]
    have hshown : ¬ ∃ before ext after, Shows fee (entriesOf extensionList) before ext after ∧
        SendMoneyResponseMapper.feeOf (some (entriesOf extensionList)) fee.mapKey =
          Js.trim (ext.value.getD "") := by
      rintro ⟨before, ext, after, ⟨hsplit, hext, -⟩, -⟩
      apply hnone ext _ hext.1
      rw [hsplit]
      simp
    have hagrees : FeeAgrees numeric fee (entriesOf extensionList)
        (SendMoneyResponseMapper.feeOf (some (entriesOf extensionList)) fee.mapKey) none := by
      constructor
      · exact iff_of_false hshown Bool.false_ne_true
      · intro _ _ _ _ _ hamount
        cases hamount
    exact iff_of_true hagrees trivial
  | cons first rest =>
    obtain ⟨before, after, hfirst, hafter⟩ := filter_eq_cons hfilter
    rw [toFeeAmount_of_isFirst hfirst]
    have hkeyed : ∀ ext, ext ∈ rest ↔ ext ∈ after ∧ Keyed fee ext := by
      intro ext
      rw [← hafter]
      simp
    constructor
    · intro hagrees
      have hentered : ∀ ext, ext = first ∨ ext ∈ rest → Js.blank ext.value = false →
          Storable numeric first.value := by
        intro ext hext hvalue
        have hmem : ext ∈ entriesOf extensionList ∧ Entered fee ext := by
          rcases hext with rfl | hext
          · exact ⟨by rw [hfirst.1]; simp, hfirst.2.1, hvalue⟩
          · obtain ⟨hin, hkey⟩ := (hkeyed ext).mp hext
            exact ⟨by rw [hfirst.1]; simp [hin], hkey, hvalue⟩
        obtain ⟨b, e, a, hshows⟩ := exists_isLast ⟨ext, hmem⟩
        rw [← toOptionalNumber_isSome_iff]
        exact hagrees.shown_iff.mp ⟨b, e, a, hshows, feeOf_of_shows hshows⟩
      -- A later entry that is set would be shown, and the first is what is stored.
      have hblank : ∀ ext ∈ rest, Js.blank ext.value = true := by
        intro ext hext
        by_contra hvalue
        rw [Bool.not_eq_true] at hvalue
        obtain ⟨hin, hkey⟩ := (hkeyed ext).mp hext
        have hmem : ext ∈ entriesOf extensionList := by
          rw [hfirst.1]
          simp [hin]
        obtain ⟨b, e, a, hshows⟩ := exists_isLast (p := Entered fee) ⟨ext, hmem, hkey, hvalue⟩
        have hstored := hagrees.shown_iff.mp ⟨b, e, a, hshows, feeOf_of_shows hshows⟩
        obtain ⟨amount, hamount⟩ := Option.isSome_iff_exists.mp hstored
        obtain ⟨⟨hstores, -⟩, -⟩ := hagrees.same_entry b e a amount hshows hamount
        rcases hfirst.eq_or_mem hstores.1 hstores.2.1 with ⟨-, -, rfl⟩ | ⟨hearlier, -⟩
        · exact hshows.2.2 ext hin ⟨hkey, hvalue⟩
        · exact hstores.2.2 first hearlier hfirst.2.1
      refine ⟨hblank, ?_⟩
      cases hvalue : Js.blank first.value with
      | true => exact .inl rfl
      | false => exact .inr (hentered first (.inl rfl) hvalue)
    · rintro ⟨hrest, hvalue⟩
      -- Nothing but the first can be shown.
      have hplace : ∀ b e a, Shows fee (entriesOf extensionList) b e a →
          b = before ∧ e = first ∧ a = after := by
        intro b e a hshows
        rcases hfirst.eq_or_mem hshows.1 hshows.2.1.1 with heq | ⟨-, hlater⟩
        · exact heq
        · have hblank := hrest e ((hkeyed e).mpr ⟨hlater, hshows.2.1.1⟩)
          have hentered := hshows.2.1.2
          rw [hblank] at hentered
          cases hentered
      constructor
      · rw [toOptionalNumber_isSome_iff]
        constructor
        · rintro ⟨b, e, a, hshows, -⟩
          obtain ⟨-, rfl, -⟩ := hplace b e a hshows
          rcases hvalue with hblank | hstorable
          · rw [hshows.2.1.2] at hblank
            cases hblank
          · exact hstorable
        · intro hstorable
          have hmem : first ∈ entriesOf extensionList := by
            rw [hfirst.1]
            simp
          obtain ⟨b, e, a, hshows⟩ := exists_isLast (p := Entered fee)
            ⟨first, hmem, hfirst.2.1, hstorable.1⟩
          exact ⟨b, e, a, hshows, feeOf_of_shows hshows⟩
      · intro b e a amount hshows hamount
        obtain ⟨rfl, rfl, rfl⟩ := hplace b e a hshows
        have hstorable : Storable numeric e.value := by
          rw [← toOptionalNumber_isSome_iff, hamount]
          rfl
        exact ⟨⟨hfirst, hstorable⟩, toOptionalNumber_eq hamount⟩

section Result

variable {transferRequest : TransferRequest} {command : AuditQuotesResponseCommand}
  {now : Js.Date} {input : UpsertInput J ν}

theorem shown_toWaitingForQuoteAcceptance (fee : QuoteFee) (transferRequest : TransferRequest)
    (extensionList : Option ExtensionList) :
    fee.shown (SendMoneyResponseMapper.toWaitingForQuoteAcceptance transferRequest extensionList) =
      SendMoneyResponseMapper.feeOf (some (entriesOf extensionList)) fee.mapKey := by
  have hentries : ∀ key, SendMoneyResponseMapper.feeOf (extensionList.bind (·.extension)) key =
      SendMoneyResponseMapper.feeOf (some (entriesOf extensionList)) key := by
    intro key
    rfl
  cases fee <;> exact hentries _

theorem stored_toQuotesResponseInput (fee : QuoteFee)
    (hinput : AuditTransactionMapper.toQuotesResponseInput numeric command now = .ok input) :
    fee.stored input = AuditTransactionMapper.toFeeAmount numeric
      (command.response.bind (·.extensionList)) fee.auditKey := by
  unfold Audit.AuditTransactionMapper.toQuotesResponseInput at hinput
  cases hcommon : Audit.AuditTransactionMapper.toQuotesInput (J := J) numeric
      command.toCommandInput command.request now with
  | error e =>
    rw [hcommon] at hinput
    cases hinput
  | ok common =>
    rw [hcommon] at hinput
    cases hinput
    cases fee <;> rfl

/-- What the payer is shown for each fee of a quote is what is audited of it, exactly if the
entries of no fee are ambiguous. -/
theorem fees_agree_iff (numeric : Numeric ν) (transferRequest : TransferRequest)
    (command : AuditQuotesResponseCommand) (now : Js.Date) (input : UpsertInput J ν)
    (hinput : AuditTransactionMapper.toQuotesResponseInput numeric command now = .ok input) :
    (∀ fee, FeeAgrees numeric fee (entriesOf (command.response.bind (·.extensionList)))
      (fee.shown (SendMoneyResponseMapper.toWaitingForQuoteAcceptance transferRequest
        (command.response.bind (·.extensionList))))
      (fee.stored input)) ↔
    ∀ fee, Unambiguous numeric
      ((entriesOf (command.response.bind (·.extensionList))).filter fun ext => Keyed fee ext) := by
  apply forall_congr'
  intro fee
  rw [shown_toWaitingForQuoteAcceptance, stored_toQuotesResponseInput fee hinput]
  exact feeAgrees_iff numeric fee _

/-- The answer to a quote, with the extensions. -/
def sampleResponse (extensions : List Extension) : AuditQuotesResponseCommand where
  correlationId := "x"
  payerFsp := "a"
  payeeFsp := "b"
  gateway := .outbound
  response := some { sampleQuote with extensionList := some ⟨some extensions⟩ }

theorem fees_agree_sample :
    let extensions : List Extension := [⟨some "payeeFee", some "1"⟩, ⟨some "schemefee ", some "2"⟩]
    ∃ input : UpsertInput Unit ℤ,
      AuditTransactionMapper.toQuotesResponseInput sampleNumeric (sampleResponse extensions) 0 =
        .ok input ∧
      ∀ fee, FeeAgrees sampleNumeric fee extensions
        (fee.shown (SendMoneyResponseMapper.toWaitingForQuoteAcceptance (sampleTransfer none)
          (some ⟨some extensions⟩)))
        (fee.stored input) := by
  intro extensions
  refine ⟨_, rfl, ?_⟩
  apply (fees_agree_iff sampleNumeric (sampleTransfer none) (sampleResponse extensions) 0 _ rfl).mpr
  intro fee
  cases fee <;> decide

/-- A key that is sent twice: the payer is shown the last value, and the first is stored. -/
theorem not_fees_agree :
    ¬ ∀ (transferRequest : TransferRequest) (command : AuditQuotesResponseCommand) (now : Js.Date)
      (input : UpsertInput Unit ℤ),
      AuditTransactionMapper.toQuotesResponseInput sampleNumeric command now = .ok input →
      ∀ fee, FeeAgrees sampleNumeric fee (entriesOf (command.response.bind (·.extensionList)))
        (fee.shown (SendMoneyResponseMapper.toWaitingForQuoteAcceptance transferRequest
          (command.response.bind (·.extensionList))))
        (fee.stored input) := by
  intro h
  let one : Extension := ⟨some "payeeFee", some "1"⟩
  let two : Extension := ⟨some "payeeFee", some "2"⟩
  have hagrees := h (sampleTransfer none) (sampleResponse [one, two]) 0 _ rfl .payee
  have hshows : Shows .payee [one, two] [one] two [] := by
    refine ⟨rfl, by decide, ?_⟩
    simp
  have hstores := (hagrees.same_entry [one] two [] 1 hshows (by decide)).1
  have hkeyed : Keyed .payee one := by decide
  exact hstores.1.2.2 one (by simp) hkeyed

end Result

end Outbound
