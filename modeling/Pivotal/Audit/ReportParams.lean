import Pivotal.Audit.Search
import Pivotal.Fspiop.Agreement

/-! What a report is asked for, as texts under which it is stored until a worker reads them. The
controller makes the criteria from the query, and what is stored of them gives them back. -/
namespace Audit
open Fspiop Js FindTransactionsQuery

/-- `throw new BadRequestException(…)`, with or without a code. -/
structure BadRequest where
  code : Option String
  message : String
  deriving DecidableEq

/-- The values that the engine reads texts as: integers by `Number(text)`, which reads what
`String(number)` writes, and dates of formats other than ISO. -/
structure TextValues where
  toInteger : String → Option ℤ
  ofInteger : ℤ → String
  toInteger_ofInteger : ∀ text n, toInteger text = some n → toInteger (ofInteger n) = some n
  ofInteger_ne_empty : ∀ n, ofInteger n ≠ ""
  otherDate : String → Option Js.Date

namespace TextValues

variable (texts : TextValues)

/-- `new Date(text)`, with nothing for an invalid date. -/
def toDate (text : String) : Option Js.Date :=
  parseDate (fun text => (texts.otherDate text).bind timeClip) text

theorem toDate_valid {text : String} {date : Js.Date} (h : texts.toDate text = some date) :
    -maxTime ≤ date ∧ date ≤ maxTime := by
  have hclip : ∀ {time}, timeClip time = some date → -maxTime ≤ date ∧ date ≤ maxTime := by
    intro time htime
    unfold timeClip at htime
    split_ifs at htime with hvalid
    cases htime
    exact hvalid
  unfold toDate parseDate at h
  split at h
  · rename_i iso hiso
    cases h
    unfold parseIso at hiso
    simp only [bind, Option.bind_eq_some_iff] at hiso
    obtain ⟨_, _, _, _, _, _, _, _, hiso⟩ := hiso
    split_ifs at hiso with hvalid
    cases hiso
    exact hvalid
  · obtain ⟨time, -, htime⟩ := Option.bind_eq_some_iff.mp h
    exact hclip htime

/-- The text of a valid date is read as the date. -/
theorem toDate_toISOString {date : Js.Date} (h : -maxTime ≤ date ∧ date ≤ maxTime) :
    ∃ text, toISOString date = some text ∧ text ≠ "" ∧ texts.toDate text = some date := by
  refine ⟨_, if_pos h, ?_, ?_⟩
  · intro hempty
    have hchars := congrArg String.toList hempty
    simp at hchars
  · have hzone : parseOffset ['Z'] = some 0 := rfl
    unfold toDate parseDate
    rw [String.toList_ofList, parseIso_isoChars h hzone]

end TextValues

/-- The value of an enumeration with a text. -/
def ofEnumText {α : Type} (values : List α) (text : α → String) (s : String) : Option α :=
  values.find? fun value => text value = s

/-- The texts of an enumeration, of which `values` are all. -/
structure EnumText {α : Type} (values : List α) (text : α → String) : Prop where
  complete : ∀ a, a ∈ values
  injective : ∀ a ∈ values, ∀ b ∈ values, text a = text b → a = b
  ne_empty : ∀ a ∈ values, text a ≠ ""

theorem EnumText.read {α : Type} {values : List α} {text : α → String} (h : EnumText values text)
    (value : α) : ofEnumText values text (text value) = some value := by
  unfold ofEnumText
  cases hfind : values.find? fun other => text other = text value with
  | none =>
    rw [List.find?_eq_none] at hfind
    exact absurd (decide_eq_true rfl) (hfind value (h.complete value))
  | some other =>
    have hsame : text other = text value := by simpa using List.find?_some hfind
    rw [h.injective other (h.complete other) value (h.complete value) hsame]

def partyIdTypes : List PartyIdType :=
  [.msisdn, .email, .personalId, .business, .device, .accountId, .iban, .alias]

def transactionScenarios : List TransactionScenario :=
  [.deposit, .withdrawal, .transfer, .payment, .refund]

def TransactionScenario.text : TransactionScenario → String
  | .deposit => "DEPOSIT"
  | .withdrawal => "WITHDRAWAL"
  | .transfer => "TRANSFER"
  | .payment => "PAYMENT"
  | .refund => "REFUND"

def columns : List Column := [.correlationId, .transactionStartAt, .transactionCompletedAt]

def Column.text : Column → String
  | .correlationId => "correlationId"
  | .transactionStartAt => "transactionStartAt"
  | .transactionCompletedAt => "transactionCompletedAt"

def directions : List Direction := [.asc, .desc]

def Direction.text : Direction → String
  | .asc => "ASC"
  | .desc => "DESC"

theorem enumText_partyIdType : EnumText partyIdTypes PartyIdType.text where
  complete := by rintro ⟨⟩ <;> decide
  injective := by decide
  ne_empty := by decide

theorem enumText_transactionScenario :
    EnumText transactionScenarios TransactionScenario.text where
  complete := by rintro ⟨⟩ <;> decide
  injective := by decide
  ne_empty := by decide

theorem enumText_column : EnumText columns Column.text where
  complete := by rintro ⟨⟩ <;> decide
  injective := by decide
  ne_empty := by decide

theorem enumText_direction : EnumText directions Direction.text where
  complete := by rintro ⟨⟩ <;> decide
  injective := by decide
  ne_empty := by decide

namespace QueryParamsUtil

variable (texts : TextValues)

def toOptionalString (value : Option String) : Option String :=
  match value.map trim with
  | none => none
  | some normalized => if normalized = "" then none else some normalized

/-- A text that asks for `null`. -/
def toOptionalNullableString (value : Option String) : Option (Option String) :=
  (toOptionalString value).map fun normalized =>
    if toLowerCase normalized = "null" then none else some normalized

def toOptionalDate (value : Option String) (parameterName : String) :
    Except BadRequest (Option Js.Date) :=
  match toOptionalString value with
  | none => .ok none
  | some normalized =>
    match texts.toDate normalized with
    | some parsed => .ok (some parsed)
    | none => .error ⟨none, parameterName ++ " must be a valid ISO datetime."⟩

def toOptionalBoolean (value : Option String) (parameterName : String) :
    Except BadRequest (Option Bool) :=
  match toOptionalString value with
  | none => .ok none
  | some normalized =>
    let lowered := toLowerCase normalized
    if lowered ∈ ["true", "1", "yes"] then .ok (some true)
    else if lowered ∈ ["false", "0", "no"] then .ok (some false)
    else .error ⟨none, parameterName ++ " must be true/false."⟩

def toOptionalEnum {α : Type} (value : Option String) (values : List α) (text : α → String)
    (parameterName : String) : Except BadRequest (Option α) :=
  match toOptionalString value with
  | none => .ok none
  | some normalized =>
    match ofEnumText values text normalized with
    | some parsed => .ok (some parsed)
    | none => .error ⟨none, parameterName ++ " must be one of: " ++
        ", ".intercalate (values.map text) ++ "."⟩

def toEnum {α : Type} (value : Option String) (values : List α) (text : α → String) (fallback : α)
    (parameterName : String) : Except BadRequest α := do
  return (← toOptionalEnum value values text parameterName).getD fallback

def toOptionalInteger (value : Option String) (parameterName : String) :
    Except BadRequest (Option ℤ) :=
  match toOptionalString value with
  | none => .ok none
  | some normalized =>
    match texts.toInteger normalized with
    | some parsed => .ok (some parsed)
    | none => .error ⟨none, parameterName ++ " must be an integer."⟩

def toDateRange (startValue endValue : Option String) (startParameterName endParameterName : String) :
    Except BadRequest (Option DateRange) := do
  let start ← toOptionalDate texts startValue startParameterName
  let stop ← toOptionalDate texts endValue endParameterName
  if start.isNone && stop.isNone then
    return none
  return some ⟨start, stop⟩

theorem toOptionalString_ne_empty (value : Option String) : toOptionalString value ≠ some "" := by
  unfold toOptionalString
  split
  · simp
  · split_ifs with hempty
    · simp
    · simpa using hempty

theorem toOptionalNullableString_ne_null (value : Option String) {text : String}
    (h : toOptionalNullableString value = some (some text)) :
    text ≠ "" ∧ toLowerCase text ≠ "null" := by
  obtain ⟨normalized, hnormalized, htext⟩ := Option.map_eq_some_iff.mp h
  split_ifs at htext with hnull
  cases htext
  refine ⟨?_, hnull⟩
  rintro rfl
  exact toOptionalString_ne_empty value hnormalized

theorem toOptionalDate_valid {value : Option String} {name : String} {date : Js.Date}
    (h : toOptionalDate texts value name = .ok (some date)) : -maxTime ≤ date ∧ date ≤ maxTime := by
  unfold toOptionalDate at h
  split at h
  · cases h
  · split at h
    · rename_i hparsed
      cases h
      exact texts.toDate_valid hparsed
    · cases h

theorem toOptionalInteger_read {value : Option String} {name : String} {n : ℤ}
    (h : toOptionalInteger texts value name = .ok (some n)) :
    texts.toInteger (texts.ofInteger n) = some n := by
  unfold toOptionalInteger at h
  split at h
  · cases h
  · split at h
    · rename_i hparsed
      cases h
      exact texts.toInteger_ofInteger _ _ hparsed
    · cases h

theorem toDateRange_valid {start stop : Option String} {startName stopName : String}
    {range : DateRange} (h : toDateRange texts start stop startName stopName = .ok (some range)) :
    (range.startInclusive ≠ none ∨ range.endExclusive ≠ none) ∧
      (∀ date ∈ range.startInclusive, -maxTime ≤ date ∧ date ≤ maxTime) ∧
      ∀ date ∈ range.endExclusive, -maxTime ≤ date ∧ date ≤ maxTime := by
  simp only [toDateRange, bind_ok_iff] at h
  obtain ⟨first, hfirst, last, hlast, h⟩ := h
  split_ifs at h with hnone
  · cases h
  · obtain rfl : (⟨first, last⟩ : DateRange) = range := Option.some.inj (pure_ok_iff.mp h)
    refine ⟨?_, ?_, ?_⟩
    · by_contra hboth
      push Not at hboth
      obtain ⟨rfl, rfl⟩ := hboth
      exact hnone rfl
    · rintro date rfl
      exact toOptionalDate_valid texts hfirst
    · rintro date rfl
      exact toOptionalDate_valid texts hlast

end QueryParamsUtil

/-- The query of a request for a report. -/
structure ReportQuery where
  payerFsp : Option String := none
  payeeFsp : Option String := none
  payerIdType : Option String := none
  payerId : Option String := none
  payerSubId : Option String := none
  payeeIdType : Option String := none
  payeeId : Option String := none
  payeeSubId : Option String := none
  transferId : Option String := none
  payerHomeTransactionId : Option String := none
  payeeHomeTransactionId : Option String := none
  flow : Option String := none
  transferType : Option String := none
  subScenario : Option String := none
  transactionStartAtStart : Option String := none
  transactionStartAtEnd : Option String := none
  error : Option String := none
  dispute : Option String := none
  orderColumn : Option String := none
  orderDirection : Option String := none

/-- What a token says of its user; that a user of a participant has an `fspId` that is not blank is
seen to where users are created and updated. -/
structure ReportClaims where
  fspId : Option String
  fspId_ne_empty : fspId ≠ some ""

/-- What the controller passes on, as far as it is stored. -/
structure ReportInput where
  criteria : Criteria
  order : Order
  accessScope : Option AccessScope
  deriving DecidableEq

/-- What of an input survives being stored: no text is empty or reads as `null`, and numbers and
dates are such as their texts give back. -/
structure ReportInput.Storable (texts : TextValues) (input : ReportInput) : Prop where
  texts_ne : ∀ text ∈ [input.criteria.payerFsp, input.criteria.payeeFsp, input.criteria.payerId,
    input.criteria.payeeId, input.criteria.transferId, input.criteria.payerHomeTransactionId,
    input.criteria.payeeHomeTransactionId, input.criteria.subScenario], text ≠ some ""
  subIds_ne : ∀ value ∈ [input.criteria.payerSubId, input.criteria.payeeSubId],
    ∀ text, value = some (some text) → text ≠ "" ∧ toLowerCase text ≠ "null"
  flow_read : ∀ n, input.criteria.flow = some n → texts.toInteger (texts.ofInteger n) = some n
  range_valid : ∀ range, input.criteria.transactionStartAt = some range →
    (range.startInclusive ≠ none ∨ range.endExclusive ≠ none) ∧
      (∀ date ∈ range.startInclusive, -maxTime ≤ date ∧ date ≤ maxTime) ∧
      ∀ date ∈ range.endExclusive, -maxTime ≤ date ∧ date ≤ maxTime
  scope_ne : ∀ scope, input.accessScope = some scope → scope.fspId ≠ ""

namespace TransactionReportsAuditController
open QueryParamsUtil

variable (texts : TextValues)

def toCriteria (query : ReportQuery) : Except BadRequest Criteria := do
  let payerIdType ←
    toOptionalEnum query.payerIdType partyIdTypes PartyIdType.text "payerIdType"
  let payeeIdType ←
    toOptionalEnum query.payeeIdType partyIdTypes PartyIdType.text "payeeIdType"
  let flow ← toOptionalInteger texts query.flow "flow"
  let transferType ←
    toOptionalEnum query.transferType transactionScenarios TransactionScenario.text "transferType"
  let transactionStartAt ← toDateRange texts query.transactionStartAtStart
    query.transactionStartAtEnd "transactionStartAtStart" "transactionStartAtEnd"
  let error ← toOptionalBoolean query.error "error"
  let dispute ← toOptionalBoolean query.dispute "dispute"
  return {
    payerFsp := toOptionalString query.payerFsp
    payeeFsp := toOptionalString query.payeeFsp
    payerIdType := payerIdType
    payerId := toOptionalString query.payerId
    payerSubId := toOptionalNullableString query.payerSubId
    payeeIdType := payeeIdType
    payeeId := toOptionalString query.payeeId
    payeeSubId := toOptionalNullableString query.payeeSubId
    transferId := toOptionalString query.transferId
    payerHomeTransactionId := toOptionalString query.payerHomeTransactionId
    payeeHomeTransactionId := toOptionalString query.payeeHomeTransactionId
    flow := flow
    transferType := transferType
    subScenario := toOptionalString query.subScenario
    transactionStartAt := transactionStartAt
    error := error
    dispute := dispute }

def resolveListAccessScope (claims : Option ReportClaims) (payerFsp payeeFsp : Option String) :
    Except BadRequest (Option AccessScope) :=
  match claims.bind fun claims => claims.fspId with
  | none => .ok none
  | some scopedFspId =>
    let payer := toOptionalString payerFsp
    let payee := toOptionalString payeeFsp
    if payer.isSome && payee.isSome && payer ≠ some scopedFspId && payee ≠ some scopedFspId then
      .error ⟨some "AUTH_FSP_SCOPE_VIOLATION",
        "Either payerFsp or payeeFsp must match the caller fspId."⟩
    else .ok (some ⟨scopedFspId⟩)

def requestTransactionReport (claims : Option ReportClaims) (query : ReportQuery) :
    Except BadRequest ReportInput := do
  let accessScope ← resolveListAccessScope claims query.payerFsp query.payeeFsp
  let criteria ← toCriteria texts query
  let column ← toEnum query.orderColumn columns Column.text .transactionStartAt "orderColumn"
  let direction ← toEnum query.orderDirection directions Direction.text .desc "orderDirection"
  return ⟨criteria, ⟨column, direction⟩, accessScope⟩

theorem resolveListAccessScope_ne_empty {claims : Option ReportClaims}
    {payerFsp payeeFsp : Option String} {scope : AccessScope}
    (h : resolveListAccessScope claims payerFsp payeeFsp = .ok (some scope)) :
    scope.fspId ≠ "" := by
  unfold resolveListAccessScope at h
  split at h
  · cases h
  · rename_i fspId hfspId
    obtain ⟨claims, -, hclaims⟩ := Option.bind_eq_some_iff.mp hfspId
    simp only at h
    split_ifs at h
    cases h
    rintro rfl
    exact claims.fspId_ne_empty hclaims

/-- Whatever the controller passes on can be stored. -/
theorem storable_of_requestTransactionReport {claims : Option ReportClaims} {query : ReportQuery}
    {input : ReportInput} (h : requestTransactionReport texts claims query = .ok input) :
    input.Storable texts := by
  simp only [requestTransactionReport, toCriteria, bind_ok_iff] at h
  obtain ⟨scope, hscope, criteria, ⟨payerIdType, -, payeeIdType, -, flow, hflow, transferType, -,
    range, hrange, error, -, dispute, -, hcriteria⟩, column, -, direction, -, hinput⟩ := h
  obtain rfl := pure_ok_iff.mp hcriteria
  obtain rfl := pure_ok_iff.mp hinput
  refine ⟨?_, ?_, ?_, ?_, ?_⟩
  · intro text htext
    simp only [List.mem_cons, List.not_mem_nil, or_false] at htext
    obtain rfl | rfl | rfl | rfl | rfl | rfl | rfl | rfl := htext <;>
      exact toOptionalString_ne_empty _
  · intro value hvalue text htext
    simp only [List.mem_cons, List.not_mem_nil, or_false] at hvalue
    obtain rfl | rfl := hvalue <;> exact toOptionalNullableString_ne_null _ htext
  · rintro n rfl
    exact toOptionalInteger_read texts hflow
  · rintro range rfl
    exact toDateRange_valid texts hrange
  · rintro scope rfl
    exact resolveListAccessScope_ne_empty hscope

end TransactionReportsAuditController

namespace TransactionReportParams

variable (texts : TextValues)

def nullableToParam (value : Option (Option String)) : String :=
  match value with
  | none => ""
  | some none => "null"
  | some (some value) => value

/-- `date?.toISOString() ?? ''`; an invalid date throws a `RangeError`. -/
def dateToParam (date : Option Js.Date) : Option String :=
  match date with
  | none => some ""
  | some date => toISOString date

def fromInput (criteria : Criteria) (order : Order) (accessScope : Option AccessScope) :
    Option (List (String × String)) := do
  let start ← dateToParam (criteria.transactionStartAt.bind fun range => range.startInclusive)
  let stop ← dateToParam (criteria.transactionStartAt.bind fun range => range.endExclusive)
  return [
    ("payerFsp", criteria.payerFsp.getD ""),
    ("payeeFsp", criteria.payeeFsp.getD ""),
    ("payerIdType", (criteria.payerIdType.map PartyIdType.text).getD ""),
    ("payerId", criteria.payerId.getD ""),
    ("payerSubId", nullableToParam criteria.payerSubId),
    ("payeeIdType", (criteria.payeeIdType.map PartyIdType.text).getD ""),
    ("payeeId", criteria.payeeId.getD ""),
    ("payeeSubId", nullableToParam criteria.payeeSubId),
    ("transferId", criteria.transferId.getD ""),
    ("payerHomeTransactionId", criteria.payerHomeTransactionId.getD ""),
    ("payeeHomeTransactionId", criteria.payeeHomeTransactionId.getD ""),
    ("flow", (criteria.flow.map texts.ofInteger).getD ""),
    ("transferType", (criteria.transferType.map TransactionScenario.text).getD ""),
    ("subScenario", criteria.subScenario.getD ""),
    ("transactionStartAtStart", start),
    ("transactionStartAtEnd", stop),
    ("error", (criteria.error.map toString).getD ""),
    ("dispute", (criteria.dispute.map toString).getD ""),
    ("orderColumn", Column.text order.column),
    ("orderDirection", Direction.text order.direction),
    ("accessFspId", (accessScope.map fun scope => scope.fspId).getD "")]

/-- `findParamsByRequestId` of the rows that are stored. -/
def ofRows (rows : List (String × String)) : Js.Map String String :=
  rows.foldl (fun result param => result.set param.1 param.2) Js.Map.empty

def emptyToUndefined (value : Option String) : Option String :=
  match value with
  | none => none
  | some value => if value = "" then none else some value

def paramToNullable (value : Option String) : Option (Option String) :=
  (emptyToUndefined value).map fun normalized =>
    if toLowerCase normalized = "null" then none else some normalized

def toOptionalInteger (value : Option String) : Option ℤ :=
  (emptyToUndefined value).bind texts.toInteger

def toOptionalBoolean (value : Option String) : Option Bool :=
  (emptyToUndefined value).map fun normalized => normalized = "true"

def toDateRange (startValue endValue : Option String) : Option DateRange :=
  let start := emptyToUndefined startValue
  let stop := emptyToUndefined endValue
  if start.isNone && stop.isNone then none
  else some ⟨start.bind texts.toDate, stop.bind texts.toDate⟩

/-- The texts of enumerations are cast; none but theirs are stored. -/
def toCriteria (params : Js.Map String String) : Criteria where
  payerFsp := emptyToUndefined (params.get "payerFsp")
  payeeFsp := emptyToUndefined (params.get "payeeFsp")
  payerIdType := (emptyToUndefined (params.get "payerIdType")).bind
    (ofEnumText partyIdTypes PartyIdType.text)
  payerId := emptyToUndefined (params.get "payerId")
  payerSubId := paramToNullable (params.get "payerSubId")
  payeeIdType := (emptyToUndefined (params.get "payeeIdType")).bind
    (ofEnumText partyIdTypes PartyIdType.text)
  payeeId := emptyToUndefined (params.get "payeeId")
  payeeSubId := paramToNullable (params.get "payeeSubId")
  transferId := emptyToUndefined (params.get "transferId")
  payerHomeTransactionId := emptyToUndefined (params.get "payerHomeTransactionId")
  payeeHomeTransactionId := emptyToUndefined (params.get "payeeHomeTransactionId")
  flow := toOptionalInteger texts (params.get "flow")
  transferType := (emptyToUndefined (params.get "transferType")).bind
    (ofEnumText transactionScenarios TransactionScenario.text)
  subScenario := emptyToUndefined (params.get "subScenario")
  transactionStartAt := toDateRange texts (params.get "transactionStartAtStart")
    (params.get "transactionStartAtEnd")
  error := toOptionalBoolean (params.get "error")
  dispute := toOptionalBoolean (params.get "dispute")

def toOrder (params : Js.Map String String) : Order where
  column := ((emptyToUndefined (params.get "orderColumn")).bind
    (ofEnumText columns Column.text)).getD .transactionStartAt
  direction := ((emptyToUndefined (params.get "orderDirection")).bind
    (ofEnumText directions Direction.text)).getD .desc

def toAccessScope (params : Js.Map String String) : Option AccessScope :=
  (emptyToUndefined (params.get "accessFspId")).map fun fspId => ⟨fspId⟩

/-- What is stored of every row is found under its name, in whatever order the rows come back. -/
theorem get_foldl_of_mem (rows : List (String × String)) (m : Js.Map String String)
    (hnodup : (rows.map Prod.fst).Nodup) (name : String) :
    (rows.foldl (fun result param => result.set param.1 param.2) m).get name =
      ((rows.find? fun param => param.1 = name).map Prod.snd).or (m.get name) := by
  induction rows generalizing m with
  | nil => simp
  | cons param rows ih =>
    obtain ⟨key, value⟩ := param
    rw [List.map_cons, List.nodup_cons] at hnodup
    rw [List.foldl_cons, ih _ hnodup.2, Map.get_set, List.find?_cons]
    by_cases hname : key = name
    · subst hname
      have hfresh : rows.find? (fun param => param.1 = key) = none := by
        rw [List.find?_eq_none]
        intro param hparam hkey
        exact hnodup.1 (List.mem_map.mpr ⟨param, hparam, by simpa using hkey⟩)
      simp [hfresh]
    · simp [hname, Ne.symm hname]

theorem get_ofRows {rows params : List (String × String)} (hrows : rows.Perm params)
    (hnodup : (params.map Prod.fst).Nodup) :
    ∀ param ∈ params, (ofRows rows).get param.1 = some param.2 := by
  rintro ⟨name, value⟩ hmem
  have hnodup' : (rows.map Prod.fst).Nodup := (hrows.map Prod.fst).nodup_iff.mpr hnodup
  have hmem' : (name, value) ∈ rows := hrows.mem_iff.mpr hmem
  unfold ofRows
  rw [get_foldl_of_mem rows _ hnodup' name]
  cases hfind : rows.find? fun param => param.1 = name with
  | none =>
    rw [List.find?_eq_none] at hfind
    exact absurd (decide_eq_true rfl) (hfind _ hmem')
  | some param =>
    have hname : param.1 = name := by simpa using List.find?_some hfind
    have hparam := List.mem_of_find?_eq_some hfind
    have hsame := List.inj_on_of_nodup_map hnodup' hparam hmem' hname
    simp [hsame]

theorem emptyToUndefined_getD {value : Option String} (h : value ≠ some "") :
    emptyToUndefined (some (value.getD "")) = value := by
  cases value with
  | none => rfl
  | some text => exact if_neg fun hempty => h (congrArg some hempty)

theorem paramToNullable_nullableToParam {value : Option (Option String)}
    (h : ∀ text, value = some (some text) → text ≠ "" ∧ toLowerCase text ≠ "null") :
    paramToNullable (some (nullableToParam value)) = value := by
  match value with
  | none => rfl
  | some none => decide
  | some (some text) =>
    obtain ⟨hempty, hnull⟩ := h text rfl
    simp [paramToNullable, nullableToParam, emptyToUndefined, hempty, hnull]

theorem ofEnumText_getD {α : Type} {values : List α} {text : α → String}
    (h : EnumText values text) (value : Option α) :
    (emptyToUndefined (some ((value.map text).getD ""))).bind (ofEnumText values text) = value := by
  cases value with
  | none => rfl
  | some a => simp [emptyToUndefined, h.ne_empty a (h.complete a), h.read a]

theorem toOptionalInteger_getD {value : Option ℤ}
    (h : ∀ n, value = some n → texts.toInteger (texts.ofInteger n) = some n) :
    toOptionalInteger texts (some ((value.map texts.ofInteger).getD "")) = value := by
  cases value with
  | none => rfl
  | some n => simp [toOptionalInteger, emptyToUndefined, texts.ofInteger_ne_empty, h n rfl]

theorem toOptionalBoolean_getD (value : Option Bool) :
    toOptionalBoolean (some ((value.map toString).getD "")) = value := by
  match value with
  | none | some true | some false => decide

/-- What is stored of the end of a range tells whether there is one, and which. -/
theorem dateToParam_valid {date : Option Js.Date}
    (h : ∀ time ∈ date, -maxTime ≤ time ∧ time ≤ maxTime) :
    ∃ text, dateToParam date = some text ∧
      (emptyToUndefined (some text)).isNone = date.isNone ∧
      (emptyToUndefined (some text)).bind texts.toDate = date := by
  cases date with
  | none => exact ⟨"", rfl, rfl, rfl⟩
  | some time =>
    obtain ⟨text, hwrite, hne, hread⟩ := texts.toDate_toISOString (h time rfl)
    exact ⟨text, hwrite, by simp [emptyToUndefined, hne], by simp [emptyToUndefined, hne, hread]⟩

theorem toDateRange_dateToParam {range : Option DateRange}
    (h : ∀ dates, range = some dates →
      (dates.startInclusive ≠ none ∨ dates.endExclusive ≠ none) ∧
        (∀ date ∈ dates.startInclusive, -maxTime ≤ date ∧ date ≤ maxTime) ∧
        ∀ date ∈ dates.endExclusive, -maxTime ≤ date ∧ date ≤ maxTime) :
    ∃ start stop, dateToParam (range.bind fun dates => dates.startInclusive) = some start ∧
      dateToParam (range.bind fun dates => dates.endExclusive) = some stop ∧
      toDateRange texts (some start) (some stop) = range := by
  cases range with
  | none => exact ⟨"", "", rfl, rfl, rfl⟩
  | some dates =>
    obtain ⟨hsome, hfirst, hlast⟩ := h dates rfl
    obtain ⟨start, hstart, hstartNone, hstartRead⟩ := dateToParam_valid texts hfirst
    obtain ⟨stop, hstop, hstopNone, hstopRead⟩ := dateToParam_valid texts hlast
    refine ⟨start, stop, hstart, hstop, ?_⟩
    have hboth : (dates.startInclusive.isNone && dates.endExclusive.isNone) = false := by
      obtain h | h := hsome
      · rw [Option.isNone_eq_false_iff.mpr (Option.isSome_iff_ne_none.mpr h), Bool.false_and]
      · rw [Option.isNone_eq_false_iff.mpr (Option.isSome_iff_ne_none.mpr h), Bool.and_false]
    simp [toDateRange, hstartNone, hstopNone, hboth, hstartRead, hstopRead]

/-- An input that is storable is what its parameters are read as. -/
theorem ofRows_fromInput {input : ReportInput} (h : input.Storable texts) :
    ∃ params, fromInput texts input.criteria input.order input.accessScope = some params ∧
      ∀ rows, rows.Perm params → toCriteria texts (ofRows rows) = input.criteria ∧
        toOrder (ofRows rows) = input.order ∧
        toAccessScope (ofRows rows) = input.accessScope := by
  obtain ⟨start, stop, hstart, hstop, hrange⟩ := toDateRange_dateToParam texts h.range_valid
  simp only [fromInput, hstart, hstop, Option.bind_eq_bind, Option.bind_some, Option.pure_def]
  refine ⟨_, rfl, ?_⟩
  intro rows hrows
  have hget := get_ofRows hrows (by simp)
  have htexts := h.texts_ne
  have hsubIds := h.subIds_ne
  have hpartyIdType := ofEnumText_getD enumText_partyIdType
  simp only [List.forall_mem_cons, List.not_mem_nil, false_implies, implies_true, and_true]
    at hget htexts hsubIds
  obtain ⟨hpayerFsp, hpayeeFsp, hpayerId, hpayeeId, htransferId, hpayerHome, hpayeeHome,
    hsubScenario⟩ := htexts
  have hscope : (input.accessScope.map fun scope => scope.fspId) ≠ some "" := by
    intro hempty
    obtain ⟨scope, hscope, hne⟩ := Option.map_eq_some_iff.mp hempty
    exact h.scope_ne scope hscope hne
  refine ⟨?_, ?_, ?_⟩
  · simp only [toCriteria, hget, hrange, toOptionalBoolean_getD,
      emptyToUndefined_getD hpayerFsp, emptyToUndefined_getD hpayeeFsp,
      emptyToUndefined_getD hpayerId, emptyToUndefined_getD hpayeeId,
      emptyToUndefined_getD htransferId, emptyToUndefined_getD hpayerHome,
      emptyToUndefined_getD hpayeeHome, emptyToUndefined_getD hsubScenario,
      paramToNullable_nullableToParam hsubIds.1, paramToNullable_nullableToParam hsubIds.2,
      toOptionalInteger_getD texts h.flow_read,
      hpartyIdType, ofEnumText_getD enumText_transactionScenario]
  · have hcolumn := ofEnumText_getD enumText_column (some input.order.column)
    have hdirection := ofEnumText_getD enumText_direction (some input.order.direction)
    simp only [Option.map_some, Option.getD_some] at hcolumn hdirection
    simp only [toOrder, hget, hcolumn, hdirection, Option.getD_some]
  · simp only [toAccessScope, hget, emptyToUndefined_getD hscope, Option.map_map,
      Function.comp_def, Option.map_id']

/-- What the controller asks for is what a worker reads from the parameters that are stored, in
whatever order their rows come back. -/
theorem params_faithful {claims : Option ReportClaims} {query : ReportQuery} {input : ReportInput}
    (h : TransactionReportsAuditController.requestTransactionReport texts claims query =
      .ok input) :
    ∃ params, fromInput texts input.criteria input.order input.accessScope = some params ∧
      ∀ rows, rows.Perm params → toCriteria texts (ofRows rows) = input.criteria ∧
        toOrder (ofRows rows) = input.order ∧
        toAccessScope (ofRows rows) = input.accessScope :=
  ofRows_fromInput texts
    (TransactionReportsAuditController.storable_of_requestTransactionReport texts h)

/-- Integers that are not negative are read, and dates of ISO. -/
def sampleTexts : TextValues where
  toInteger text := (parseBigInt text).filter fun n => 0 ≤ n
  ofInteger n := toString n
  toInteger_ofInteger text n h := by
    obtain ⟨-, hn⟩ := Option.filter_eq_some_iff.mp h
    rw [parseBigInt_toString (of_decide_eq_true hn)]
    exact if_pos hn
  ofInteger_ne_empty n := by
    intro hempty
    have hread := congrArg String.toList hempty
    cases n with
    | ofNat m =>
      have hdigits : Nat.toDigits 10 m = [] := (toString_toList m).symm.trans hread
      exact (digits_spec m).2.2 hdigits
    | negSucc m =>
      have hsign : ("-" ++ Nat.repr (m + 1)).toList = [] := hread
      simp at hsign
  otherDate _ := none

def sampleReportQuery : ReportQuery where
  payerFsp := some " bank-a"
  payerIdType := some "MSISDN"
  payerSubId := some " NULL "
  payeeSubId := some "x "
  flow := some "2"
  transactionStartAtEnd := some "2026-01-01T00:00:00.000Z"
  error := some "no"
  orderDirection := some "ASC"

def sampleReportInput : ReportInput where
  criteria :=
    { payerFsp := some "bank-a", payerIdType := some .msisdn, payerSubId := some none,
      payeeSubId := some (some "x"), flow := some 2,
      transactionStartAt := some ⟨none, some 1767225600000⟩, error := some false }
  order := ⟨.transactionStartAt, .asc⟩
  accessScope := some ⟨"bank-a"⟩

theorem params_faithful_sample :
    ∃ params, fromInput sampleTexts sampleReportInput.criteria sampleReportInput.order
        sampleReportInput.accessScope = some params ∧
      toCriteria sampleTexts (ofRows params.reverse) = sampleReportInput.criteria ∧
      toAccessScope (ofRows params.reverse) = some ⟨"bank-a"⟩ := by
  have hinput : TransactionReportsAuditController.requestTransactionReport sampleTexts
      (some ⟨some "bank-a", by decide⟩) sampleReportQuery = .ok sampleReportInput := by rfl
  obtain ⟨params, hparams, hread⟩ := params_faithful sampleTexts hinput
  obtain ⟨hcriteria, -, hscope⟩ := hread params.reverse params.reverse_perm
  exact ⟨params, hparams, hcriteria, hscope⟩

end TransactionReportParams
end Audit
