import Pivotal.Async.Pool
import Pivotal.Js.Except
import Pivotal.Js.Split
import Pivotal.Outbound.Handlers
import Pivotal.Store.Windows

/-! The watch for payments that repeat. Attempts with one key are counted in one window, and the key
is the matching fields' values with a bar between each two. -/
namespace Outbound
open Fspiop Store.Windows
open Async.Program (perform lift)

namespace SuspiciousTransactionMatchField

def all : List SuspiciousTransactionMatchField :=
  [payerFspId, payerIdValue, payeeFspId, payeeIdValue, amount, currency]

def text : SuspiciousTransactionMatchField → String
  | payerFspId => "payerFspId"
  | payerIdValue => "payerIdValue"
  | payeeFspId => "payeeFspId"
  | payeeIdValue => "payeeIdValue"
  | amount => "amount"
  | currency => "currency"

end SuspiciousTransactionMatchField

namespace SuspiciousTransactionMonitor

def allowedText : String :=
  ", ".intercalate (SuspiciousTransactionMatchField.all.map fun field => field.text)

/-- One turn of the loop over the tokens of a setting. -/
def addField (fields : List SuspiciousTransactionMatchField) (token : String) :
    Except String (List SuspiciousTransactionMatchField) :=
  match SuspiciousTransactionMatchField.all.find? fun field => field.text = token with
  | none => .error ("Invalid SUSPICIOUS_TRANSACTION_MATCHING_FIELDS value '" ++ token ++
      "'. Allowed: " ++ allowedText ++ ".")
  | some field => .ok (if field ∈ fields then fields else fields ++ [field])

def parseMatchingFields (raw : String) : Except String (List SuspiciousTransactionMatchField) :=
  let tokens := ((Js.split ',' raw.toList).map fun token => String.ofList (Js.trimChars token)).filter
    fun token => token ≠ ""
  if tokens = [] then
    .error ("SUSPICIOUS_TRANSACTION_MATCHING_FIELDS must list at least one field (allowed: " ++
      allowedText ++ ").")
  else tokens.foldlM addField []

theorem addField_ok {fields fields' : List SuspiciousTransactionMatchField} {token : String}
    (h : addField fields token = .ok fields') (hfields : fields.Nodup) :
    fields'.Nodup ∧ fields' ≠ [] := by
  unfold addField at h
  split at h
  · cases h
  · split_ifs at h with hmem
    · cases h
      exact ⟨hfields, List.ne_nil_of_mem hmem⟩
    · cases h
      refine ⟨List.nodup_append.mpr ⟨hfields, by simp, ?_⟩, by simp⟩
      rintro other hother _ hlast rfl
      rw [List.mem_singleton] at hlast
      exact hmem (hlast ▸ hother)

theorem foldlM_addField_ok {tokens : List String} {fields fields' : List SuspiciousTransactionMatchField}
    (h : tokens.foldlM addField fields = .ok fields') (hfields : fields.Nodup) :
    fields'.Nodup ∧ (tokens ≠ [] ∨ fields ≠ [] → fields' ≠ []) := by
  induction tokens generalizing fields with
  | nil =>
    obtain rfl := Js.pure_ok_iff.mp h
    exact ⟨hfields, by simp⟩
  | cons token tokens ih =>
    rw [List.foldlM_cons, Js.bind_ok_iff] at h
    obtain ⟨fields'', hfirst, hrest⟩ := h
    obtain ⟨hnodup, hne⟩ := addField_ok hfirst hfields
    obtain ⟨hnodup', hne'⟩ := ih hrest hnodup
    exact ⟨hnodup', fun _ => hne' (.inr hne)⟩

/-- What a setting is read as lists some field, and none twice. -/
theorem parseMatchingFields_ok {raw : String} {fields : List SuspiciousTransactionMatchField}
    (h : parseMatchingFields raw = .ok fields) : fields.Nodup ∧ fields ≠ [] := by
  unfold parseMatchingFields at h
  simp only at h
  split_ifs at h with htokens
  obtain ⟨hnodup, hne⟩ := foldlM_addField_ok h List.nodup_nil
  exact ⟨hnodup, hne (.inl htokens)⟩

/-- What becomes of a request to the store: it is answered, or carried out with the answer lost, or
not carried out. -/
inductive Reply where
  | answered
  | lost (e : JsError)
  | unreachable (e : JsError)
  deriving DecidableEq

def Reply.reached : Reply → Bool
  | .answered | .lost _ => true
  | .unreachable _ => false

structure Attempt where
  pattern : Pattern
  time : ℤ
  reply : Reply
  deriving DecidableEq

/-- The store while an attempt is checked: nothing but the script is asked of it. -/
def Attempt.serve (attempt : Attempt) (counters : Counters String) :
    (op : OutboundOp) → OutboundAnswer op × Counters String
  | .redisIncrementScript key px =>
    let after := Counters.incrementWithTtl counters key px attempt.time
    match attempt.reply with
    | .answered => (.ok (Counter.increment px attempt.time (counters key)).count, after)
    | .lost e => (.error e, after)
    | .unreachable e => (.error e, counters)
  | .now => (attempt.time, counters)
  | .randomUUID => ("", counters)
  | .cancel _ => (.pending, counters)
  | .redisGet _ | .redisSet _ _ _ | .redisDel _ | .redisSetNx _ _ _ | .redisReleaseScript _ _
  | .publish _ | .waitFor _ _ | .quotesCallback _ | .transfersCallback _ | .postQuotes _ _ _
  | .postTransfers _ _ _ => (.error .other, counters)

variable (settings : OutboundSettings)

/-- One attempt against the counters that are there. -/
def check (counters : Counters String) (attempt : Attempt) :
    Except JsError Unit × Counters String :=
  let run := (assertNotSuspicious settings attempt.pattern).solo attempt.serve counters []
  (run.2.2, run.1)

/-- The counters that attempts leave, whosever they are and on whatever replica. -/
def countersAfter (attempts : List Attempt) : Counters String :=
  attempts.foldl (fun counters attempt => (check settings counters attempt).2) fun _ => none

def outcome (earlier : List Attempt) (attempt : Attempt) : Except JsError Unit :=
  (check settings (countersAfter settings earlier) attempt).1

/-- Whether attempts are watched at all. -/
def IsActive : Prop :=
  settings.suspiciousTxnMonitoringEnabled = true ∧ 0 < settings.suspiciousTxnWindowMs ∧
    0 < settings.suspiciousTxnThreshold

instance : Decidable (IsActive settings) := inferInstanceAs (Decidable (_ ∧ _))

def suspicious : JsError :=
  reject FspiopErrors.suspiciousTransactionPattern
    "Suspicious repetitive transaction pattern detected within the monitoring window."

/-- What becomes of an attempt that is so many in its window. -/
def verdict (count : ℕ) (reply : Reply) : Except JsError Unit :=
  match reply with
  | .lost e | .unreachable e => .error e
  | .answered => if (count : ℤ) ≤ settings.suspiciousTxnThreshold then .ok () else .error suspicious

theorem check_inactive (h : ¬ IsActive settings) (counters : Counters String) (attempt : Attempt) :
    check settings counters attempt = (.ok (), counters) := by
  have hoff : (!settings.suspiciousTxnMonitoringEnabled ||
      decide (settings.suspiciousTxnWindowMs ≤ 0) ||
      decide (settings.suspiciousTxnThreshold ≤ 0)) = true := by
    by_contra hon
    simp only [Bool.not_eq_true, Bool.or_eq_false_iff, Bool.not_eq_false', decide_eq_false_iff_not,
      not_le] at hon
    exact h ⟨hon.1.1, hon.1.2, hon.2⟩
  unfold check assertNotSuspicious
  simp only [if_pos hoff]
  rfl

theorem check_active (h : IsActive settings) (counters : Counters String) (attempt : Attempt) :
    check settings counters attempt =
      let key := buildKey attempt.pattern settings.suspiciousTxnMatchingFields
      let windowMs := settings.suspiciousTxnWindowMs
      (verdict settings (Counter.increment windowMs attempt.time (counters key)).count
          attempt.reply,
        if attempt.reply.reached then Counters.incrementWithTtl counters key windowMs attempt.time
        else counters) := by
  obtain ⟨henabled, hwindow, hthreshold⟩ := h
  have hon : (!settings.suspiciousTxnMonitoringEnabled ||
      decide (settings.suspiciousTxnWindowMs ≤ 0) ||
      decide (settings.suspiciousTxnThreshold ≤ 0)) = false := by
    simp [henabled, hwindow, hthreshold]
  unfold check assertNotSuspicious RedisClient.incrementWithTtl
  simp only [hon, if_neg (not_le.mpr hwindow), Bool.false_eq_true, if_false]
  have hjudge : ∀ (count : ℤ) (after : Counters String) trace,
      (if count ≤ settings.suspiciousTxnThreshold then pure () else throw suspicious :
        OutboundProgram Unit).solo attempt.serve after trace =
      (after, trace, if count ≤ settings.suspiciousTxnThreshold then .ok () else
        .error suspicious) := by
    intro count after trace
    split_ifs <;> rfl
  obtain ⟨pattern, time, reply⟩ := attempt
  cases reply with
  | answered =>
    exact congrArg (fun run : Counters String × _ × Except JsError Unit => (run.2.2, run.1))
      (hjudge _ _ _)
  | lost e => rfl
  | unreachable e => rfl

/-- What is compared of a payment. -/
def values (pattern : Pattern) : List (List Char) :=
  settings.suspiciousTxnMatchingFields.map fun field => (fieldValue pattern field).toList

/-- The values cut at every bar, one after the other. -/
def pieces (pattern : Pattern) : List (List Char) := (values settings pattern).flatMap (Js.split '|')

/-- Two payments have one key when their values are of the same pieces. -/
theorem buildKey_eq_iff (p q : Pattern) :
    buildKey p settings.suspiciousTxnMatchingFields =
        buildKey q settings.suspiciousTxnMatchingFields ↔ pieces settings p = pieces settings q := by
  have hkey : buildKey p settings.suspiciousTxnMatchingFields =
        buildKey q settings.suspiciousTxnMatchingFields ↔
      Js.join '|' (values settings p) = Js.join '|' (values settings q) := by
    unfold buildKey
    rw [← String.toList_inj, String.toList_append, String.toList_append, List.append_cancel_left_eq,
      String.toList_ofList, String.toList_ofList]
    rfl
  have hsplit : ∀ cs ds, Js.join '|' cs = Js.join '|' ds ↔
      Js.split '|' (Js.join '|' cs) = Js.split '|' (Js.join '|' ds) := by
    intro cs ds
    refine ⟨congrArg _, fun h => ?_⟩
    have hjoin := congrArg (Js.join '|') h
    rwa [Js.join_split, Js.join_split] at hjoin
  rw [hkey]
  by_cases hfields : settings.suspiciousTxnMatchingFields = []
  · simp [values, pieces, hfields]
  · have hne : ∀ pattern, values settings pattern ≠ [] := fun pattern => by
      simpa [values] using hfields
    rw [hsplit, Js.split_join '|' (hne p), Js.split_join '|' (hne q)]
    rfl

/-- The earlier attempts with exactly the values of an attempt, as far as they are counted. -/
def equalAttempts (attempt : Attempt) (earlier : List Attempt) : List (ℤ × Reply) :=
  (earlier.filter fun other =>
    values settings other.pattern = values settings attempt.pattern).map
      fun other => (other.time, other.reply)

/-- What is due to an attempt: it is counted with those equal attempts that are in its window. -/
def expected (earlier : List Attempt) (attempt : Attempt) : Except JsError Unit :=
  if IsActive settings then
    let times := ((equalAttempts settings attempt earlier).filter fun other =>
      other.2.reached).map Prod.fst
    verdict settings (windowOf settings.suspiciousTxnWindowMs (times ++ [attempt.time])).length
      attempt.reply
  else .ok ()

/-- What the attempts that reach the store leave there. -/
theorem countersAfter_eq (h : IsActive settings) (attempts : List Attempt) :
    countersAfter settings attempts =
      ((attempts.filter fun attempt => attempt.reply.reached).map fun attempt =>
        (buildKey attempt.pattern settings.suspiciousTxnMatchingFields, attempt.time)).foldl
        (fun counters hit =>
          Counters.incrementWithTtl counters hit.1 settings.suspiciousTxnWindowMs hit.2)
        fun _ => none := by
  unfold countersAfter
  generalize (fun _ => none : Counters String) = counters
  induction attempts generalizing counters with
  | nil => rfl
  | cons attempt attempts ih =>
    rw [List.foldl_cons, ih, check_active settings h]
    cases hreached : attempt.reply.reached <;> simp [hreached]

theorem countersAfter_apply (h : IsActive settings) (attempts : List Attempt) (key : String) :
    countersAfter settings attempts key = counterOf settings.suspiciousTxnWindowMs
      ((attempts.filter fun attempt => attempt.reply.reached ∧
        buildKey attempt.pattern settings.suspiciousTxnMatchingFields = key).map
          fun attempt => attempt.time) := by
  rw [countersAfter_eq settings h, foldl_incrementWithTtl, List.filter_map, List.map_map,
    List.filter_filter]
  refine congrArg (fun attempts => counterOf _ (List.map _ attempts)) ?_
  refine List.filter_congr fun attempt _ => ?_
  simp [and_comm]

/-- What an attempt meets is what the attempts under its key are worth. -/
theorem outcome_active (h : IsActive settings) (earlier : List Attempt) (attempt : Attempt) :
    outcome settings earlier attempt =
      verdict settings (windowOf settings.suspiciousTxnWindowMs
        ((earlier.filter fun other => other.reply.reached ∧
          buildKey other.pattern settings.suspiciousTxnMatchingFields =
            buildKey attempt.pattern settings.suspiciousTxnMatchingFields).map
          (fun other => other.time) ++ [attempt.time])).length attempt.reply := by
  rw [outcome, check_active settings h]
  simp only
  rw [countersAfter_apply settings h, count_increment_counterOf]

/-- Among attempts whose pieces tell their values an attempt meets what is due to it. -/
theorem outcome_eq_expected {Allowed : Pattern → Prop}
    (hseparate : IsActive settings → ∀ p q, Allowed p → Allowed q →
      pieces settings p = pieces settings q → values settings p = values settings q)
    {earlier : List Attempt} {attempt : Attempt} (hearlier : ∀ other ∈ earlier, Allowed other.pattern)
    (hattempt : Allowed attempt.pattern) :
    outcome settings earlier attempt = expected settings earlier attempt := by
  by_cases hactive : IsActive settings
  · rw [outcome_active settings hactive, expected, if_pos hactive]
    have hfilter : (earlier.filter fun other => other.reply.reached ∧
          buildKey other.pattern settings.suspiciousTxnMatchingFields =
            buildKey attempt.pattern settings.suspiciousTxnMatchingFields).map
          (fun other => other.time) =
        ((equalAttempts settings attempt earlier).filter fun other =>
          other.2.reached).map Prod.fst := by
      rw [equalAttempts, List.filter_map, List.map_map, List.filter_filter]
      refine congrArg _ (List.filter_congr fun other hother => ?_)
      have hsame : pieces settings other.pattern = pieces settings attempt.pattern ↔
          values settings other.pattern = values settings attempt.pattern :=
        ⟨hseparate hactive _ _ (hearlier other hother) hattempt, fun hvalues => by
          rw [pieces, pieces, hvalues]⟩
      simp [buildKey_eq_iff, hsame]
    rw [hfilter]
  · rw [outcome, check_inactive settings hactive, expected, if_neg hactive]

/-- An attempt meets what its equals among the earlier attempts make of it, whatever else there was,
exactly when no two of the payments that occur are told apart by their values and not by the pieces
of them. -/
theorem sees_only_equal_iff (Allowed : Pattern → Prop) :
    (∀ (earlier earlier' : List Attempt) (attempt : Attempt),
      (∀ other ∈ earlier, Allowed other.pattern) → (∀ other ∈ earlier', Allowed other.pattern) →
      Allowed attempt.pattern →
      equalAttempts settings attempt earlier = equalAttempts settings attempt earlier' →
      outcome settings earlier attempt = outcome settings earlier' attempt) ↔
    (IsActive settings → ∀ p q, Allowed p → Allowed q →
      pieces settings p = pieces settings q → values settings p = values settings q) := by
  constructor
  · intro h hactive p q hp hq hpieces
    by_contra hvalues
    -- As many attempts of the one payment as are let through, and then one of the other.
    let n := settings.suspiciousTxnThreshold.toNat
    let earlier := List.replicate n (⟨q, 0, .answered⟩ : Attempt)
    have hwindow : 0 ≤ settings.suspiciousTxnWindowMs := hactive.2.1.le
    have hn : (n : ℤ) = settings.suspiciousTxnThreshold := Int.toNat_of_nonneg hactive.2.2.le
    have hequal : equalAttempts settings ⟨p, 0, .answered⟩ earlier =
        equalAttempts settings ⟨p, 0, .answered⟩ [] := by
      simp [equalAttempts, earlier, Ne.symm hvalues]
    have hsame := h earlier [] ⟨p, 0, .answered⟩
      (fun other hother => List.eq_of_mem_replicate hother ▸ hq) (by simp) hp hequal
    have hkey := (buildKey_eq_iff settings p q).mpr hpieces
    have hearlier : (earlier.filter fun other => other.reply.reached ∧
        buildKey other.pattern settings.suspiciousTxnMatchingFields =
          buildKey p settings.suspiciousTxnMatchingFields) = earlier :=
      List.filter_eq_self.mpr fun other hother => by
        rw [List.eq_of_mem_replicate hother]
        simp [Reply.reached, hkey]
    rw [outcome_active settings hactive, outcome_active settings hactive] at hsame
    simp only [hearlier, earlier, List.map_replicate, ← List.replicate_succ',
      windowOf_replicate hwindow, List.length_replicate, List.filter_nil, List.map_nil,
      List.nil_append] at hsame
    have hlate : ¬ ((n + 1 : ℕ) : ℤ) ≤ settings.suspiciousTxnThreshold := by omega
    have hfirst : (([0] : List ℤ).length : ℤ) ≤ settings.suspiciousTxnThreshold := hactive.2.2
    have hone : windowOf settings.suspiciousTxnWindowMs [0] = [0] := rfl
    simp only [hone, verdict, if_neg hlate, if_pos hfirst] at hsame
    cases hsame
  · intro hseparate earlier earlier' attempt hearlier hearlier' hattempt hequal
    rw [outcome_eq_expected settings hseparate hearlier hattempt,
      outcome_eq_expected settings hseparate hearlier' hattempt, expected, expected, hequal]

def sampleWatch : OutboundSettings where
  redisCacheItemTimeoutMs := 60000
  quotesUrl := "https://hub/quotes"
  transfersUrl := "https://hub/transfers"
  amountDecimalPlaces := 2
  checkPayerFeeAsMandatory := false
  suspiciousTxnMonitoringEnabled := true
  suspiciousTxnWindowMinutes := 1
  suspiciousTxnThreshold := 1
  suspiciousTxnMatchingFields := [.payerFspId, .payerIdValue, .payeeFspId, .payeeIdValue, .amount]

def firstPayment : Pattern := ⟨"a", "1|b|2", "b", "3", "USD", "10"⟩

def otherPayment : Pattern := ⟨"a", "1", "b", "2|b|3", "USD", "10"⟩

/-- A payment of one payer to one payee keeps another payer from paying another payee. -/
theorem outcome_otherPayment :
    values sampleWatch otherPayment ≠ values sampleWatch firstPayment ∧
    equalAttempts sampleWatch ⟨otherPayment, 1, .answered⟩ [⟨firstPayment, 0, .answered⟩] =
      equalAttempts sampleWatch ⟨otherPayment, 1, .answered⟩ [] ∧
    outcome sampleWatch [] ⟨otherPayment, 1, .answered⟩ = .ok () ∧
    outcome sampleWatch [⟨firstPayment, 0, .answered⟩] ⟨otherPayment, 1, .answered⟩ =
      .error suspicious := by
  refine ⟨by decide, by decide, by rfl, by rfl⟩

end SuspiciousTransactionMonitor
end Outbound
