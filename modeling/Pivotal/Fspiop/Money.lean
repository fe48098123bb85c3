import Mathlib.Algebra.Order.Ring.Int
import Pivotal.Fspiop.Errors

/-! Decimal amounts: the currency table, normalisation and the conversion between
decimal texts and integers in minor units. -/
namespace Fspiop

/-- Currencies arrive as unchecked JSON text; the codes of the enumeration are those
of the table. -/
abbrev Currency := String

structure Money where
  currency : Currency
  amount : String
  deriving DecidableEq

structure FspiopCurrencyProfile where
  currency : Currency
  scale : ℕ
  deriving DecidableEq

namespace FspiopCurrencies

/-- Code and number of decimal places of every currency. -/
def currencies : List (Currency × ℕ) :=
  [("AED", 2), ("AFN", 2), ("ALL", 2), ("AMD", 2), ("ANG", 2), ("AOA", 2), ("ARS", 2),
   ("AUD", 2), ("AWG", 2), ("AZN", 2), ("BAM", 2), ("BBD", 2), ("BDT", 2), ("BGN", 2),
   ("BHD", 3), ("BIF", 0), ("BMD", 2), ("BND", 2), ("BOB", 2), ("BRL", 2), ("BSD", 2),
   ("BTN", 2), ("BWP", 2), ("BYN", 4), ("BZD", 2), ("CAD", 2), ("CDF", 2), ("CHF", 2),
   ("CLP", 0), ("CNY", 2), ("COP", 2), ("CRC", 2), ("CUC", 2), ("CUP", 2), ("CVE", 2),
   ("CZK", 2), ("DJF", 0), ("DKK", 2), ("DOP", 2), ("DZD", 2), ("EGP", 2), ("ERN", 2),
   ("ETB", 2), ("EUR", 2), ("FJD", 2), ("FKP", 2), ("GBP", 2), ("GEL", 2), ("GGP", 4),
   ("GHS", 2), ("GIP", 2), ("GMD", 2), ("GNF", 0), ("GTQ", 2), ("GYD", 2), ("HKD", 2),
   ("HNL", 2), ("HRK", 2), ("HTG", 2), ("HUF", 2), ("IDR", 2), ("ILS", 2), ("IMP", 4),
   ("INR", 2), ("IQD", 3), ("IRR", 2), ("ISK", 0), ("JEP", 4), ("JMD", 2), ("JOD", 3),
   ("JPY", 0), ("KES", 2), ("KGS", 2), ("KHR", 2), ("KMF", 0), ("KPW", 2), ("KRW", 0),
   ("KWD", 3), ("KYD", 2), ("KZT", 2), ("LAK", 2), ("LBP", 2), ("LKR", 2), ("LRD", 2),
   ("LSL", 2), ("LYD", 3), ("MAD", 2), ("MDL", 2), ("MGA", 2), ("MKD", 2), ("MMK", 2),
   ("MNT", 2), ("MOP", 2), ("MRO", 2), ("MUR", 2), ("MVR", 2), ("MWK", 2), ("MXN", 2),
   ("MYR", 2), ("MZN", 2), ("NAD", 2), ("NGN", 2), ("NIO", 2), ("NOK", 2), ("NPR", 2),
   ("NZD", 2), ("OMR", 3), ("PAB", 2), ("PEN", 2), ("PGK", 2), ("PHP", 2), ("PKR", 2),
   ("PLN", 2), ("PYG", 0), ("QAR", 2), ("RON", 2), ("RSD", 2), ("RUB", 2), ("RWF", 0),
   ("SAR", 2), ("SBD", 2), ("SCR", 2), ("SDG", 2), ("SEK", 2), ("SGD", 2), ("SHP", 2),
   ("SLL", 2), ("SOS", 2), ("SPL", 4), ("SRD", 2), ("STD", 2), ("SVC", 2), ("SYP", 2),
   ("SZL", 2), ("THB", 2), ("TJS", 2), ("TMT", 2), ("TND", 3), ("TOP", 2), ("TRY", 2),
   ("TTD", 2), ("TVD", 4), ("TWD", 2), ("TZS", 2), ("UAH", 2), ("UGX", 0), ("USD", 2),
   ("UYU", 2), ("UZS", 2), ("VEF", 2), ("VND", 0), ("VUV", 0), ("WST", 2), ("XAF", 0),
   ("XCD", 2), ("XDR", 4), ("XOF", 0), ("XPF", 0), ("XTS", 4), ("XXX", 4), ("YER", 2),
   ("ZAR", 2), ("ZMW", 2), ("ZWD", 4)]

def get (currency : Currency) : Option FspiopCurrencyProfile :=
  (currencies.lookup currency).map fun scale => ⟨currency, scale⟩

end FspiopCurrencies

inductive FspiopRoundingMode where
  | up | down | ceiling | floor | halfUp | halfDown | halfEven | unnecessary
  deriving DecidableEq

namespace FspiopMoney
open Js

def uint64Max : ℤ := 18446744073709551615

/-- The parts of a text that matches `^([+-])?(\d+)(?:\.(\d+))?$`. -/
structure Decimal where
  sign : Option Char
  integerPart : List Char
  fractionPart : List Char
  deriving DecidableEq

def matchSign : List Char → Option Char × List Char
  | '+' :: cs => (some '+', cs)
  | '-' :: cs => (some '-', cs)
  | cs => (none, cs)

/-- The fraction of a decimal text, given what follows its integer digits. -/
def matchFraction : List Char → Option (List Char)
  | [] => some []
  | '.' :: cs => if cs ≠ [] ∧ cs.all isDigit = true then some cs else none
  | _ => none

def matchDecimal (text : List Char) : Option Decimal :=
  let (sign, rest) := matchSign text
  let integerPart := rest.takeWhile isDigit
  if integerPart = [] then none
  else (matchFraction (rest.dropWhile isDigit)).map fun fraction => ⟨sign, integerPart, fraction⟩

def dropTrailingZeros (cs : List Char) : List Char := cs.rdropWhile (· = '0')

/-- A decimal written without the trailing zeros of its fraction. -/
def Decimal.render (d : Decimal) : List Char :=
  let fraction := dropTrailingZeros d.fractionPart
  d.sign.toList ++ d.integerPart ++ (if fraction = [] then [] else '.' :: fraction)

def normalizeChars (amount : List Char) : List Char :=
  match matchDecimal (trimChars amount) with
  | none => trimChars amount
  | some d => d.render

def normalizeAmount (amount : String) : String := String.ofList (normalizeChars amount.toList)

/-- The number of characters after the first point. -/
def scaleOf (amount : List Char) : ℕ :=
  match amount.dropWhile (· ≠ '.') with
  | [] => 0
  | _ :: fraction => fraction.length

/-- `parseDecimalAmount`: the sign as a factor and the two digit runs. -/
def parseDecimalAmount (amount : List Char) : Except JsError (ℤ × List Char × List Char) :=
  match matchDecimal amount with
  | none => .error (.ofMessage "Amount must be a valid decimal number.")
  | some d => .ok (if d.sign = some '-' then -1 else 1, d.integerPart, d.fractionPart)

def hasNonZero (cs : List Char) : Bool := cs.any fun c => '1' ≤ c && c ≤ '9'

def shouldRoundUp (sign : ℤ) (keptFraction discardedFraction : List Char)
    (roundingMode : FspiopRoundingMode) : Except JsError Bool :=
  if !hasNonZero discardedFraction then .ok false
  else
    let firstDiscardedDigit := (discardedFraction.head?.map digitValue).getD 0
    let hasNonZeroTail := hasNonZero discardedFraction.tail
    match roundingMode with
    | .unnecessary => .error (.ofMessage "Rounding is necessary for the submitted amount.")
    | .up => .ok true
    | .down => .ok false
    | .ceiling => .ok (0 < sign)
    | .floor => .ok (sign < 0)
    | .halfUp => .ok (5 ≤ firstDiscardedDigit)
    | .halfDown => .ok (5 < firstDiscardedDigit || (firstDiscardedDigit = 5 && hasNonZeroTail))
    | .halfEven =>
      let lastKeptDigit := (keptFraction.getLast?.map digitValue).getD 0
      .ok (5 < firstDiscardedDigit ||
        (firstDiscardedDigit = 5 && (hasNonZeroTail || lastKeptDigit % 2 ≠ 0)))

def scaleAmount (sign : ℤ) (integerPart fractionPart : List Char) (scale : ℕ)
    (roundingMode : FspiopRoundingMode) : Except JsError ℤ := do
  let keptFraction := (padEnd scale fractionPart).take scale
  let discardedFraction := fractionPart.drop scale
  let scaled : ℤ := digitsValue integerPart * 10 ^ scale + digitsValue keptFraction
  if discardedFraction = [] then
    return scaled * sign
  let roundUp ← shouldRoundUp sign keptFraction discardedFraction roundingMode
  return (if roundUp then scaled + 1 else scaled) * sign

/-- The scale of a profile is a natural number, so `validateScale` never throws. -/
def serialize (amount : String) (scale : ℕ)
    (roundingMode : FspiopRoundingMode := .halfUp) : Except JsError ℤ := do
  let (sign, integerPart, fractionPart) ←
    parseDecimalAmount (normalizeChars (trimChars amount.toList))
  let scaledAmount ← scaleAmount sign integerPart fractionPart scale roundingMode
  if scaledAmount < 0 then
    throw (.ofMessage "Amount must be greater than or equal to zero.")
  if uint64Max < scaledAmount then
    throw (.ofMessage "Amount is greater than uint64 max.")
  return scaledAmount

def deserialize (amount : ℤ) (scale : ℕ) : Except JsError String :=
  if amount < 0 then
    .error (.ofMessage "Amount must be greater than or equal to zero.")
  else
    let serializedAmount := amount.toNat.repr.toList
    if scale = 0 then .ok (String.ofList serializedAmount)
    else if serializedAmount.length ≤ scale then
      .ok (normalizeAmount (String.ofList ('0' :: '.' :: padStart scale serializedAmount)))
    else
      let major := serializedAmount.take (serializedAmount.length - scale)
      let minor := serializedAmount.drop (serializedAmount.length - scale)
      .ok (normalizeAmount (String.ofList (major ++ '.' :: minor)))

/-- `validate` rewrites the amount of its argument; here it returns the new object. -/
def validate (money : Money) : Except JsError Money := do
  let money := { money with amount := normalizeAmount money.amount }
  match FspiopCurrencies.get money.currency with
  | none =>
    throw (.ofMessage ("Currency profile not found for currency: " ++ money.currency))
  | some currencyProfile =>
    if currencyProfile.scale < scaleOf money.amount.toList then
      throw (reject FspiopErrors.genericValidationError
        ("Currency scale does not match. " ++ money.currency ++ " supports only " ++
          toString currencyProfile.scale ++ " decimal places."))
    return money

/-- `AMOUNT_PATTERN`: at most 18 integer digits without a leading zero, and at most
four decimals of which the last is not zero. -/
def amountPattern (amount : List Char) : Bool :=
  let integerPart := amount.takeWhile isDigit
  let integerOk := integerPart = ['0'] ||
    (integerPart.head?.any (· ≠ '0') && integerPart.length ≤ 18)
  integerOk && match amount.dropWhile isDigit with
    | [] => true
    | c :: fraction => c = '.' && fraction.all isDigit && fraction.length ≤ 4 &&
      fraction.getLast?.any (· ≠ '0')

/-- The form that a match gives a decimal. -/
structure Decimal.WellFormed (d : Decimal) : Prop where
  sign : ∀ c ∈ d.sign, c = '+' ∨ c = '-'
  integerPart : d.integerPart.all isDigit = true
  nonempty : d.integerPart ≠ []
  fractionPart : d.fractionPart.all isDigit = true

theorem matchSign_spec (cs : List Char) : ∀ c ∈ (matchSign cs).1, c = '+' ∨ c = '-' := by
  unfold matchSign
  split <;> simp

theorem matchFraction_digits {cs fraction : List Char} (h : matchFraction cs = some fraction) :
    fraction.all isDigit = true := by
  unfold matchFraction at h
  split at h
  · obtain rfl := Option.some.inj h
    rfl
  · split at h
    · rename_i hdigits
      obtain rfl := Option.some.inj h
      exact hdigits.2
    · exact absurd h (by simp)
  · exact absurd h (by simp)

theorem matchDecimal_wellFormed {text : List Char} {d : Decimal} (h : matchDecimal text = some d) :
    d.WellFormed := by
  unfold matchDecimal at h
  dsimp only at h
  split at h
  · exact absurd h (by simp)
  · rename_i hnonempty
    obtain ⟨fraction, hfraction, rfl⟩ := Option.map_eq_some_iff.mp h
    exact ⟨matchSign_spec text, List.all_takeWhile, hnonempty, matchFraction_digits hfraction⟩

theorem matchSign_toList {sign : Option Char} {cs : List Char}
    (hsign : ∀ c ∈ sign, c = '+' ∨ c = '-') (hcs : ∀ c ∈ cs.head?, isDigit c = true) :
    matchSign (sign.toList ++ cs) = (sign, cs) := by
  cases sign with
  | none =>
    cases cs with
    | nil => rfl
    | cons c cs =>
      have hdigit := hcs c rfl
      unfold matchSign
      split
      · rename_i h
        obtain ⟨rfl, -⟩ := List.cons.inj h
        exact absurd hdigit (by decide)
      · rename_i h
        obtain ⟨rfl, -⟩ := List.cons.inj h
        exact absurd hdigit (by decide)
      · rfl
  | some c =>
    rcases hsign c rfl with rfl | rfl
    · rfl
    · rfl

theorem dropTrailingZeros_digits {cs : List Char} (h : cs.all isDigit = true) :
    (dropTrailingZeros cs).all isDigit = true :=
  List.all_eq_true.mpr fun c hc =>
    List.all_eq_true.mp h c ((List.rdropWhile_prefix _ _).subset hc)

theorem dropTrailingZeros_idem (cs : List Char) :
    dropTrailingZeros (dropTrailingZeros cs) = dropTrailingZeros cs :=
  List.rdropWhile_idempotent _ _

/-- A written decimal is matched again, without its trailing zeros. -/
theorem matchDecimal_render {d : Decimal} (h : d.WellFormed) :
    matchDecimal d.render = some { d with fractionPart := dropTrailingZeros d.fractionPart } := by
  have htail := dropTrailingZeros_digits h.fractionPart
  obtain ⟨c, cs, hint⟩ := List.exists_cons_of_ne_nil h.nonempty
  have hhead : isDigit c = true := by
    have hall := h.integerPart
    rw [hint, List.all_cons, Bool.and_eq_true] at hall
    exact hall.1
  unfold Decimal.render matchDecimal
  dsimp only
  rw [List.append_assoc, matchSign_toList h.sign (by simp [hint, hhead])]
  dsimp only
  by_cases hfraction : dropTrailingZeros d.fractionPart = []
  · have hdigits := @takeDigits_of_stop _ [] h.integerPart (by simp)
    rw [if_pos hfraction, hdigits.1, hdigits.2, if_neg h.nonempty, hfraction]
    rfl
  · have hdigits := @takeDigits_of_stop _ ('.' :: dropTrailingZeros d.fractionPart)
      h.integerPart (by simp; decide)
    rw [if_neg hfraction, hdigits.1, hdigits.2, if_neg h.nonempty]
    simp [matchFraction, hfraction, htail]

theorem render_solid {d : Decimal} (h : d.WellFormed) : ∀ c ∈ d.render, isWhiteSpace c = false := by
  intro c hc
  have hdigits : ∀ {cs : List Char}, cs.all isDigit = true → c ∈ cs → isWhiteSpace c = false :=
    fun hall hmem => isWhiteSpace_digit (List.all_eq_true.mp hall c hmem)
  unfold Decimal.render at hc
  dsimp only at hc
  rcases List.mem_append.mp hc with hc | hc
  · rcases List.mem_append.mp hc with hc | hc
    · rcases h.sign c (Option.mem_toList.mp hc) with rfl | rfl
      · rfl
      · rfl
    · exact hdigits h.integerPart hc
  · split at hc
    · exact absurd hc (by simp)
    · rcases List.mem_cons.mp hc with rfl | hc
      · rfl
      · exact hdigits (dropTrailingZeros_digits h.fractionPart) hc

theorem normalizeChars_idem (amount : List Char) :
    normalizeChars (normalizeChars amount) = normalizeChars amount := by
  cases h : matchDecimal (trimChars amount) with
  | none =>
    have hnormal : normalizeChars amount = trimChars amount := by simp [normalizeChars, h]
    rw [hnormal]
    simp [normalizeChars, h]
  | some d =>
    have hform := matchDecimal_wellFormed h
    have hnormal : normalizeChars amount = d.render := by simp [normalizeChars, h]
    have htrim := trimChars_of_solid (render_solid hform)
    rw [hnormal]
    unfold normalizeChars
    rw [htrim, matchDecimal_render hform]
    simp [Decimal.render, dropTrailingZeros_idem]

theorem normalizeAmount_idem (amount : String) :
    normalizeAmount (normalizeAmount amount) = normalizeAmount amount := by
  simp [normalizeAmount, normalizeChars_idem]

/-- What `validate` leaves passes it again, unchanged. -/
theorem validate_idem {money validated : Money} (h : validate money = .ok validated) :
    validate validated = .ok validated := by
  have hamount : normalizeAmount validated.amount = validated.amount ∧
      ∃ profile, FspiopCurrencies.get validated.currency = some profile ∧
        ¬ profile.scale < scaleOf validated.amount.toList := by
    unfold validate at h
    dsimp only at h
    split at h
    · exact absurd h (by simp [throw, throwThe, MonadExceptOf.throw])
    · rename_i profile hprofile
      split at h
      · exact absurd h (by simp [throw, throwThe, MonadExceptOf.throw, bind, Except.bind])
      · rename_i hscale
        simp only [pure, Except.pure, Except.ok.injEq] at h
        subst h
        exact ⟨normalizeAmount_idem _, profile, hprofile, hscale⟩
  obtain ⟨hnormal, profile, hprofile, hscale⟩ := hamount
  unfold validate
  simp [hnormal, hprofile, hscale, pure, Except.pure]

theorem serialize_nonneg {amount : String} {scale : ℕ} {roundingMode : FspiopRoundingMode} {n : ℤ}
    (h : serialize amount scale roundingMode = .ok n) : 0 ≤ n := by
  simp only [serialize, bind_ok_iff, unless_ok_iff, pure_ok_iff] at h
  obtain ⟨_, -, scaled, -, hnonneg, -, rfl⟩ := h
  omega

theorem validate_currency {money validated : Money} (h : validate money = .ok validated) :
    validated.currency = money.currency := by
  unfold validate at h
  dsimp only at h
  split at h
  · exact absurd h (by simp [throw, throwThe, MonadExceptOf.throw])
  · rw [unless_ok_iff, pure_ok_iff] at h
    rw [← h.2]

end FspiopMoney
end Fspiop
