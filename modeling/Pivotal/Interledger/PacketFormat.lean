import Mathlib.Data.List.Nodup
import Pivotal.Interledger.Interledger

/-! The format of a packet: its timestamp has 17 digits, and the bytes around it do not depend
on it. A platform that writes one packet in this format, at any date. -/
namespace Interledger
open Js
open Fspiop (JsError)

/-- `YYYYMMDDHHmmssSSS` -/
def timestampChars (date : Date) : List Char :=
  let civil := civilOfDays (date / 86400000)
  let time := (date % 86400000).toNat
  fixedDigits 4 civil.year.toNat ++ fixedDigits 2 civil.month.toNat ++
    fixedDigits 2 civil.day.toNat ++ fixedDigits 2 (time / 3600000) ++
    fixedDigits 2 (time / 60000 % 60) ++ fixedDigits 2 (time / 1000 % 60) ++
    fixedDigits 3 (time % 1000)

def parseTimestamp (cs : List Char) : Option Date := do
  let (year, cs) ← takeDigits 4 cs
  let (month, cs) ← takeDigits 2 cs
  let (day, cs) ← takeDigits 2 cs
  let (hour, cs) ← takeDigits 2 cs
  let (minute, cs) ← takeDigits 2 cs
  let (second, cs) ← takeDigits 2 cs
  let (millisecond, _) ← takeDigits 3 cs
  let days := (CivilDate.mk year month day).days
  some (days * 86400000 + hour * 3600000 + minute * 60000 + second * 1000 + millisecond)

def ofAscii (cs : List Char) : Buffer := cs.map fun c => UInt8.ofNat c.toNat

def toAscii (data : Buffer) : List Char := data.map fun b => Char.ofNat b.toNat

/-- The years of the dates that a packet can carry. -/
theorem civilOfDays_year_bounds {days : ℤ} (hfirst : 0 ≤ days) (hlast : days ≤ 2932896) :
    0 ≤ (civilOfDays days).year ∧ (civilOfDays days).year < 10000 := by
  have h₀ : 0 ≤ (days + 719468) % 146097 := Int.emod_nonneg _ (by decide)
  have h₁ : (days + 719468) % 146097 < 146097 := Int.emod_lt_of_pos _ (by decide)
  have hyear := yearOfEra_bounds h₀ h₁
  have hday := (yearOfGroup_bounds h₀ h₁).2.2
  have heq := dayOfEra_eq h₀ h₁
  unfold civilOfDays
  dsimp only
  split
  · omega
  · omega

theorem parseTimestamp_timestampChars {date : ℤ} (hfirst : 0 ≤ date)
    (hlast : date ≤ lastPacketTime) (rest : List Char) :
    parseTimestamp (timestampChars date ++ rest) = some date := by
  have hdays : 0 ≤ date / 86400000 ∧ date / 86400000 ≤ 2932896 := by
    unfold lastPacketTime at hlast
    omega
  have hyears := civilOfDays_year_bounds hdays.1 hdays.2
  have hcivil := civilOfDays_bounds (date / 86400000)
  have hback := days_civilOfDays (date / 86400000)
  unfold parseTimestamp timestampChars
  generalize civilOfDays (date / 86400000) = civil at *
  have hyear := takeDigits_fixedDigits (n := civil.year.toNat) (show _ < 10 ^ 4 by omega)
  have hmonth := takeDigits_fixedDigits (n := civil.month.toNat) (show _ < 10 ^ 2 by omega)
  have hday := takeDigits_fixedDigits (n := civil.day.toNat) (show _ < 10 ^ 2 by omega)
  have hcanonical : CivilDate.mk civil.year.toNat civil.month.toNat civil.day.toNat = civil := by
    rw [Int.toNat_of_nonneg hyears.1, Int.toNat_of_nonneg (by omega),
      Int.toNat_of_nonneg (by omega)]
  generalize htime : (date % 86400000).toNat = time
  have hhour := takeDigits_fixedDigits (n := time / 3600000) (show _ < 10 ^ 2 by omega)
  have hminute := takeDigits_fixedDigits (n := time / 60000 % 60) (show _ < 10 ^ 2 by omega)
  have hsecond := takeDigits_fixedDigits (n := time / 1000 % 60) (show _ < 10 ^ 2 by omega)
  have hmillisecond := takeDigits_fixedDigits (n := time % 1000) (show _ < 10 ^ 3 by omega)
  have hsum : date / 86400000 * 86400000 + ((time / 3600000 : ℕ) : ℤ) * 3600000 +
      ((time / 60000 % 60 : ℕ) : ℤ) * 60000 + ((time / 1000 % 60 : ℕ) : ℤ) * 1000 +
      ((time % 1000 : ℕ) : ℤ) = date := by
    omega
  simp only [List.append_assoc, hyear, hmonth, hday, hhour, hminute, hsecond, hmillisecond,
    Option.bind_eq_bind, Option.bind_some, hcanonical, hback]
  exact congrArg some hsum

theorem toAscii_ofAscii {cs : List Char} (h : cs.all isDigit = true) :
    toAscii (ofAscii cs) = cs := by
  unfold toAscii ofAscii
  rw [List.map_map]
  refine (List.map_congr_left fun c hc => ?_).trans (List.map_id cs)
  have hbounds := isDigit_bounds (List.all_eq_true.mp h c hc)
  simp only [Function.comp_apply, UInt8.toNat_ofNat', id_eq]
  rw [Nat.mod_eq_of_lt (by omega), Char.ofNat_toNat]

@[simp] theorem length_timestampChars (date : Date) : (timestampChars date).length = 17 := by
  simp [timestampChars]

theorem isDigit_timestampChars (date : Date) : (timestampChars date).all isDigit = true := by
  simp [timestampChars, isDigit_fixedDigits]

/-- All of a packet but its date, with the bytes before and after the timestamp. -/
structure PacketFormat where
  amount : String
  executionCondition : Buffer
  destination : String
  data : Buffer
  header : Buffer
  trailer : Buffer
  typed : header.head? = some 12

/-- The digests of some inputs. -/
structure Digests where
  entries : List (Buffer × Buffer)
  length_eq : ∀ e ∈ entries, e.2.length = 32
  nodup : (entries.map Prod.snd).Nodup

/-- Other inputs are given digests that are longer. -/
def Digests.sha256 (digests : Digests) (data : Buffer) : Buffer :=
  (digests.entries.lookup data).getD (List.replicate 33 0 ++ data)

namespace PacketFormat

variable (format : PacketFormat)

def packet (date : Date) : IlpPrepare :=
  ⟨format.amount, format.executionCondition, some date, format.destination, format.data⟩

def bytes (date : Date) : Buffer :=
  format.header ++ ofAscii (timestampChars date) ++ format.trailer

def serialize (packet : IlpPrepare) : Except JsError Buffer :=
  match packet.expiresAt with
  | some date =>
    if packet = format.packet date ∧ 0 ≤ date ∧ date ≤ lastPacketTime then .ok (format.bytes date)
    else .error (.ofMessage "Packet is not supported.")
  | none => .error (.ofMessage "Packet is not supported.")

def deserialize (buffer : Buffer) : Except JsError IlpPrepare :=
  match parseTimestamp (toAscii ((buffer.drop format.header.length).take 17)) with
  | some date =>
    if format.bytes date = buffer then .ok (format.packet date)
    else .error (.ofMessage "Packet is not supported.")
  | none => .error (.ofMessage "Packet is not supported.")

def platform (digests : Digests) : Platform where
  sha256 := digests.sha256
  serializeIlpPrepare := format.serialize
  deserializeIlpPrepare := format.deserialize
  otherDate := fun _ => none

variable {format}

theorem serialize_ok {packet : IlpPrepare} {buffer : Buffer} :
    format.serialize packet = .ok buffer ↔ ∃ date, packet = format.packet date ∧ 0 ≤ date ∧
      date ≤ lastPacketTime ∧ buffer = format.bytes date := by
  constructor
  · intro h
    unfold serialize at h
    split at h
    · rename_i date _
      split at h
      · rename_i hdate
        exact ⟨date, hdate.1, hdate.2.1, hdate.2.2, (Except.ok.inj h).symm⟩
      · exact absurd h (by simp)
    · exact absurd h (by simp)
  · rintro ⟨date, rfl, hfirst, hlast, rfl⟩
    simp [serialize, packet, hfirst, hlast]

theorem deserialize_bytes {date : ℤ} (hfirst : 0 ≤ date) (hlast : date ≤ lastPacketTime) :
    format.deserialize (format.bytes date) = .ok (format.packet date) := by
  have htimestamp : ((format.bytes date).drop format.header.length).take 17 =
      ofAscii (timestampChars date) := by
    have hlength : (ofAscii (timestampChars date)).length = 17 := by simp [ofAscii]
    rw [bytes, List.append_assoc, List.drop_left, ← hlength, List.take_left]
  have hparse := parseTimestamp_timestampChars hfirst hlast []
  rw [List.append_nil] at hparse
  unfold deserialize
  rw [htimestamp, toAscii_ofAscii (isDigit_timestampChars date), hparse]
  simp

end PacketFormat

namespace Digests

variable (digests : Digests) {data : Buffer}

theorem mem_of_lookup {digest : Buffer} (h : digests.entries.lookup data = some digest) :
    (data, digest) ∈ digests.entries := by
  obtain ⟨before, after, hentries, -⟩ := List.lookup_eq_some_iff.mp h
  simp [hentries]

theorem sha256_of_lookup {digest : Buffer} (h : digests.entries.lookup data = some digest) :
    digests.sha256 data = digest := by
  simp [sha256, h]

theorem sha256_of_none (h : digests.entries.lookup data = none) :
    digests.sha256 data = List.replicate 33 0 ++ data := by
  simp [sha256, h]

theorem sha256_ne_nil (data : Buffer) : digests.sha256 data ≠ [] := by
  cases h : digests.entries.lookup data with
  | none => simp [digests.sha256_of_none h]
  | some digest =>
    have hlength := digests.length_eq _ (digests.mem_of_lookup h)
    rw [digests.sha256_of_lookup h]
    rintro rfl
    simp at hlength

theorem sha256_injective : Function.Injective digests.sha256 := by
  intro a b hab
  -- Listed digests have 32 bytes, and the others more.
  have hne : ∀ {x y digest}, digests.entries.lookup x = some digest →
      digests.entries.lookup y = none → digests.sha256 x ≠ digests.sha256 y := by
    intro x y digest hx hy hxy
    have hlength := digests.length_eq _ (digests.mem_of_lookup hx)
    rw [digests.sha256_of_lookup hx, digests.sha256_of_none hy] at hxy
    rw [hxy] at hlength
    simp at hlength
  cases ha : digests.entries.lookup a with
  | none =>
    cases hb : digests.entries.lookup b with
    | none => simpa [digests.sha256_of_none ha, digests.sha256_of_none hb] using hab
    | some digest => exact absurd hab.symm (hne hb ha)
  | some digest =>
    cases hb : digests.entries.lookup b with
    | none => exact absurd hab (hne ha hb)
    | some digest' =>
      rw [digests.sha256_of_lookup ha, digests.sha256_of_lookup hb] at hab
      have hinj := List.inj_on_of_nodup_map digests.nodup (digests.mem_of_lookup ha)
        (digests.mem_of_lookup hb) hab
      exact (Prod.mk.inj hinj).1

end Digests

theorem PacketFormat.lawful (format : PacketFormat) (digests : Digests) :
    (format.platform digests).Lawful where
  digest := digests.sha256_ne_nil
  typed := by
    intro packet buffer h
    obtain ⟨date, -, -, -, rfl⟩ := serialize_ok.mp h
    obtain ⟨rest, hheader⟩ := List.head?_eq_some_iff.mp format.typed
    simp [bytes, hheader]
  roundTrip := by
    intro packet buffer h
    obtain ⟨date, rfl, hfirst, hlast, rfl⟩ := serialize_ok.mp h
    exact deserialize_bytes hfirst hlast
  anyDate := by
    intro packet buffer date h hfirst hlast
    obtain ⟨_, rfl, -⟩ := serialize_ok.mp h
    exact ⟨format.bytes date, serialize_ok.mpr ⟨date, rfl, hfirst, hlast, rfl⟩⟩

namespace PacketFormat

variable {format : PacketFormat} {digests : Digests} {secret data : String} {amount : ℤ}

/-- The packet of the format is prepared for any date that a packet can carry. -/
theorem prepare_eq (hamount : toString amount = format.amount)
    (hdata : Buffer.fromUtf8 data = format.data)
    (hcondition : digests.sha256 (preimage (format.platform digests) secret amount
      format.destination data) = format.executionCondition)
    {date : ℤ} (hfirst : 0 ≤ date) (hlast : date ≤ lastPacketTime) :
    prepare (format.platform digests) secret format.destination amount data date =
      .ok ⟨base64Encode (format.bytes date) true,
        base64Encode (preimage (format.platform digests) secret amount format.destination data)
          false,
        base64Encode format.executionCondition false⟩ := by
  have hclip : timeClip date = some date := by
    unfold timeClip
    rw [if_pos]
    unfold lastPacketTime at hlast
    unfold maxTime
    omega
  have hserialize : (format.platform digests).serializeIlpPrepare (format.packet date) =
      .ok (format.bytes date) := serialize_ok.mpr ⟨date, rfl, hfirst, hlast, rfl⟩
  have hsha : (format.platform digests).sha256 (preimage (format.platform digests) secret amount
      format.destination data) = format.executionCondition := hcondition
  unfold prepare
  dsimp only
  rw [hamount, hdata, hsha, hclip, show (⟨format.amount, format.executionCondition, some date,
    format.destination, format.data⟩ : IlpPrepare) = format.packet date from rfl, hserialize]
  rfl

theorem unwrap_bytes {date : ℤ} (hfirst : 0 ≤ date) (hlast : date ≤ lastPacketTime) :
    unwrap (format.platform digests) (base64Encode (format.bytes date) true) =
      .ok (format.packet date) := by
  unfold unwrap
  rw [base64Decode_base64Encode]
  exact deserialize_bytes hfirst hlast

theorem bytes_ne_nil (date : Date) : format.bytes date ≠ [] := by
  obtain ⟨rest, hheader⟩ := List.head?_eq_some_iff.mp format.typed
  simp [bytes, hheader]

end PacketFormat
end Interledger
