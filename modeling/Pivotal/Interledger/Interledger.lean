import Pivotal.Fspiop.Errors
import Pivotal.Js.Buffer
import Pivotal.Js.Date

/-! Interledger conditions: a packet is prepared from the secret of the connector, the amount,
the destination and the data, and fulfilled by deriving the same preimage again. -/
namespace Interledger
open Js
open Fspiop (JsError)

/-- A packet of the `ilp-packet` package. `none` is an invalid date. -/
structure IlpPrepare where
  amount : String
  executionCondition : Buffer
  expiresAt : Option Date
  destination : String
  data : Buffer
  deriving DecidableEq

/-- What the code uses of its packages and of the JavaScript engine. -/
structure Platform where
  sha256 : Buffer → Buffer
  serializeIlpPrepare : IlpPrepare → Except JsError Buffer
  deserializeIlpPrepare : Buffer → Except JsError IlpPrepare
  /-- The dates of texts that are not in the ISO format. -/
  otherDate : String → Option Date

/-- The last date that a packet can carry: its year has four digits. -/
def lastPacketTime : ℤ := 253402300799999

/-- The documented behaviour of the digest and of `ilp-packet`. -/
structure Platform.Lawful (platform : Platform) : Prop where
  digest : ∀ data, platform.sha256 data ≠ []
  /-- A packet begins with its type. -/
  typed : ∀ packet buffer, platform.serializeIlpPrepare packet = .ok buffer →
    buffer.head? = some 12
  roundTrip : ∀ packet buffer, platform.serializeIlpPrepare packet = .ok buffer →
    platform.deserializeIlpPrepare buffer = .ok packet
  /-- A packet that can be written can be written with any other date from the epoch on. -/
  anyDate : ∀ packet buffer date, platform.serializeIlpPrepare packet = .ok buffer →
    0 ≤ date → date ≤ lastPacketTime →
    ∃ buffer', platform.serializeIlpPrepare { packet with expiresAt := some date } = .ok buffer'

structure Prepare where
  base64PreparePacket : String
  base64Fulfillment : String
  base64Condition : String
  deriving DecidableEq

structure Fulfill where
  valid : Bool
  base64Fulfillment : Option String
  deriving DecidableEq

def address (peer : String) : String := "g." ++ peer

def base64Decode (data : String) : Buffer := Buffer.fromBase64Url data

def base64Encode (data : Buffer) (padding : Bool) : String :=
  let encoded := data.toBase64Url
  if padding = false then encoded
  else
    let padLength := (4 - encoded.length % 4) % 4
    encoded ++ String.ofList (List.replicate padLength '=')

/-- The text that the preimage is the digest of. -/
def preimageText (ilpSecret : String) (amount : ℤ) (destination data : String) : String :=
  ilpSecret ++ ":" ++ toString amount ++ ":" ++ destination ++ ":" ++ data

section
variable (platform : Platform)

def preimage (ilpSecret : String) (amount : ℤ) (destination data : String) : Buffer :=
  platform.sha256 (Buffer.fromUtf8 (preimageText ilpSecret amount destination data))

def prepare (ilpSecret peer : String) (amount : ℤ) (data : String) (expireAt : ℤ) :
    Except JsError Prepare := do
  let preimage := preimage platform ilpSecret amount peer data
  let condition := platform.sha256 preimage
  let preparePacket : IlpPrepare :=
    { amount := toString amount
      executionCondition := condition
      expiresAt := timeClip expireAt
      destination := peer
      data := Buffer.fromUtf8 data }
  let serialized ← platform.serializeIlpPrepare preparePacket
  return {
    base64PreparePacket := base64Encode serialized true
    base64Fulfillment := base64Encode preimage false
    base64Condition := base64Encode condition false }

def fulfil (ilpSecret peer : String) (amount : ℤ) (data condition : String)
    (lifetimeSeconds : ℤ) : Except JsError Fulfill := do
  let fulfilmentPacket ← prepare platform ilpSecret peer amount data lifetimeSeconds
  let fulfilmentCondition := fulfilmentPacket.base64Condition
  let fulfilment := fulfilmentPacket.base64Fulfillment
  let valid : Bool := fulfilmentCondition = condition
  return ⟨valid, some fulfilment⟩

def unwrap (base64Packet : String) : Except JsError IlpPrepare :=
  platform.deserializeIlpPrepare (base64Decode base64Packet)

/-- The condition of a packet, which no other argument of `prepare` goes into. -/
def conditionOf (ilpSecret peer : String) (amount : ℤ) (data : String) : String :=
  base64Encode (platform.sha256 (preimage platform ilpSecret amount peer data)) false

end

@[simp] theorem base64Encode_unpadded (data : Buffer) :
    base64Encode data false = data.toBase64Url := rfl

@[simp] theorem base64Decode_base64Encode (data : Buffer) (padding : Bool) :
    base64Decode (base64Encode data padding) = data := by
  cases padding with
  | false => exact Buffer.fromBase64Url_toBase64Url data
  | true => exact Buffer.fromBase64Url_padded data _

variable {platform : Platform} {secret peer data : String} {amount : ℤ}

/-- What `prepare` returns, and the packet that was written. -/
theorem prepare_spec {expireAt : ℤ} {prepared : Prepare}
    (h : prepare platform secret peer amount data expireAt = .ok prepared) :
    ∃ buffer, platform.serializeIlpPrepare
        { amount := toString amount
          executionCondition := platform.sha256 (preimage platform secret amount peer data)
          expiresAt := timeClip expireAt
          destination := peer
          data := Buffer.fromUtf8 data } = .ok buffer ∧
      prepared.base64PreparePacket = base64Encode buffer true ∧
      prepared.base64Fulfillment =
        base64Encode (preimage platform secret amount peer data) false ∧
      prepared.base64Condition = conditionOf platform secret peer amount data := by
  unfold prepare at h
  simp only [bind, Except.bind] at h
  split at h
  · exact absurd h (by simp)
  · rename_i buffer hbuffer
    simp only [pure, Except.pure, Except.ok.injEq] at h
    subst h
    exact ⟨buffer, hbuffer, rfl, rfl, rfl⟩

/-- A packet that was prepared can be prepared again for another time. -/
theorem Platform.Lawful.prepare_again (hlaw : platform.Lawful) {expireAt expireAt' : ℤ}
    {prepared : Prepare} (h : prepare platform secret peer amount data expireAt = .ok prepared)
    (hfirst : 0 ≤ expireAt') (hlast : expireAt' ≤ lastPacketTime) :
    ∃ again, prepare platform secret peer amount data expireAt' = .ok again ∧
      again.base64Fulfillment = prepared.base64Fulfillment ∧
      again.base64Condition = prepared.base64Condition := by
  obtain ⟨buffer, hbuffer, -, hfulfillment, hcondition⟩ := prepare_spec h
  obtain ⟨buffer', hbuffer'⟩ := hlaw.anyDate _ _ expireAt' hbuffer hfirst hlast
  have hclip : timeClip expireAt' = some expireAt' := by
    unfold timeClip
    rw [if_pos]
    unfold lastPacketTime at hlast
    unfold maxTime
    omega
  refine ⟨⟨base64Encode buffer' true, prepared.base64Fulfillment, prepared.base64Condition⟩,
    ?_, rfl, rfl⟩
  unfold prepare
  dsimp only
  rw [hclip, hbuffer', hfulfillment, hcondition]
  rfl

theorem Platform.Lawful.packet_not_blank (hlaw : platform.Lawful) {expireAt : ℤ}
    {prepared : Prepare} (h : prepare platform secret peer amount data expireAt = .ok prepared) :
    trim prepared.base64PreparePacket ≠ "" := by
  obtain ⟨buffer, hbuffer, hpacket, -⟩ := prepare_spec h
  have hne : buffer ≠ [] := by
    rintro rfl
    have htype := hlaw.typed _ _ hbuffer
    simp at htype
  rw [hpacket]
  exact Buffer.trim_toBase64Url_append hne _

theorem Platform.Lawful.condition_not_blank (hlaw : platform.Lawful) :
    trim (conditionOf platform secret peer amount data) ≠ "" := by
  have h := Buffer.trim_toBase64Url_append (hlaw.digest (preimage platform secret amount peer data)) ""
  rwa [String.append_empty] at h

/-- `fulfil` fails when the packet cannot be written, and else compares the condition. -/
theorem fulfil_spec {condition : String} {lifetimeSeconds : ℤ} {fulfilment : Fulfill}
    (h : fulfil platform secret peer amount data condition lifetimeSeconds = .ok fulfilment) :
    fulfilment = ⟨conditionOf platform secret peer amount data = condition,
      some (base64Encode (preimage platform secret amount peer data) false)⟩ := by
  unfold fulfil at h
  simp only [bind, Except.bind] at h
  split at h
  · exact absurd h (by simp)
  · rename_i prepared hprepared
    obtain ⟨_, -, -, hfulfillment, hcondition⟩ := prepare_spec hprepared
    simp only [pure, Except.pure, Except.ok.injEq] at h
    rw [← h, hfulfillment, hcondition]

/-- The packet of a preparation, unwrapped. -/
theorem Platform.Lawful.unwrap_prepare (hlaw : platform.Lawful) {expireAt : ℤ}
    {prepared : Prepare} (h : prepare platform secret peer amount data expireAt = .ok prepared) :
    unwrap platform prepared.base64PreparePacket = .ok
      { amount := toString amount
        executionCondition := platform.sha256 (preimage platform secret amount peer data)
        expiresAt := timeClip expireAt
        destination := peer
        data := Buffer.fromUtf8 data } := by
  obtain ⟨buffer, hbuffer, hpacket, -⟩ := prepare_spec h
  unfold unwrap
  rw [hpacket, base64Decode_base64Encode]
  exact hlaw.roundTrip _ _ hbuffer

/-- With an injective digest, a condition determines the text that it was derived from. -/
theorem conditionOf_injective (hsha : Function.Injective platform.sha256)
    {peer' data' : String} {amount' : ℤ}
    (h : conditionOf platform secret peer amount data =
      conditionOf platform secret peer' amount' data') :
    preimageText secret amount peer data = preimageText secret amount' peer' data' :=
  Buffer.fromUtf8_injective (hsha (hsha (Buffer.toBase64Url_injective h)))

/-- The secret and the amount are delimited: equal texts have equal amounts, and agree on
what follows. -/
theorem preimageText_inj {amount amount' : ℤ} {peer' data' : String} (hamount : 0 ≤ amount)
    (hamount' : 0 ≤ amount')
    (h : preimageText secret amount peer data = preimageText secret amount' peer' data') :
    amount = amount' ∧ peer ++ ":" ++ data = peer' ++ ":" ++ data' := by
  have hchars : (toString amount).toList ++ ':' :: (peer.toList ++ ':' :: data.toList) =
      (toString amount').toList ++ ':' :: (peer'.toList ++ ':' :: data'.toList) := by
    have htext := congrArg String.toList h
    simpa [preimageText, String.toList_append, List.append_assoc] using htext
  -- The amount ends at the first separator.
  have htake : ∀ {n : ℤ}, 0 ≤ n → ∀ rest,
      ((toString n).toList ++ ':' :: rest).takeWhile isDigit = (toString n).toList := by
    intro n hn rest
    rw [List.takeWhile_append_of_pos (List.all_eq_true.mp (isDigit_toString hn))]
    simp [isDigit]
  have hprint : (toString amount).toList = (toString amount').toList := by
    rw [← htake hamount, hchars, htake hamount']
  constructor
  · have hread := parseBigInt_toString hamount
    rw [String.toList_inj.mp hprint, parseBigInt_toString hamount'] at hread
    exact (Option.some.inj hread).symm
  · rw [hprint, List.append_cancel_left_eq, List.cons.injEq] at hchars
    apply String.toList_inj.mp
    simpa [String.toList_append, List.append_assoc] using hchars.2

end Interledger
