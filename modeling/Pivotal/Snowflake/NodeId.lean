import Pivotal.Js.Numeral
import Pivotal.Js.Url
import Pivotal.Numeric.Crc
import Pivotal.Snowflake.Generator

/-! The node of the generator that a process shares: configured, from the addresses of the network
interfaces, or drawn. -/
open Fspiop (JsError)

namespace Snowflake

structure NetworkInterfaceInfo where
  mac : Option String

/-- What a process finds when it loads the module. -/
structure Host where
  snowflakeNodeId : Option String
  kubernetesServiceHost : Option String
  /-- `Object.values(networkInterfaces())`, or what the call throws. -/
  networkInterfaces : Except JsError (List (Option (List (Option NetworkInterfaceInfo))))

/-- `value & MAX_NODE_ID`, also of a negative number. -/
def masked (value : ℤ) : ℤ := value % 2 ^ nodeIdBits

abbrev Crc32Table : Type := List (BitVec 32)

def crc32Bit (c : BitVec 32) : BitVec 32 :=
  if c &&& 1#32 ≠ 0#32 then 0xedb88320#32 ^^^ (c >>> 1) else c >>> 1

/-- The loop of eight bits. -/
def crc32Bits : ℕ → BitVec 32 → BitVec 32
  | 0, c => c
  | n + 1, c => crc32Bits n (crc32Bit c)

def createCrc32Table : Crc32Table := (List.range 256).map fun i => crc32Bits 8 (BitVec.ofNat 32 i)

/-- The bytes of pairs of hexadecimal digits, each of them what `Number.parseInt(pair, 16)` is. -/
def hexBytes : List Char → Option (List UInt8)
  | high :: low :: cs => do
    let high ← Js.hexDigit high
    let low ← Js.hexDigit low
    let bytes ← hexBytes cs
    return UInt8.ofNat (16 * high + low) :: bytes
  | _ => some []

def parseMacAddress (macAddress : String) : Option (List UInt8) :=
  let hex := Js.toLowerCase (Js.trim macAddress)
  let normalized := hex.toList.filter fun c => ('a' ≤ c && c ≤ 'f') || ('0' ≤ c && c ≤ '9')
  if normalized.length ≠ 12 then none else hexBytes normalized

def readUndefined (index : ℕ) : JsError :=
  .plain ⟨"TypeError", "Cannot read properties of undefined (reading '" ++ toString index ++ "')",
    none, none⟩

/-- `CRC32_TABLE[(crc ^ byte) & 0xff] ^ (crc >>> 8)`, with the table as it is at the time. -/
def crc32Step (table : Option Crc32Table) (crc : BitVec 32) (byte : UInt8) :
    Except JsError (BitVec 32) :=
  let index := ((crc ^^^ byte.toBitVec.setWidth 32) &&& 0xff#32).toNat
  match table with
  | none => .error (readUndefined index)
  | some table => .ok (table.getD index 0 ^^^ (crc >>> 8))

/-- The address of an entry, where the loop does not skip it. -/
def NetworkInterfaceInfo.macBytes (entry : Option NetworkInterfaceInfo) : Option (List UInt8) := do
  let mac ← (← entry).mac
  if mac = "" ∨ mac = "00:00:00:00:00:00" then none else parseMacAddress mac

/-- One entry of an interface, with the check value so far and whether there was an address. -/
def addEntry (table : Option Crc32Table) (state : BitVec 32 × Bool)
    (entry : Option NetworkInterfaceInfo) : Except JsError (BitVec 32 × Bool) :=
  match NetworkInterfaceInfo.macBytes entry with
  | none => .ok state
  | some macBytes => (macBytes.foldlM (crc32Step table) state.1).map (·, true)

def addEntries (table : Option Crc32Table) (state : BitVec 32 × Bool) :
    Option (List (Option NetworkInterfaceInfo)) → Except JsError (BitVec 32 × Bool)
  | none => .ok state
  | some entries => entries.foldlM (addEntry table) state

/-- The `try` block. The draw is `Math.floor(Math.random() * 2 ** 31)`. -/
def readNodeId (table : Option Crc32Table) (host : Host) (draw : ℕ) : Except JsError ℤ := do
  let interfaces ← host.networkInterfaces
  let (crc, hasMacAddress) ← interfaces.foldlM (addEntries table) (0xffffffff#32, false)
  if !hasMacAddress then return masked draw
  return masked (crc ^^^ 0xffffffff#32).toNat

def createNodeIdFromMac (table : Option Crc32Table) (host : Host) (draw : ℕ) : ℤ :=
  match readNodeId table host draw with
  | .ok nodeId => nodeId
  | .error _ => masked draw

/-- What comes after the last dash, where anything does. -/
def afterLastDash (cs : List Char) : Option (List Char) :=
  let rest := (cs.reverse.takeWhile (· ≠ '-')).reverse
  if '-' ∈ cs ∧ rest ≠ [] then some rest else none

/-- The node of `SNOWFLAKE_NODE_ID`: a number, or the ordinal after its last dash. -/
def configuredNodeId (setting : Option String) : Option ℤ := do
  let configured := Js.trim (← setting)
  if configured = "" then none
  else
    let parsed := Js.Number.parseInt configured
    if parsed ≠ .nan then return masked parsed.toInteger
    let ordinal := Js.Number.parseInt (String.ofList (← afterLastDash configured.toList))
    if ordinal ≠ .nan then return masked ordinal.toInteger
    none

def missingNodeId : JsError :=
  .plain ⟨"Error", "SNOWFLAKE_NODE_ID must be set in Kubernetes to avoid duplicate IDs.", none, none⟩

def resolveNodeId (table : Option Crc32Table) (host : Host) (draw : ℕ) : Except JsError ℤ :=
  match configuredNodeId host.snowflakeNodeId with
  | some nodeId => .ok nodeId
  | none =>
    if host.kubernetesServiceHost.isSome then .error missingNodeId
    else .ok (createNodeIdFromMac table host draw)

/-- The static fields that are not constants, undefined up to their own initialiser. -/
structure Statics where
  singleton : Option Snowflake
  crc32Table : Option Crc32Table

/-- The initialisers of `INSTANCE` and `CRC32_TABLE`, in the order of the text. -/
def staticInitialisers (host : Host) (draw : ℕ) : List (Statics → Except JsError Statics) :=
  [fun statics => do
    let nodeId ← resolveNodeId statics.crc32Table host draw
    return { statics with singleton := some (new nodeId) },
   fun statics => return { statics with crc32Table := some createCrc32Table }]

/-- The class as a process loads it. -/
def load (host : Host) (draw : ℕ) : Except JsError Statics :=
  (staticInitialisers host draw).foldlM (fun statics initialise => initialise statics) ⟨none, none⟩

/-- The node of `Snowflake.get()`, where the class could be loaded. -/
def nodeIdOf (host : Host) (draw : ℕ) : Option ℕ :=
  ((load host draw).toOption.bind (·.singleton)).map (·.nodeId)

/-- The addresses that the loop finds, in the order in which it does. -/
def macAddresses (interfaces : List (Option (List (Option NetworkInterfaceInfo)))) :
    List (List UInt8) :=
  (interfaces.flatMap fun entries => entries.getD []).filterMap NetworkInterfaceInfo.macBytes

/-- CRC-32 of a text of bytes, bit by bit. -/
def crc32 (bytes : List UInt8) : BitVec 32 := Crc.checksum 0xedb88320#32 bytes

example : crc32 ("123456789".toList.map fun c => UInt8.ofNat c.toNat) = 0xcbf43926#32 := by
  decide +kernel

theorem crc32Bit_eq (c : BitVec 32) : crc32Bit c = Crc.bitStep 0xedb88320#32 c := by
  rw [crc32Bit, Crc.bitStep, BitVec.and_one_eq_setWidth_ofBool_getLsbD]
  cases c.getLsbD 0 <;> rfl

theorem crc32Bits_eq (n : ℕ) (c : BitVec 32) : crc32Bits n c = Crc.bits 0xedb88320#32 n c := by
  induction n generalizing c with
  | zero => rfl
  | succ n ih => rw [crc32Bits, ih, crc32Bit_eq, Crc.bits]

/-- The table has the entry of each low byte at its place. -/
theorem createCrc32Table_getD (c : BitVec 32) :
    createCrc32Table.getD (c &&& 0xff#32).toNat 0 = Crc.entry 0xedb88320#32 (c.setWidth 8) := by
  have hindex : (c &&& 0xff#32).toNat = c.toNat % 256 := by
    rw [BitVec.toNat_and]
    exact Nat.and_two_pow_sub_one_eq_mod c.toNat 8
  have hlt : c.toNat % 256 < (List.range 256).length := by
    rw [List.length_range]
    exact Nat.mod_lt _ (by decide)
  have hlow : BitVec.ofNat 32 (c.toNat % 256) = (c.setWidth 8).setWidth 32 := by
    apply BitVec.eq_of_toNat_eq
    simp only [BitVec.toNat_ofNat, BitVec.toNat_setWidth]
  rw [hindex, createCrc32Table, List.getD_eq_getElem _ _ (by rwa [List.length_map]),
    List.getElem_map, List.getElem_range, crc32Bits_eq, hlow, Crc.entry]

/-- With the table, a byte changes the check value as its eight bits do. -/
theorem crc32Step_table (crc : BitVec 32) (byte : UInt8) :
    crc32Step (some createCrc32Table) crc byte = .ok (Crc.update 0xedb88320#32 crc byte) := by
  rw [crc32Step, Crc.update_eq_entry, createCrc32Table_getD]

theorem crc32Steps_table (bytes : List UInt8) (crc : BitVec 32) :
    bytes.foldlM (crc32Step (some createCrc32Table)) crc =
      .ok (bytes.foldl (Crc.update 0xedb88320#32) crc) := by
  induction bytes generalizing crc with
  | nil => rfl
  | cons byte bytes ih =>
    rw [List.foldlM_cons, crc32Step_table]
    exact ih _

section Interfaces

variable {interfaces : List (Option (List (Option NetworkInterfaceInfo)))}

/-- The loop over the interfaces is one over their entries. -/
theorem addEntries_flatten (table : Option Crc32Table) (state : BitVec 32 × Bool) :
    interfaces.foldlM (addEntries table) state =
      (interfaces.flatMap fun entries => entries.getD []).foldlM (addEntry table) state := by
  induction interfaces generalizing state with
  | nil => rfl
  | cons entries interfaces ih =>
    rw [List.foldlM_cons, List.flatMap_cons, List.foldlM_append]
    cases entries with
    | none => exact ih state
    | some entries => exact bind_congr fun state => ih state

theorem addEntry_table (entries : List (Option NetworkInterfaceInfo)) (crc : BitVec 32)
    (seen : Bool) :
    entries.foldlM (addEntry (some createCrc32Table)) (crc, seen) =
      .ok ((entries.filterMap NetworkInterfaceInfo.macBytes).flatten.foldl
          (Crc.update 0xedb88320#32) crc,
        seen || !(entries.filterMap NetworkInterfaceInfo.macBytes).isEmpty) := by
  induction entries generalizing crc seen with
  | nil => simp [pure, Except.pure]
  | cons entry entries ih =>
    rw [List.foldlM_cons]
    cases hmac : NetworkInterfaceInfo.macBytes entry with
    | none =>
      have hskip : addEntry (some createCrc32Table) (crc, seen) entry = .ok (crc, seen) := by
        rw [addEntry, hmac]
      rw [hskip, List.filterMap_cons_none hmac]
      exact ih crc seen
    | some bytes =>
      have hadd : addEntry (some createCrc32Table) (crc, seen) entry =
          .ok (bytes.foldl (Crc.update 0xedb88320#32) crc, true) := by
        rw [addEntry, hmac]
        simp only [crc32Steps_table, Except.map]
      rw [hadd, List.filterMap_cons_some hmac]
      refine (ih _ true).trans ?_
      rw [List.flatten_cons, List.foldl_append]
      simp

/-- The table is what the loop lacks: with it, the node would be the check value of the addresses. -/
theorem readNodeId_table {host : Host} (hread : host.networkInterfaces = .ok interfaces)
    (hmac : macAddresses interfaces ≠ []) (draw : ℕ) :
    readNodeId (some createCrc32Table) host draw =
      .ok (masked (crc32 (macAddresses interfaces).flatten).toNat) := by
  have hseen : (macAddresses interfaces).isEmpty = false := by
    rwa [List.isEmpty_eq_false_iff]
  rw [readNodeId, hread]
  simp only [bind, Except.bind, addEntries_flatten, addEntry_table]
  rw [← macAddresses, hseen]
  rfl

theorem hexBytes_ne_nil {cs : List Char} {bytes : List UInt8} (hlength : 2 ≤ cs.length)
    (h : hexBytes cs = some bytes) : bytes ≠ [] := by
  match cs, hlength with
  | high :: low :: cs, _ =>
    rw [hexBytes] at h
    simp only [Option.bind_eq_bind, Option.bind_eq_some_iff] at h
    obtain ⟨i, -, j, -, rest, -, hbytes⟩ := h
    cases hbytes
    exact List.cons_ne_nil _ _

theorem macBytes_ne_nil {entry : Option NetworkInterfaceInfo} {bytes : List UInt8}
    (h : NetworkInterfaceInfo.macBytes entry = some bytes) : bytes ≠ [] := by
  simp only [NetworkInterfaceInfo.macBytes, Option.bind_eq_bind, Option.bind_eq_some_iff] at h
  obtain ⟨info, -, mac, -, hmac⟩ := h
  split at hmac
  · cases hmac
  · rw [parseMacAddress] at hmac
    split at hmac
    · cases hmac
    · rename_i hlength
      exact hexBytes_ne_nil (by omega) hmac

/-- Without the table, the first address already fails the loop. -/
theorem addEntry_undefined {entries : List (Option NetworkInterfaceInfo)}
    (h : entries.filterMap NetworkInterfaceInfo.macBytes ≠ []) (state : BitVec 32 × Bool) :
    ∃ e, entries.foldlM (addEntry none) state = .error e := by
  induction entries generalizing state with
  | nil => exact absurd rfl h
  | cons entry entries ih =>
    rw [List.foldlM_cons]
    cases hmac : NetworkInterfaceInfo.macBytes entry with
    | none =>
      rw [List.filterMap_cons_none hmac] at h
      have hskip : addEntry none state entry = .ok state := by
        rw [addEntry, hmac]
      rw [hskip]
      exact ih h state
    | some bytes =>
      cases bytes with
      | nil => exact absurd rfl (macBytes_ne_nil hmac)
      | cons byte bytes =>
        have hfail : ∃ e, addEntry none state entry = .error e := by
          rw [addEntry, hmac]
          exact ⟨_, rfl⟩
        obtain ⟨e, he⟩ := hfail
        rw [he]
        exact ⟨e, rfl⟩

theorem createNodeIdFromMac_undefined {host : Host} (hread : host.networkInterfaces = .ok interfaces)
    (hmac : macAddresses interfaces ≠ []) (draw : ℕ) :
    createNodeIdFromMac none host draw = masked draw := by
  obtain ⟨e, he⟩ := addEntry_undefined hmac (0xffffffff#32, false)
  have hfail : readNodeId none host draw = .error e := by
    rw [readNodeId, hread]
    simp only [bind, Except.bind, addEntries_flatten, he]
  rw [createNodeIdFromMac, hfail]

theorem nodeIdOf_configured {host : Host} {nodeId : ℤ}
    (h : configuredNodeId host.snowflakeNodeId = some nodeId) (draw : ℕ) :
    nodeIdOf host draw = some (new nodeId).nodeId := by
  rw [nodeIdOf, load, staticInitialisers]
  simp only [List.foldlM_cons, resolveNodeId, h]
  rfl

theorem nodeIdOf_missing {host : Host} (h : configuredNodeId host.snowflakeNodeId = none)
    (hk8s : host.kubernetesServiceHost.isSome) (draw : ℕ) : nodeIdOf host draw = none := by
  rw [nodeIdOf, load, staticInitialisers]
  simp only [List.foldlM_cons, resolveNodeId, h, if_pos hk8s]
  rfl

/-- `INSTANCE` is made before the table is. -/
theorem nodeIdOf_drawn {host : Host} (h : configuredNodeId host.snowflakeNodeId = none)
    (hk8s : ¬ host.kubernetesServiceHost.isSome) (hread : host.networkInterfaces = .ok interfaces)
    (hmac : macAddresses interfaces ≠ []) (draw : ℕ) :
    nodeIdOf host draw = some (draw % 2 ^ nodeIdBits) := by
  have hdrawn : (new (masked draw)).nodeId = draw % 2 ^ nodeIdBits := by
    simp only [new, masked, nodeIdBits]
    omega
  rw [nodeIdOf, load, staticInitialisers]
  simp only [List.foldlM_cons, resolveNodeId, h, if_neg hk8s,
    createNodeIdFromMac_undefined hread hmac]
  change some (new (masked draw)).nodeId = _
  rw [hdrawn]

/-- The node is the check value of the addresses at every start only where it is configured to be
just that: addresses without a configured node are never used, the node is drawn. -/
theorem nodeId_is_crc_iff {host : Host} (hread : host.networkInterfaces = .ok interfaces)
    (hmac : macAddresses interfaces ≠ []) :
    (∀ draw < 2 ^ 31, nodeIdOf host draw =
        some ((crc32 (macAddresses interfaces).flatten).toNat % 2 ^ nodeIdBits)) ↔
      ∃ nodeId, configuredNodeId host.snowflakeNodeId = some nodeId ∧
        masked nodeId = masked (crc32 (macAddresses interfaces).flatten).toNat := by
  generalize (crc32 (macAddresses interfaces).flatten).toNat = crc
  have hsame : ∀ nodeId : ℤ, (new nodeId).nodeId = crc % 2 ^ nodeIdBits ↔
      masked nodeId = masked crc := by
    intro nodeId
    simp only [new, masked, nodeIdBits]
    omega
  cases hconfigured : configuredNodeId host.snowflakeNodeId with
  | some nodeId =>
    have hnode := nodeIdOf_configured hconfigured
    constructor
    · intro h
      have hzero := h 0 (by decide)
      rw [hnode, Option.some_inj, hsame] at hzero
      exact ⟨nodeId, rfl, hzero⟩
    · rintro ⟨_, hsome, hcrc⟩ draw -
      cases hsome
      rw [hnode, Option.some_inj, hsame]
      exact hcrc
  | none =>
    refine iff_of_false (fun h => ?_) (by simp)
    have hzero := h 0 (by decide)
    have hone := h 1 (by decide)
    by_cases hk8s : host.kubernetesServiceHost.isSome
    · rw [nodeIdOf_missing hconfigured hk8s] at hzero
      cases hzero
    · -- Two draws make two nodes, of which at most one is the check value.
      rw [nodeIdOf_drawn hconfigured hk8s hread hmac, Option.some_inj] at hzero hone
      rw [← hzero] at hone
      exact absurd hone (by decide)

/-- A host with one address, outside of Kubernetes and without a configured node. -/
def plainHost : Host :=
  ⟨none, none, .ok [some [some ⟨some "0A:1B:2C:3D:4E:5F"⟩]]⟩

theorem nodeId_is_crc_sample : ¬ ∀ draw < 2 ^ 31, nodeIdOf plainHost draw =
    some ((crc32 [0x0a, 0x1b, 0x2c, 0x3d, 0x4e, 0x5f]).toNat % 2 ^ nodeIdBits) := by
  have hmacs : macAddresses [some [some ⟨some "0A:1B:2C:3D:4E:5F"⟩]] =
      [[0x0a, 0x1b, 0x2c, 0x3d, 0x4e, 0x5f]] := by decide
  have hread : plainHost.networkInterfaces = .ok [some [some ⟨some "0A:1B:2C:3D:4E:5F"⟩]] := rfl
  have hiff := nodeId_is_crc_iff hread (by rw [hmacs]; exact List.cons_ne_nil _ _)
  rw [hmacs] at hiff
  rw [show [0x0a, 0x1b, 0x2c, 0x3d, 0x4e, 0x5f] =
    [[(0x0a : UInt8), 0x1b, 0x2c, 0x3d, 0x4e, 0x5f]].flatten from rfl, hiff]
  rintro ⟨_, hnone, -⟩
  cases hnone

/-- Two starts on one host, with two nodes. -/
theorem not_nodeId_is_crc : macAddresses [some [some ⟨some "0A:1B:2C:3D:4E:5F"⟩]] ≠ [] ∧
    nodeIdOf plainHost 0 = some 0 ∧ nodeIdOf plainHost 1 = some 1 ∧
      (crc32 [0x0a, 0x1b, 0x2c, 0x3d, 0x4e, 0x5f]).toNat % 2 ^ nodeIdBits = 253 := by
  decide +kernel

end Interfaces

end Snowflake
