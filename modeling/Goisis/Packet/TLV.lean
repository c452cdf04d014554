import Goisis.Packet.SubTLV

/-!
# TLVs

Model of the TLV layer of `pkg/packet`: `tlv.go` and the decoders of the `tlv_*.go` files, with
their encoders. `TLV` has one constructor per Go type; `TLV.serialize` is the `Serialize` method
and `decodeTLV` the registered decoder of a type code (an unregistered code is kept as
`TLV.unknown`). A structurally invalid known TLV fails the whole area (`decodeTLVs`).

The IPv4 and IPv6 reachability entries share `PrefixReach`, the source's own family-neutral
`prefixReachEntry`; its `external` bit exists on the wire for IPv6 only.
-/

namespace Goisis.Packet

open Lib

/-! ## Values -/

/-- `LSPEntry`: the digest of an LSP listed in a sequence numbers PDU. -/
structure LSPEntry where
  remainingTime : UInt16
  lspID : LSPID
  sequenceNumber : UInt32
  checksum : UInt16
deriving DecidableEq, Repr

/-- `ExtendedISReachEntry`. -/
structure ISReachEntry where
  neighborID : NodeID
  metric : UInt32
  subTLVs : List SubTLV
deriving DecidableEq, Repr

/-- `prefixReachEntry`, the common form of `ExtendedIPReachEntry` and `IPv6ReachEntry`. -/
structure PrefixReach where
  metric : UInt32
  down : Bool
  external : Bool := false
  pfx : Prefix
  subTLVs : List SubTLV
deriving DecidableEq, Repr

/-- `SRv6EndSID`. -/
structure EndSID where
  flags : UInt8
  behavior : UInt16
  sid : Addr
  sidStructure : Option SIDStructure
  unknown : List UnknownSubTLV
deriving DecidableEq, Repr

/-- `SRv6Locator`. -/
structure SRv6Locator where
  metric : UInt32
  flags : UInt8
  algorithm : UInt8
  locator : Prefix
  endSIDs : List EndSID
  unknown : List UnknownSubTLV
deriving DecidableEq, Repr

/-- `MTopologyEntry`. -/
structure MTopologyEntry where
  mtid : UInt16
  overload : Bool
  attached : Bool
deriving DecidableEq, Repr

/-- `P2PThreeWayAdjacencyTLV`: the optional parts are the three valid lengths. -/
structure P2PThreeWay where
  state : UInt8
  extLocalCircuitID : Option UInt32
  neighbor : Option (SystemID × UInt32)
deriving DecidableEq, Repr

/-- `RestartTLV`. -/
structure Restart where
  restartRequest : Bool
  restartAck : Bool
  suppressAdjacency : Bool
  remainingTime : Option UInt16
  neighborSystemID : Option SystemID
deriving DecidableEq, Repr

/-- A decoded TLV. -/
inductive TLV where
  | unknown (tlvType : UInt8) (value : Bytes)
  | areaAddresses (addresses : List Bytes)
  | isNeighbors (neighbors : List SNPA)
  | padding (length : Int)
  | lspEntries (entries : List LSPEntry)
  | authentication (authType : UInt8) (value : Bytes)
  | extendedISReachability (neighbors : List ISReachEntry)
  | srv6Locator (mtid : UInt16) (locators : List SRv6Locator)
  | protocolsSupported (nlpids : Bytes)
  | ipInterfaceAddresses (addresses : List Addr)
  | extendedIPReachability (prefixes : List PrefixReach)
  | dynamicHostname (hostname : Bytes)
  | restart (r : Restart)
  | mtISReachability (mtid : UInt16) (neighbors : List ISReachEntry)
  | mTopologies (topologies : List MTopologyEntry)
  | ipv6InterfaceAddresses (addresses : List Addr)
  | mtIPReachability (mtid : UInt16) (prefixes : List PrefixReach)
  | ipv6Reachability (prefixes : List PrefixReach)
  | mtIPv6Reachability (mtid : UInt16) (prefixes : List PrefixReach)
  | p2pThreeWayAdjacency (a : P2PThreeWay)
  | routerCapability (routerID : Addr) (flags : UInt8) (subTLVs : List SubTLV)
deriving DecidableEq, Repr

/-! ## Type codes -/

def tlvTypeAreaAddresses : UInt8 := 1
def tlvTypeISNeighbors : UInt8 := 6
def tlvTypePadding : UInt8 := 8
def tlvTypeLSPEntries : UInt8 := 9
def tlvTypeAuthentication : UInt8 := 10
def tlvTypePurgeOriginatorID : UInt8 := 13
def tlvTypeExtendedISReachability : UInt8 := 22
def tlvTypeSRv6Locator : UInt8 := 27
def tlvTypeProtocolsSupported : UInt8 := 129
def tlvTypeIPInterfaceAddresses : UInt8 := 132
def tlvTypeExtendedIPReachability : UInt8 := 135
def tlvTypeDynamicHostname : UInt8 := 137
def tlvTypeRestart : UInt8 := 211
def tlvTypeMTISReachability : UInt8 := 222
def tlvTypeMTopologies : UInt8 := 229
def tlvTypeIPv6InterfaceAddresses : UInt8 := 232
def tlvTypeMTIPReachability : UInt8 := 235
def tlvTypeIPv6Reachability : UInt8 := 236
def tlvTypeMTIPv6Reachability : UInt8 := 237
def tlvTypeP2PThreeWayAdjacency : UInt8 := 240
def tlvTypeRouterCapability : UInt8 := 242

/-- `MTIDIPv6Unicast`. -/
def mtidIPv6Unicast : UInt16 := 2

/-- `MaxLSPEntriesPerTLV`: 255 / 16, floored. -/
def maxLSPEntriesPerTLV : Nat := 15

/-! ## Encoding -/

/-- `encodeTLV(t, value)`. -/
def encodeTLV (t : UInt8) (value : Bytes) : Except CodecError Bytes :=
  match frame t value with
  | none => .error .tooLong
  | some b => .ok b

def LSPEntry.encode (e : LSPEntry) : Bytes :=
  be16 e.remainingTime ++ (e.lspID.toBytes ++ (be32 e.sequenceNumber ++ be16 e.checksum))

/-- One area address of TLV 1: 1 to 13 octets behind a length octet. -/
def encodeAreaAddress (a : Bytes) : Except CodecError Bytes :=
  if a.length = 0 ∨ a.length > 13 then .error .badTLV else .ok (UInt8.ofNat a.length :: a)

def encodeAddr4 : Addr → Except CodecError Bytes
  | .v4 o => .ok o.val
  | _ => .error .badTLV

def encodeAddr6 : Addr → Except CodecError Bytes
  | .v6 o => .ok o.val
  | .v6Zone o _ => .ok o.val
  | _ => .error .badTLV

/-- One neighbour of `serializeISReachEntries`. -/
def ISReachEntry.serialize (n : ISReachEntry) : Except CodecError Bytes :=
  if n.metric.toNat > 0xffffff then .error .badTLV
  else do
    let sub ← serializeSubTLVs n.subTLVs
    if sub.length > 255 then .error .tooLong
    else .ok (n.neighborID.toBytes ++ be24 n.metric ++ UInt8.ofNat sub.length :: sub)

/-- `packPrefix(p, full)`. -/
def packPrefix (p : Prefix) : Bytes := p.addr.octets.take ((p.bits.toNat + 7) / 8)

/-- One prefix of `serializeIPReachEntries`: the length shares its octet with the flags, and the
sub-TLV length is emitted only when there are sub-TLVs. -/
def PrefixReach.serialize4 (e : PrefixReach) : Except CodecError Bytes :=
  if !e.pfx.addr.is4 ∨ e.pfx.bits < 0 ∨ e.pfx.bits > 32 then .error .badTLV
  else do
    let sub ← serializeSubTLVs e.subTLVs
    if sub.length > 255 then .error .tooLong
    else
      let ctrl := UInt8.ofNat e.pfx.bits.toNat ||| (if e.down then 0x80 else 0) |||
        (if sub.length > 0 then 0x40 else 0)
      .ok (be32 e.metric ++ ctrl :: packPrefix e.pfx ++
        (if sub.length > 0 then UInt8.ofNat sub.length :: sub else []))

/-- One prefix of `serializeIPv6ReachEntries`. -/
def PrefixReach.serialize6 (e : PrefixReach) : Except CodecError Bytes :=
  if !e.pfx.addr.is6 ∨ e.pfx.bits < 0 ∨ e.pfx.bits > 128 then .error .badTLV
  else do
    let sub ← serializeSubTLVs e.subTLVs
    if sub.length > 255 then .error .tooLong
    else
      let flags : UInt8 := (if e.down then 0x80 else 0) ||| (if e.external then 0x40 else 0) |||
        (if sub.length > 0 then 0x20 else 0)
      .ok (be32 e.metric ++ flags :: UInt8.ofNat e.pfx.bits.toNat :: packPrefix e.pfx ++
        (if sub.length > 0 then UInt8.ofNat sub.length :: sub else []))

/-- `encodeMTID(mtid)`: the reserved bits are clear. -/
def encodeMTID (mtid : UInt16) : Bytes :=
  [UInt8.ofNat (mtid.toNat / 256 % 16), UInt8.ofNat mtid.toNat]

def MTopologyEntry.encode (e : MTopologyEntry) : Bytes :=
  [UInt8.ofNat (e.mtid.toNat / 256 % 16) ||| (if e.overload then 0x80 else 0) |||
    (if e.attached then 0x40 else 0), UInt8.ofNat e.mtid.toNat]

/-- `(*SRv6EndSID).encode`. -/
def EndSID.encode (e : EndSID) : Except CodecError Bytes := do
  let sub ← encodeSIDSubSubTLVs e.sidStructure e.unknown
  if sub.length > 255 - 20 then .error .tooLong
  else .ok (e.flags :: be16 e.behavior ++ e.sid.as16 ++ UInt8.ofNat sub.length :: sub)

/-- The code point of the SRv6 End SID sub-TLV. -/
def subTLVSRv6EndSID : UInt8 := 5

/-- One locator of `(*SRv6LocatorTLV).Serialize`. -/
def SRv6Locator.serialize (l : SRv6Locator) : Except CodecError Bytes :=
  if !l.locator.addr.is6 then .error .badTLV
  else if l.locator.bits < 0 ∨ l.locator.bits > 128 then .error .badTLV
  else do
    let sids ← writeAll (fun e : EndSID => do encodeSubTLV subTLVSRv6EndSID (← e.encode)) l.endSIDs
    let rest ← writeAll UnknownSubTLV.serialize l.unknown
    let sub := sids ++ rest
    if sub.length > 255 then .error .tooLong
    else .ok (be32 l.metric ++ [l.flags, l.algorithm, UInt8.ofNat l.locator.bits.toNat] ++
      packPrefix l.locator ++ UInt8.ofNat sub.length :: sub)

def P2PThreeWay.encode (t : P2PThreeWay) : Except CodecError Bytes :=
  match t.extLocalCircuitID, t.neighbor with
  | none, some _ => .error .badTLV
  | none, none => .ok [t.state]
  | some c, none => .ok (t.state :: be32 c)
  | some c, some (sid, nc) => .ok (t.state :: be32 c ++ sid.val ++ be32 nc)

def Restart.encode (t : Restart) : Except CodecError Bytes :=
  let flags : UInt8 := (if t.restartRequest then 1 else 0) ||| (if t.restartAck then 2 else 0) |||
    (if t.suppressAdjacency then 4 else 0)
  match t.remainingTime, t.neighborSystemID with
  | none, some _ => .error .badTLV
  | none, none => .ok [flags]
  | some r, none => .ok (flags :: be16 r)
  | some r, some sid => .ok (flags :: be16 r ++ sid.val)

/-- `TLV.Serialize`. -/
def TLV.serialize : TLV → Except CodecError Bytes
  | .unknown t value => encodeTLV t value
  | .areaAddresses as => do encodeTLV tlvTypeAreaAddresses (← writeAll encodeAreaAddress as)
  | .isNeighbors ns => encodeTLV tlvTypeISNeighbors (ns.flatMap (·.val))
  | .padding n =>
    if n < 0 ∨ n > 255 then .error .tooLong
    else encodeTLV tlvTypePadding (List.replicate n.toNat 0)
  | .lspEntries es =>
    if es.length > maxLSPEntriesPerTLV then .error .tooLong
    else encodeTLV tlvTypeLSPEntries (es.flatMap LSPEntry.encode)
  | .authentication t value => encodeTLV tlvTypeAuthentication (t :: value)
  | .extendedISReachability ns => do
    encodeTLV tlvTypeExtendedISReachability (← writeAll ISReachEntry.serialize ns)
  | .srv6Locator mtid ls => do
    encodeTLV tlvTypeSRv6Locator (encodeMTID mtid ++ (← writeAll SRv6Locator.serialize ls))
  | .protocolsSupported nlpids => encodeTLV tlvTypeProtocolsSupported nlpids
  | .ipInterfaceAddresses as => do
    encodeTLV tlvTypeIPInterfaceAddresses (← writeAll encodeAddr4 as)
  | .extendedIPReachability ps => do
    encodeTLV tlvTypeExtendedIPReachability (← writeAll PrefixReach.serialize4 ps)
  | .dynamicHostname h =>
    if h.length < 1 then .error .badTLV else encodeTLV tlvTypeDynamicHostname h
  | .restart r => do encodeTLV tlvTypeRestart (← r.encode)
  | .mtISReachability mtid ns => do
    encodeTLV tlvTypeMTISReachability (encodeMTID mtid ++ (← writeAll ISReachEntry.serialize ns))
  | .mTopologies ts => encodeTLV tlvTypeMTopologies (ts.flatMap MTopologyEntry.encode)
  | .ipv6InterfaceAddresses as => do
    encodeTLV tlvTypeIPv6InterfaceAddresses (← writeAll encodeAddr6 as)
  | .mtIPReachability mtid ps => do
    encodeTLV tlvTypeMTIPReachability (encodeMTID mtid ++ (← writeAll PrefixReach.serialize4 ps))
  | .ipv6Reachability ps => do
    encodeTLV tlvTypeIPv6Reachability (← writeAll PrefixReach.serialize6 ps)
  | .mtIPv6Reachability mtid ps => do
    encodeTLV tlvTypeMTIPv6Reachability (encodeMTID mtid ++ (← writeAll PrefixReach.serialize6 ps))
  | .p2pThreeWayAdjacency a => do encodeTLV tlvTypeP2PThreeWayAdjacency (← a.encode)
  | .routerCapability rid flags subs => do
    let id := match rid with
      | .v4 o => o.val
      | _ => [0, 0, 0, 0]
    encodeTLV tlvTypeRouterCapability (id ++ flags :: (← serializeSubTLVs subs))

/-- `serializeTLVs(tlvs)`, also exported as `MarshalTLVs`. -/
def serializeTLVs (tlvs : List TLV) : Except CodecError Bytes := writeAll TLV.serialize tlvs

/-! ## Decoding -/

/-- Fixed-size items of `n` octets; only reached on a multiple of `n` octets. -/
def chunkItem {α : Type} (n : Nat) (dec : Bytes → α) (b : Bytes) : Except CodecError (α × Bytes) :=
  if b.length < n then .error .truncated else .ok (dec (b.take n), b.drop n)

/-- A TLV value that must be a multiple of `n` octets. -/
def decodeChunks {α : Type} (n : Nat) (dec : Bytes → α) (value : Bytes) :
    Except CodecError (List α) :=
  if value.length % n ≠ 0 then .error .badTLV else readAll (chunkItem n dec) value.length value

/-- One area address of `decodeAreaAddressesTLV`. -/
def areaAddressItem : Bytes → Except CodecError (Bytes × Bytes)
  | [] => .error .truncated
  | len :: rest =>
    if len = 0 ∨ len > 13 then .error .badTLV
    else if rest.length < len.toNat then .error .truncated
    else .ok (rest.take len.toNat, rest.drop len.toNat)

def LSPEntry.decode (b : Bytes) : LSPEntry :=
  ⟨u16At b 0, lspIDAt b 2, u32At b 10, u16At b 14⟩

/-- One neighbour of `decodeISReachEntries`. -/
def isReachItem (value : Bytes) : Except CodecError (ISReachEntry × Bytes) :=
  if value.length < 11 then .error .truncated
  else
    let subLen := (at8 value 10).toNat
    if value.length < 11 + subLen then .error .truncated
    else do
      let subs ← decodeSubTLVs .isReachability (slice value 11 (11 + subLen))
      .ok (⟨nodeIDAt value 0, u24 (at8 value 7) (at8 value 8) (at8 value 9), subs⟩,
        value.drop (11 + subLen))

/-- `decodeISReachEntries(value)`. -/
def decodeISReachEntries (value : Bytes) : Except CodecError (List ISReachEntry) :=
  readAll isReachItem value.length value

/-- `unpackPrefix(sig, bits, v6)`. -/
def unpackPrefix (sig : Bytes) (bits : Nat) (v6 : Bool) : Prefix :=
  if v6 then prefixFrom (.v6 (Octets.ofList 16 sig)) bits
  else prefixFrom (.v4 (Octets.ofList 4 sig)) bits

/-- One entry of `decodePrefixReach(value, v6, emit)`. -/
def prefixReachItem (v6 : Bool) (value : Bytes) : Except CodecError (PrefixReach × Bytes) :=
  let headLen := if v6 then 6 else 5
  let maxBits := if v6 then 128 else 32
  if value.length < headLen then .error .truncated
  else
    let flags := at8 value 4
    let bits := if v6 then (at8 value 5).toNat else (flags &&& 0x3f).toNat
    let hasSub := if v6 then flags &&& 0x20 != 0 else flags &&& 0x40 != 0
    let external := v6 && flags &&& 0x40 != 0
    if bits > maxBits then .error .badTLV
    else
      let off := headLen + (bits + 7) / 8
      if value.length < off then .error .truncated
      else
        let pfx := unpackPrefix (slice value headLen off) bits v6
        if hasSub then
          if value.length < off + 1 then .error .truncated
          else
            let subLen := (at8 value off).toNat
            if value.length < off + 1 + subLen then .error .truncated
            else do
              let subs ← decodeSubTLVs .ipReachability (slice value (off + 1) (off + 1 + subLen))
              .ok (⟨u32At value 0, flags &&& 0x80 != 0, external, pfx, subs⟩,
                value.drop (off + 1 + subLen))
        else .ok (⟨u32At value 0, flags &&& 0x80 != 0, external, pfx, []⟩, value.drop off)

/-- `decodePrefixReach(value, v6, …)`. -/
def decodePrefixReach (v6 : Bool) (value : Bytes) : Except CodecError (List PrefixReach) :=
  readAll (prefixReachItem v6) value.length value

/-- `decodeMTID(name, value)`: the four reserved bits are masked off. -/
def decodeMTID (value : Bytes) : Except CodecError (UInt16 × Bytes) :=
  if value.length < 2 then .error .truncated
  else .ok (u16 (at8 value 0 &&& 0x0f) (at8 value 1), value.drop 2)

def MTopologyEntry.decode (b : Bytes) : MTopologyEntry :=
  ⟨u16 (at8 b 0 &&& 0x0f) (at8 b 1), at8 b 0 &&& 0x80 != 0, at8 b 0 &&& 0x40 != 0⟩

/-- `decodeEndSID(v)`. -/
def decodeEndSID (v : Bytes) : Except CodecError EndSID :=
  if v.length < 20 then .error .truncated
  else
    let subLen := (at8 v 19).toNat
    if v.length < 20 + subLen then .error .truncated
    else do
      let (st, unknown) ← decodeSIDSubSubTLVs (slice v 20 (20 + subLen))
      .ok ⟨at8 v 0, u16At v 1, .v6 (Octets.ofList 16 (v.drop 3)), st, unknown⟩

/-- One sub-TLV of a locator: an End SID, or kept opaque. -/
def decodeLocatorSub (typ : UInt8) (value : Bytes) : Except CodecError (EndSID ⊕ UnknownSubTLV) :=
  if typ = subTLVSRv6EndSID then do
    let e ← decodeEndSID value
    .ok (.inl e)
  else .ok (.inr ⟨typ, value, false⟩)

/-- One entry of `decodeSRv6LocatorTLV`; the locator is masked to its length. -/
def srv6LocatorItem (value : Bytes) : Except CodecError (SRv6Locator × Bytes) :=
  if value.length < 8 then .error .truncated
  else
    let bits := (at8 value 6).toNat
    if bits > 128 then .error .badTLV
    else
      let off := 7 + (bits + 7) / 8
      if value.length < off + 1 then .error .truncated
      else
        let locator := (prefixFrom (.v6 (Octets.ofList 16 (slice value 7 off))) bits).masked
        let subLen := (at8 value off).toNat
        if value.length < off + 1 + subLen then .error .truncated
        else do
          let sub := slice value (off + 1) (off + 1 + subLen)
          let subs ← readAll (frameItem decodeLocatorSub) sub.length sub
          .ok (⟨u32At value 0, at8 value 4, at8 value 5, locator, subs.filterMap Sum.getLeft?,
            subs.filterMap Sum.getRight?⟩, value.drop (off + 1 + subLen))

/-- `decodeP2PThreeWayAdjacencyTLV(value)`. -/
def decodeP2PThreeWay (value : Bytes) : Except CodecError P2PThreeWay :=
  if value.length = 1 then .ok ⟨at8 value 0, none, none⟩
  else if value.length = 5 then .ok ⟨at8 value 0, some (u32At value 1), none⟩
  else if value.length = 15 then
    .ok ⟨at8 value 0, some (u32At value 1), some (systemIDAt value 5, u32At value 11)⟩
  else .error .badTLV

/-- `decodeRestartTLV(value)`. -/
def decodeRestart (value : Bytes) : Except CodecError Restart :=
  let f := at8 value 0
  let mk := Restart.mk (f &&& 1 != 0) (f &&& 2 != 0) (f &&& 4 != 0)
  if value.length = 1 then .ok (mk none none)
  else if value.length = 3 then .ok (mk (some (u16At value 1)) none)
  else if value.length = 9 then .ok (mk (some (u16At value 1)) (some (systemIDAt value 3)))
  else .error .badTLV

/-- The registered decoder of a TLV type, or the opaque form. -/
def decodeTLV (typ : UInt8) (value : Bytes) : Except CodecError TLV :=
  if typ = tlvTypeAreaAddresses then do
    .ok (.areaAddresses (← readAll areaAddressItem value.length value))
  else if typ = tlvTypeISNeighbors then do
    .ok (.isNeighbors (← decodeChunks 6 (Octets.ofList 6) value))
  else if typ = tlvTypePadding then .ok (.padding value.length)
  else if typ = tlvTypeLSPEntries then do
    .ok (.lspEntries (← decodeChunks 16 LSPEntry.decode value))
  else if typ = tlvTypeAuthentication then
    match value with
    | [] => .error .truncated
    | t :: v => .ok (.authentication t v)
  else if typ = tlvTypeExtendedISReachability then do
    .ok (.extendedISReachability (← decodeISReachEntries value))
  else if typ = tlvTypeSRv6Locator then do
    let (mtid, rest) ← decodeMTID value
    .ok (.srv6Locator mtid (← readAll srv6LocatorItem rest.length rest))
  else if typ = tlvTypeProtocolsSupported then .ok (.protocolsSupported value)
  else if typ = tlvTypeIPInterfaceAddresses then do
    .ok (.ipInterfaceAddresses (← decodeChunks 4 (fun b => .v4 (Octets.ofList 4 b)) value))
  else if typ = tlvTypeExtendedIPReachability then do
    .ok (.extendedIPReachability (← decodePrefixReach false value))
  else if typ = tlvTypeDynamicHostname then
    if value.length < 1 then .error .truncated else .ok (.dynamicHostname value)
  else if typ = tlvTypeRestart then do .ok (.restart (← decodeRestart value))
  else if typ = tlvTypeMTISReachability then do
    let (mtid, rest) ← decodeMTID value
    .ok (.mtISReachability mtid (← decodeISReachEntries rest))
  else if typ = tlvTypeMTopologies then do
    .ok (.mTopologies (← decodeChunks 2 MTopologyEntry.decode value))
  else if typ = tlvTypeIPv6InterfaceAddresses then do
    .ok (.ipv6InterfaceAddresses (← decodeChunks 16 (fun b => .v6 (Octets.ofList 16 b)) value))
  else if typ = tlvTypeMTIPReachability then do
    let (mtid, rest) ← decodeMTID value
    .ok (.mtIPReachability mtid (← decodePrefixReach false rest))
  else if typ = tlvTypeIPv6Reachability then do
    .ok (.ipv6Reachability (← decodePrefixReach true value))
  else if typ = tlvTypeMTIPv6Reachability then do
    let (mtid, rest) ← decodeMTID value
    .ok (.mtIPv6Reachability mtid (← decodePrefixReach true rest))
  else if typ = tlvTypeP2PThreeWayAdjacency then do
    .ok (.p2pThreeWayAdjacency (← decodeP2PThreeWay value))
  else if typ = tlvTypeRouterCapability then
    if value.length < 5 then .error .truncated
    else do
      let subs ← decodeSubTLVs .routerCapability (value.drop 5)
      .ok (.routerCapability (.v4 (Octets.ofList 4 value)) (at8 value 4) subs)
  else .ok (.unknown typ value)

/-- `decodeTLVs(b)`. -/
def decodeTLVs (b : Bytes) : Except CodecError (List TLV) :=
  readAll (frameItem decodeTLV) b.length b

end Goisis.Packet
