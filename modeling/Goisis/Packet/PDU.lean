import Goisis.Packet.Checksum
import Goisis.Packet.TLV

/-!
# PDUs: framing, link state PDUs, sequence numbers PDUs and hellos

Model of `pkg/packet/packet.go`, `lsp.go`, `snp.go` and `hello.go`: the common header, the PDU
structs, their `Serialize` methods and `DecodePDU`.

`(*LSP).Serialize` writes the Fletcher checksum into the bytes and caches it on the struct, so
`LSP.serialize` returns both. What the rest of the development needs from the codec is said here
once:

* `serialize_fields` — the header fields of a serialized LSP, its validity and its cached checksum;
* `decodePDU_lsp_fields` — a decoded LSP carries the header fields of the bytes it came from.
-/

namespace Goisis.Packet

open Lib

variable {b : Bytes} {t : PDUType} {h : CommonHeader}

/-! ## PDU types and the common header -/

/-- `PDUType`. -/
inductive PDUType where
  | l1LANHello | l2LANHello | p2pHello | l1LSP | l2LSP | l1CSNP | l2CSNP | l1PSNP | l2PSNP
deriving DecidableEq, Repr

/-- The 5-bit type code. -/
def PDUType.code : PDUType → UInt8
  | .l1LANHello => 15
  | .l2LANHello => 16
  | .p2pHello => 17
  | .l1LSP => 18
  | .l2LSP => 20
  | .l1CSNP => 24
  | .l2CSNP => 25
  | .l1PSNP => 26
  | .l2PSNP => 27

/-- The registered types (`pduDecoders`). -/
def PDUType.ofCode (c : UInt8) : Option PDUType :=
  [PDUType.l1LANHello, .l2LANHello, .p2pHello, .l1LSP, .l2LSP, .l1CSNP, .l2CSNP, .l1PSNP,
    .l2PSNP].find? (·.code = c)

/-- `commonHeader`. -/
structure CommonHeader where
  lengthIndicator : UInt8
  pduType : UInt8
  maxAreaAddresses : UInt8
deriving DecidableEq, Repr

/-- `decodeCommonHeader(b)`. -/
def decodeCommonHeader (b : Bytes) : Except CodecError CommonHeader :=
  if b.length < 8 then .error .truncated
  else if at8 b 0 ≠ 0x83 then .error .badDiscriminator
  else if at8 b 2 ≠ 1 then .error .badVersion
  else if at8 b 3 ≠ 0 ∧ at8 b 3 ≠ 6 then .error .badIDLength
  else if at8 b 5 ≠ 1 then .error .badVersion
  else .ok ⟨at8 b 1, at8 b 4 &&& 0x1f, at8 b 7⟩

/-- `putCommonHeader(b, t, lengthIndicator)`. -/
def putCommonHeader (t : PDUType) (lengthIndicator : UInt8) : Bytes :=
  [0x83, lengthIndicator, 1, 0, t.code, 1, 0, 0]

def lspHeaderLen : Nat := 27
def csnpHeaderLen : Nat := 33
def psnpHeaderLen : Nat := 17
def lanHelloHeaderLen : Nat := 27
def p2pHelloHeaderLen : Nat := 20

/-- `pduLenOffset(t)`; the types the source gives no offset for have no decoder either. -/
def pduLenOffset : PDUType → Nat
  | .l1LANHello | .l2LANHello | .p2pHello => 17
  | _ => 8

/-- `HeaderLen(t)`. -/
def headerLen : PDUType → Nat
  | .l1LANHello | .l2LANHello => lanHelloHeaderLen
  | .p2pHello => p2pHelloHeaderLen
  | .l1LSP | .l2LSP => lspHeaderLen
  | .l1CSNP | .l2CSNP => csnpHeaderLen
  | .l1PSNP | .l2PSNP => psnpHeaderLen

/-- `checkFixedHeader(h, b, minLen)`: the PDU trimmed to its declared length. -/
def checkFixedHeader (h : CommonHeader) (t : PDUType) (b : Bytes) (minLen : Nat) :
    Except CodecError Bytes :=
  if h.lengthIndicator.toNat ≠ minLen then .error .badFixedHeader
  else if b.length < minLen then .error .truncated
  else
    let pduLen := (u16At b (pduLenOffset t)).toNat
    if pduLen < minLen then .error .badFixedHeader
    else if pduLen > b.length then .error .truncated
    else .ok (b.take pduLen)

/-- `TrimToPDULength(b)`. -/
def trimToPDULength (b : Bytes) : Bytes :=
  match decodeCommonHeader b with
  | .error _ => b
  | .ok h =>
    match PDUType.ofCode h.pduType with
    | none => b
    | some t =>
      let off := pduLenOffset t
      if b.length < off + 2 then b
      else
        let n := (u16At b off).toNat
        if n < 8 ∨ n > b.length then b else b.take n

/-! ## Link state PDUs -/

/-- `LSP`; `checksum` is the field as decoded, recomputed by `serialize`. -/
structure LSP where
  level : Level
  remainingTime : UInt16
  lspID : LSPID
  sequenceNumber : UInt32
  checksum : UInt16 := 0
  partition : Bool := false
  attError : Bool := false
  attExpense : Bool := false
  attDelay : Bool := false
  attDefault : Bool := false
  overload : Bool := false
  isType : UInt8
  tlvs : List TLV
deriving DecidableEq, Repr

/-- `(*LSP).PDUType`. -/
def LSP.pduType (p : LSP) : PDUType :=
  match p.level with
  | .level1 => .l1LSP
  | .level2 => .l2LSP

/-- `(*LSP).flagsOctet`. -/
def LSP.flagsOctet (p : LSP) : UInt8 :=
  (if p.partition then 0x80 else 0) ||| (if p.attError then 0x40 else 0) |||
    (if p.attExpense then 0x20 else 0) ||| (if p.attDelay then 0x10 else 0) |||
    (if p.attDefault then 0x08 else 0) ||| (if p.overload then 0x04 else 0) ||| (p.isType &&& 0x03)

/-- The octets before the LSP ID: common header, PDU length, remaining lifetime. -/
def LSP.front (p : LSP) (tlvs : Bytes) : Bytes :=
  putCommonHeader p.pduType 27 ++ be16 (UInt16.ofNat (lspHeaderLen + tlvs.length)) ++
    be16 p.remainingTime

/-- `(*LSP).serializeWithChecksum(sum)`, from the serialized TLV area. -/
def LSP.render (p : LSP) (tlvs : Bytes) (sum : UInt16) : Bytes :=
  p.front tlvs ++ (p.lspID.toBytes ++ (be32 p.sequenceNumber ++ (be16 sum ++ p.flagsOctet :: tlvs)))

/-- `(*LSP).Serialize`: the bytes, and the struct with the computed checksum cached on it. The
checksum octets are zero while it is computed. -/
def LSP.serialize (p : LSP) : Except CodecError (Bytes × LSP) :=
  match serializeTLVs p.tlvs with
  | .error e => .error e
  | .ok tlvs =>
    let b := p.render tlvs 0
    let sum := fletcherChecksum (b.drop 12) 12
    .ok (putU16 b 24 sum, { p with checksum := sum })

/-- `LSPChecksumValidRaw(raw)`. -/
def lspChecksumValidRaw (raw : Bytes) : Bool :=
  if raw.length < lspHeaderLen then false else fletcherValid (raw.drop 12)

/-- `decodeLSP(level, h, b)`. -/
def decodeLSP (level : Level) (t : PDUType) (h : CommonHeader) (b : Bytes) :
    Except CodecError LSP := do
  let b ← checkFixedHeader h t b lspHeaderLen
  let tlvs ← decodeTLVs (b.drop lspHeaderLen)
  let flags := at8 b 26
  .ok {
    level := level
    remainingTime := u16At b 10
    lspID := lspIDAt b 12
    sequenceNumber := u32At b 20
    checksum := u16At b 24
    partition := flags &&& 0x80 != 0
    attError := flags &&& 0x40 != 0
    attExpense := flags &&& 0x20 != 0
    attDelay := flags &&& 0x10 != 0
    attDefault := flags &&& 0x08 != 0
    overload := flags &&& 0x04 != 0
    isType := flags &&& 0x03
    tlvs := tlvs }

/-! ## Sequence numbers PDUs -/

/-- `CSNP`. -/
structure CSNP where
  level : Level
  sourceID : NodeID
  startLSP : LSPID
  endLSP : LSPID
  tlvs : List TLV
deriving DecidableEq, Repr

/-- `(*CSNP).PDUType`. -/
def CSNP.pduType (p : CSNP) : PDUType :=
  match p.level with
  | .level1 => .l1CSNP
  | .level2 => .l2CSNP

/-- `(*CSNP).Serialize`. -/
def CSNP.serialize (p : CSNP) : Except CodecError Bytes := do
  let tlvs ← serializeTLVs p.tlvs
  .ok (putCommonHeader p.pduType 33 ++ be16 (UInt16.ofNat (csnpHeaderLen + tlvs.length)) ++
    p.sourceID.toBytes ++ p.startLSP.toBytes ++ p.endLSP.toBytes ++ tlvs)

/-- `decodeCSNP(level, h, b)`. -/
def decodeCSNP (level : Level) (t : PDUType) (h : CommonHeader) (b : Bytes) :
    Except CodecError CSNP := do
  let b ← checkFixedHeader h t b csnpHeaderLen
  let tlvs ← decodeTLVs (b.drop csnpHeaderLen)
  .ok ⟨level, nodeIDAt b 10, lspIDAt b 17, lspIDAt b 25, tlvs⟩

/-- `PSNP`. -/
structure PSNP where
  level : Level
  sourceID : NodeID
  tlvs : List TLV
deriving DecidableEq, Repr

/-- `(*PSNP).PDUType`. -/
def PSNP.pduType (p : PSNP) : PDUType :=
  match p.level with
  | .level1 => .l1PSNP
  | .level2 => .l2PSNP

/-- `(*PSNP).Serialize`. -/
def PSNP.serialize (p : PSNP) : Except CodecError Bytes := do
  let tlvs ← serializeTLVs p.tlvs
  .ok (putCommonHeader p.pduType 17 ++ be16 (UInt16.ofNat (psnpHeaderLen + tlvs.length)) ++
    p.sourceID.toBytes ++ tlvs)

/-- `decodePSNP(level, h, b)`. -/
def decodePSNP (level : Level) (t : PDUType) (h : CommonHeader) (b : Bytes) :
    Except CodecError PSNP := do
  let b ← checkFixedHeader h t b psnpHeaderLen
  let tlvs ← decodeTLVs (b.drop psnpHeaderLen)
  .ok ⟨level, nodeIDAt b 10, tlvs⟩

/-! ## Hellos -/

/-- `LANHello`. -/
structure LANHello where
  level : Level
  circuitType : UInt8
  sourceID : SystemID
  holdingTime : UInt16
  priority : UInt8
  lanID : NodeID
  tlvs : List TLV
deriving DecidableEq, Repr

/-- `(*LANHello).PDUType`. -/
def LANHello.pduType (p : LANHello) : PDUType :=
  match p.level with
  | .level1 => .l1LANHello
  | .level2 => .l2LANHello

/-- `(*LANHello).Serialize`. -/
def LANHello.serialize (p : LANHello) : Except CodecError Bytes := do
  let tlvs ← serializeTLVs p.tlvs
  .ok (putCommonHeader p.pduType 27 ++ (p.circuitType &&& 0x03) :: p.sourceID.val ++
    be16 p.holdingTime ++ be16 (UInt16.ofNat (lanHelloHeaderLen + tlvs.length)) ++
    (p.priority &&& 0x7f) :: p.lanID.toBytes ++ tlvs)

/-- `decodeLANHello(level, h, b)`. -/
def decodeLANHello (level : Level) (t : PDUType) (h : CommonHeader) (b : Bytes) :
    Except CodecError LANHello := do
  let b ← checkFixedHeader h t b lanHelloHeaderLen
  let tlvs ← decodeTLVs (b.drop lanHelloHeaderLen)
  .ok ⟨level, at8 b 8 &&& 0x03, systemIDAt b 9, u16At b 15, at8 b 19 &&& 0x7f, nodeIDAt b 20, tlvs⟩

/-- `P2PHello`. -/
structure P2PHello where
  circuitType : UInt8
  sourceID : SystemID
  holdingTime : UInt16
  localCircuitID : UInt8
  tlvs : List TLV
deriving DecidableEq, Repr

/-- `(*P2PHello).Serialize`. -/
def P2PHello.serialize (p : P2PHello) : Except CodecError Bytes := do
  let tlvs ← serializeTLVs p.tlvs
  .ok (putCommonHeader .p2pHello 20 ++ (p.circuitType &&& 0x03) :: p.sourceID.val ++
    be16 p.holdingTime ++ be16 (UInt16.ofNat (p2pHelloHeaderLen + tlvs.length)) ++
    p.localCircuitID :: tlvs)

/-- `decodeP2PHello(h, b)`. -/
def decodeP2PHello (t : PDUType) (h : CommonHeader) (b : Bytes) : Except CodecError P2PHello := do
  let b ← checkFixedHeader h t b p2pHelloHeaderLen
  let tlvs ← decodeTLVs (b.drop p2pHelloHeaderLen)
  .ok ⟨at8 b 8 &&& 0x03, systemIDAt b 9, u16At b 15, at8 b 19, tlvs⟩

/-! ## `DecodePDU` -/

/-- A decoded PDU. -/
inductive PDU where
  | lanHello (p : LANHello)
  | p2pHello (p : P2PHello)
  | lsp (p : LSP)
  | csnp (p : CSNP)
  | psnp (p : PSNP)
deriving DecidableEq, Repr

/-- `PDU.PDUType`. -/
def PDU.pduType : PDU → PDUType
  | .lanHello p => p.pduType
  | .p2pHello _ => .p2pHello
  | .lsp p => p.pduType
  | .csnp p => p.pduType
  | .psnp p => p.pduType

/-- `PDU.Serialize`: the bytes (that an LSP also caches its checksum is `LSP.serialize`'s). -/
def PDU.serialize : PDU → Except CodecError Bytes
  | .lanHello p => p.serialize
  | .p2pHello p => p.serialize
  | .lsp p => do
    let (b, _) ← p.serialize
    .ok b
  | .csnp p => p.serialize
  | .psnp p => p.serialize

/-- The registered decoder of a PDU type. -/
def pduDecoder (t : PDUType) (h : CommonHeader) (b : Bytes) : Except CodecError PDU :=
  match t with
  | .l1LANHello => return .lanHello (← decodeLANHello .level1 t h b)
  | .l2LANHello => return .lanHello (← decodeLANHello .level2 t h b)
  | .p2pHello => return .p2pHello (← decodeP2PHello t h b)
  | .l1LSP => return .lsp (← decodeLSP .level1 t h b)
  | .l2LSP => return .lsp (← decodeLSP .level2 t h b)
  | .l1CSNP => return .csnp (← decodeCSNP .level1 t h b)
  | .l2CSNP => return .csnp (← decodeCSNP .level2 t h b)
  | .l1PSNP => return .psnp (← decodePSNP .level1 t h b)
  | .l2PSNP => return .psnp (← decodePSNP .level2 t h b)

/-- `DecodePDU(b)`. -/
def decodePDU (b : Bytes) : Except CodecError PDU :=
  match decodeCommonHeader b with
  | .error e => .error e
  | .ok h =>
    match PDUType.ofCode h.pduType with
    | none => .error .unknownPDUType
    | some t => pduDecoder t h b

/-! ## The header fields of an LSP -/

/-- The fixed header of `raw` carries the level, LSP ID and sequence number of `p`. -/
structure LSP.HeaderAgrees (p : LSP) (raw : Bytes) : Prop where
  /-- The fixed header is all there. -/
  length : lspHeaderLen ≤ raw.length
  /-- The PDU type is the one of the LSP's level. -/
  pduType : at8 raw 4 &&& 0x1f = p.pduType.code
  /-- The LSP ID, octets 12 to 19. -/
  lspID : lspIDAt raw 12 = p.lspID
  /-- The sequence number, octets 20 to 23. -/
  sequenceNumber : u32At raw 20 = p.sequenceNumber

/-- The header agreement reads the type octet and octets 12 to 23 only. -/
theorem LSP.HeaderAgrees.congr {p : LSP} {raw raw' : Bytes} (h : p.HeaderAgrees raw)
    (hlen : raw.length ≤ raw'.length) (ht : at8 raw' 4 = at8 raw 4)
    (hat : ∀ j, 12 ≤ j → j < 24 → at8 raw' j = at8 raw j) : p.HeaderAgrees raw' where
  length := Nat.le_trans h.length hlen
  pduType := by rw [ht]; exact h.pduType
  lspID := by
    rw [← h.lspID]
    exact lspIDAt_congr fun k hk => hat _ (by omega) (by omega)
  sequenceNumber := by
    rw [← h.sequenceNumber]
    exact u32At_congr fun k hk => hat _ (by omega) (by omega)

section Render

variable (p : LSP) (tlvs : Bytes)

theorem LSP.render_putU16 (a b : UInt16) : putU16 (p.render tlvs a) 24 b = p.render tlvs b := by
  obtain ⟨_, _, _, _, _, _, _, _, hid⟩ := p.lspID.octets
  simp only [LSP.render, hid]
  rfl

theorem LSP.length_render (sum : UInt16) :
    (p.render tlvs sum).length = lspHeaderLen + tlvs.length := by
  obtain ⟨_, _, _, _, _, _, _, _, hid⟩ := p.lspID.octets
  simp only [LSP.render, hid]
  exact Nat.add_comm tlvs.length 27

theorem LSP.drop_render (sum : UInt16) : (p.render tlvs sum).drop lspHeaderLen = tlvs := by
  obtain ⟨_, _, _, _, _, _, _, _, hid⟩ := p.lspID.octets
  simp only [LSP.render, hid]
  rfl

/-- The fields of a rendered LSP. -/
theorem LSP.fields_render (sum : UInt16) :
    u16At (p.render tlvs sum) 8 = UInt16.ofNat (lspHeaderLen + tlvs.length) ∧
      u16At (p.render tlvs sum) 10 = p.remainingTime ∧ lspIDAt (p.render tlvs sum) 12 = p.lspID ∧
      u32At (p.render tlvs sum) 20 = p.sequenceNumber ∧ u16At (p.render tlvs sum) 24 = sum ∧
      at8 (p.render tlvs sum) 26 = p.flagsOctet := by
  obtain ⟨_, _, _, _, _, _, _, _, hid⟩ := p.lspID.octets
  simp only [LSP.render, hid]
  exact ⟨u16_be16 _, u16_be16 _, rfl, u32_be32 _, u16_be16 _, rfl⟩

theorem LSP.headerAgrees_render (sum : UInt16) : p.HeaderAgrees (p.render tlvs sum) where
  length := by rw [LSP.length_render]; omega
  pduType := by
    have h4 : at8 (p.render tlvs sum) 4 = p.pduType.code := rfl
    rw [h4]
    unfold LSP.pduType
    cases p.level <;> decide
  lspID := (p.fields_render tlvs sum).2.2.1
  sequenceNumber := (p.fields_render tlvs sum).2.2.2.1

theorem LSP.at8_render_checksum : at8 (p.render tlvs 0) 24 = 0 ∧ at8 (p.render tlvs 0) 25 = 0 := by
  obtain ⟨_, _, _, _, _, _, _, _, hid⟩ := p.lspID.octets
  simp only [LSP.render, hid]
  exact ⟨rfl, rfl⟩

end Render

/-- Putting the checksum at offset 24 puts it at offset 12 of the covered part. -/
theorem drop_putU16 (b : Bytes) (v : UInt16) :
    (putU16 b 24 v).drop 12 = putU16 (b.drop 12) 12 v := by
  simp [putU16, List.drop_set]

/-- Writing the computed checksum over a zeroed field makes the LSP verify. -/
theorem lspChecksumValidRaw_putU16 (hlen : lspHeaderLen ≤ b.length) (h24 : at8 b 24 = 0)
    (h25 : at8 b 25 = 0) :
    lspChecksumValidRaw (putU16 b 24 (fletcherChecksum (b.drop 12) 12)) = true := by
  have hlen' : 27 ≤ b.length := hlen
  unfold lspChecksumValidRaw
  rw [length_putU16, if_neg (by omega), drop_putU16]
  apply fletcherValid_putU16
  · rw [List.length_drop]; omega
  · rw [at8_drop]; exact h24
  · rw [at8_drop]; exact h25

/-- **What `Serialize` writes**: the header fields of the struct, a checksum that verifies, and the
same checksum cached on the struct. -/
theorem serialize_fields {p p' : LSP} {raw : Bytes} (h : p.serialize = .ok (raw, p')) :
    p'.HeaderAgrees raw ∧ u16At raw 24 = p'.checksum ∧ lspChecksumValidRaw raw = true ∧
      p' = { p with checksum := p'.checksum } := by
  unfold LSP.serialize at h
  cases ht : serializeTLVs p.tlvs with
  | error e => rw [ht] at h; simp at h
  | ok tlvs =>
    rw [ht] at h
    obtain ⟨rfl, rfl⟩ := h
    obtain ⟨h24, h25⟩ := p.at8_render_checksum tlvs
    have hvalid := lspChecksumValidRaw_putU16 (b := p.render tlvs 0)
      (by rw [LSP.length_render]; omega) h24 h25
    rw [LSP.render_putU16] at hvalid ⊢
    exact ⟨LSP.headerAgrees_render { p with checksum := _ } tlvs _,
      (p.fields_render tlvs _).2.2.2.2.1, hvalid, rfl⟩

theorem PDUType.code_of_ofCode {c : UInt8} (h : PDUType.ofCode c = some t) : t.code = c := by
  simpa using List.find?_some h

theorem checkFixedHeader_eq_ok {b b' : Bytes} {minLen : Nat}
    (hc : checkFixedHeader h t b minLen = .ok b') :
    h.lengthIndicator.toNat = minLen ∧ minLen ≤ (u16At b (pduLenOffset t)).toNat ∧
      (u16At b (pduLenOffset t)).toNat ≤ b.length ∧
      b' = b.take (u16At b (pduLenOffset t)).toNat := by
  unfold checkFixedHeader at hc
  split at hc
  · cases hc
  rename_i hli
  split at hc
  · cases hc
  simp only at hc
  split at hc
  · cases hc
  split at hc
  · cases hc
  exact ⟨not_not.mp hli, by omega, by omega, (Except.ok.inj hc).symm⟩

/-- What `decodeLSP` reads out of the fixed header of the untrimmed bytes. -/
theorem decodeLSP_fields {level : Level} {l : LSP} (hd : decodeLSP level t h b = .ok l) :
    lspHeaderLen ≤ b.length ∧ l.level = level ∧ lspIDAt b 12 = l.lspID ∧
      u32At b 20 = l.sequenceNumber ∧ u16At b 24 = l.checksum ∧ u16At b 10 = l.remainingTime := by
  unfold decodeLSP at hd
  cases hc : checkFixedHeader h t b lspHeaderLen with
  | error e => rw [hc] at hd; simp [bind, Except.bind] at hd
  | ok b' =>
    obtain ⟨-, hn, hlen, rfl⟩ := checkFixedHeader_eq_ok hc
    generalize (u16At b (pduLenOffset t)).toNat = n at hc hn hlen
    have hn27 : 27 ≤ n := hn
    rw [hc] at hd
    cases ht : decodeTLVs ((b.take n).drop lspHeaderLen) with
    | error e => simp [bind, Except.bind, ht] at hd
    | ok tlvs =>
      simp only [bind, Except.bind, ht, Except.ok.injEq] at hd
      subst hd
      refine ⟨Nat.le_trans hn hlen, rfl, ?_, ?_, ?_, ?_⟩
      · exact (lspIDAt_congr fun k hk => at8_take (by omega)).symm
      · exact (u32At_congr fun k hk => at8_take (by omega)).symm
      · exact (u16At_congr fun k hk => at8_take (by omega)).symm
      · exact (u16At_congr fun k hk => at8_take (by omega)).symm

theorem decodeCommonHeader_pduType (hd : decodeCommonHeader b = .ok h) :
    h.pduType = at8 b 4 &&& 0x1f := by
  unfold decodeCommonHeader at hd
  repeat' split at hd
  all_goals cases hd
  rfl

/-- **What `DecodePDU` reads**: a decoded LSP carries the header fields of the bytes it was decoded
from. -/
theorem decodePDU_lsp_fields {raw : Bytes} {l : LSP} (h : decodePDU raw = .ok (.lsp l)) :
    l.HeaderAgrees raw ∧ u16At raw 24 = l.checksum ∧ u16At raw 10 = l.remainingTime := by
  unfold decodePDU at h
  cases hh : decodeCommonHeader raw with
  | error e => rw [hh] at h; simp at h
  | ok hdr =>
    rw [hh] at h
    cases ht : PDUType.ofCode hdr.pduType with
    | none => simp [ht] at h
    | some t =>
      have hcode : t.code = at8 raw 4 &&& 0x1f := by
        rw [PDUType.code_of_ofCode ht, decodeCommonHeader_pduType hh]
      -- only the two LSP decoders produce an LSP, each at its own level
      obtain ⟨level, hd, hlt⟩ : ∃ level, decodeLSP level t hdr raw = .ok l ∧
          (l.level = level → t = l.pduType) := by
        simp only [ht, pduDecoder] at h
        cases t <;> simp only [bind, Except.bind, pure, Except.pure] at h <;> split at h <;>
          cases h
        · exact ⟨.level1, ‹_›, fun hl => by simp [LSP.pduType, hl]⟩
        · exact ⟨.level2, ‹_›, fun hl => by simp [LSP.pduType, hl]⟩
      obtain ⟨hlen, hlevel, hid, hseq, hsum, hrem⟩ := decodeLSP_fields hd
      exact ⟨⟨hlen, by rw [← hcode, hlt hlevel], hid, hseq⟩, hsum, hrem⟩

/-- The level of an LSP is read off its type octet. -/
theorem LSP.level_eq_of_pduType {p q : LSP} (h : p.pduType.code = q.pduType.code) :
    p.level = q.level := by
  unfold LSP.pduType at h
  cases hp : p.level <;> cases hq : q.level <;> simp [hp, hq, PDUType.code] at h ⊢

end Goisis.Packet
