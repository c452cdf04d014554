import Goisis.Packet.PDU
import Goisis.Packet.TLVCodec

/-!
# PDUs round trip

Headline results:

* `decodePDU_serialize` — a canonical PDU is read back from its own encoding; for an LSP the
  decoded checksum is the one `Serialize` cached (`LSP.decodesBack`);
* `codec_fixed_point` — whatever `DecodePDU` accepts encodes again within its declared PDU length,
  the encoding decodes to the same PDU up to the cached LSP checksum and encodes to itself, and
  octets after the declared length change nothing.
-/

namespace Goisis.Packet

open Lib List PDU PDUType

variable {b raw : Bytes} {t : PDUType} {p : PDU}

/-! ## The common header and the PDU length -/

theorem PDUType.ofCode_code (t : PDUType) : ofCode t.code = some t := by
  cases t <;> decide

theorem PDUType.code_and (t : PDUType) : t.code &&& 0x1f = t.code := by
  cases t <;> decide

theorem toNat_headerLen (t : PDUType) : (UInt8.ofNat (headerLen t)).toNat = headerLen t := by
  cases t <;> decide

/-- The common header of a PDU we render. -/
def ownHeader (t : PDUType) : CommonHeader := ⟨UInt8.ofNat (headerLen t), t.code, 0⟩

theorem decodeCommonHeader_put (t : PDUType) (tail : Bytes) :
    decodeCommonHeader (putCommonHeader t (UInt8.ofNat (headerLen t)) ++ tail) =
      .ok (ownHeader t) := by
  have hlen : ¬(putCommonHeader t (UInt8.ofNat (headerLen t)) ++ tail).length < 8 := by
    simp [putCommonHeader]
  rw [decodeCommonHeader, if_neg hlen, ownHeader, ← t.code_and]
  rfl

theorem decodePDU_put (hb : b.take 8 = putCommonHeader t (UInt8.ofNat (headerLen t))) :
    decodePDU b = pduDecoder t (ownHeader t) b := by
  have hhdr := decodeCommonHeader_put t (b.drop 8)
  rw [← hb, take_append_drop] at hhdr
  rw [decodePDU, hhdr]
  simp only [ownHeader, ofCode_code]

/-- A PDU whose length field is its length is not trimmed. -/
theorem checkFixedHeader_own (hmin : headerLen t ≤ b.length)
    (hlen : (u16At b (pduLenOffset t)).toNat = b.length) :
    checkFixedHeader (ownHeader t) t b (headerLen t) = .ok b := by
  simp only [checkFixedHeader, ownHeader, toNat_headerLen, hlen]
  rw [if_neg (by omega), if_neg (by omega), if_neg (by omega), if_neg (by omega),
    take_of_length_le (Nat.le_refl _)]

/-! ## What is read behind the fixed header check -/

/-- The fields of an LSP. -/
def LSP.ofFields (level : Level) (b : Bytes) (tlvs : List TLV) : LSP where
  level := level
  remainingTime := u16At b 10
  lspID := lspIDAt b 12
  sequenceNumber := u32At b 20
  checksum := u16At b 24
  partition := at8 b 26 &&& 0x80 != 0
  attError := at8 b 26 &&& 0x40 != 0
  attExpense := at8 b 26 &&& 0x20 != 0
  attDelay := at8 b 26 &&& 0x10 != 0
  attDefault := at8 b 26 &&& 0x08 != 0
  overload := at8 b 26 &&& 0x04 != 0
  isType := at8 b 26 &&& 0x03
  tlvs := tlvs

/-- The fields of a LAN hello. -/
def LANHello.ofFields (level : Level) (b : Bytes) (tlvs : List TLV) : LANHello :=
  ⟨level, at8 b 8 &&& 0x03, systemIDAt b 9, u16At b 15, at8 b 19 &&& 0x7f, nodeIDAt b 20, tlvs⟩

/-- The fields of a PDU, by its type. -/
def PDU.ofFields (t : PDUType) (b : Bytes) (tlvs : List TLV) : PDU :=
  match t with
  | .l1LANHello => .lanHello (.ofFields .level1 b tlvs)
  | .l2LANHello => .lanHello (.ofFields .level2 b tlvs)
  | .p2pHello => .p2pHello ⟨at8 b 8 &&& 0x03, systemIDAt b 9, u16At b 15, at8 b 19, tlvs⟩
  | .l1LSP => .lsp (.ofFields .level1 b tlvs)
  | .l2LSP => .lsp (.ofFields .level2 b tlvs)
  | .l1CSNP => .csnp ⟨.level1, nodeIDAt b 10, lspIDAt b 17, lspIDAt b 25, tlvs⟩
  | .l2CSNP => .csnp ⟨.level2, nodeIDAt b 10, lspIDAt b 17, lspIDAt b 25, tlvs⟩
  | .l1PSNP => .psnp ⟨.level1, nodeIDAt b 10, tlvs⟩
  | .l2PSNP => .psnp ⟨.level2, nodeIDAt b 10, tlvs⟩

/-- All nine decoders check the header, then the TLV area, then fill the fields. -/
theorem pduDecoder_eq (t : PDUType) (h : CommonHeader) (b : Bytes) :
    pduDecoder t h b = (checkFixedHeader h t b (headerLen t) >>= fun b =>
      decodeTLVs (b.drop (headerLen t)) >>= fun tlvs => .ok (ofFields t b tlvs)) := by
  cases t <;>
    simp only [pduDecoder, decodeLANHello, decodeP2PHello, decodeLSP, decodeCSNP, decodePSNP,
      headerLen, bind_assoc] <;> rfl

theorem PDU.pduType_ofFields (t : PDUType) (b : Bytes) (tlvs : List TLV) :
    (ofFields t b tlvs).pduType = t := by
  cases t <;> rfl

/-- What it takes for `DecodePDU` to accept. -/
theorem decodePDU_eq_ok (h : decodePDU b = .ok p) :
    ∃ hdr t tlvs, decodeCommonHeader b = .ok hdr ∧ ofCode hdr.pduType = some t ∧
      hdr.lengthIndicator.toNat = headerLen t ∧
      headerLen t ≤ (u16At b (pduLenOffset t)).toNat ∧
      (u16At b (pduLenOffset t)).toNat ≤ b.length ∧
      decodeTLVs ((b.take (u16At b (pduLenOffset t)).toNat).drop (headerLen t)) = .ok tlvs ∧
      p = .ofFields t (b.take (u16At b (pduLenOffset t)).toNat) tlvs := by
  unfold decodePDU at h
  cases hh : decodeCommonHeader b with
  | error e => simp [hh] at h
  | ok hdr =>
    cases ht : ofCode hdr.pduType with
    | none => simp [hh, ht] at h
    | some t =>
      simp only [hh, ht, pduDecoder_eq] at h
      obtain ⟨b', hc, h⟩ := bind_eq_ok.mp h
      obtain ⟨tlvs, htlvs, ⟨⟩⟩ := bind_eq_ok.mp h
      obtain ⟨hli, hmin, hmax, rfl⟩ := checkFixedHeader_eq_ok hc
      exact ⟨hdr, t, tlvs, rfl, ht, hli, hmin, hmax, htlvs, rfl⟩

/-- The TLV area of a PDU. -/
def PDU.tlvs : PDU → List TLV
  | .lanHello p => p.tlvs
  | .p2pHello p => p.tlvs
  | .lsp p => p.tlvs
  | .csnp p => p.tlvs
  | .psnp p => p.tlvs

/-- A rendered PDU with a right length field decodes to its fields. -/
theorem decodePDU_rendered {area : Bytes}
    (hb : b.take 8 = putCommonHeader p.pduType (UInt8.ofNat (headerLen p.pduType)))
    (hdrop : b.drop (headerLen p.pduType) = area)
    (hlen : b.length = headerLen p.pduType + area.length)
    (hfield : u16At b (pduLenOffset p.pduType) = UInt16.ofNat (headerLen p.pduType + area.length))
    (hmax : b.length ≤ 65535) (hread : decodeTLVs area = .ok p.tlvs)
    (hp : ofFields p.pduType b p.tlvs = p) : decodePDU b = .ok p := by
  have hown : checkFixedHeader (ownHeader p.pduType) p.pduType b (headerLen p.pduType) = .ok b :=
    checkFixedHeader_own (by omega) (by rw [hfield, ← hlen, toNat_ofNat16 hmax])
  rw [decodePDU_put hb, pduDecoder_eq, hown, ok_bind, hdrop, hread, ok_bind, hp]

/-! ## Link state PDUs -/

theorem lsp_flags : ∀ partition attError attExpense attDelay attDefault overload : Bool, ∀ x < 4,
    let f : UInt8 := (if partition then 0x80 else 0) ||| (if attError then 0x40 else 0) |||
      (if attExpense then 0x20 else 0) ||| (if attDelay then 0x10 else 0) |||
      (if attDefault then 0x08 else 0) ||| (if overload then 0x04 else 0) |||
      (UInt8.ofNat x &&& 0x03)
    (f &&& 0x80 != 0) = partition ∧ (f &&& 0x40 != 0) = attError ∧ (f &&& 0x20 != 0) = attExpense ∧
      (f &&& 0x10 != 0) = attDelay ∧ (f &&& 0x08 != 0) = attDefault ∧ (f &&& 0x04 != 0) = overload ∧
      f &&& 0x03 = UInt8.ofNat x := by
  decide

/-- An LSP as the decoder gives it: a two-bit IS type and canonical TLVs. -/
def LSP.Canonical (p : LSP) : Prop := p.isType &&& 0x03 = p.isType ∧ ∀ t ∈ p.tlvs, t.Canonical

theorem isType_lt {x : UInt8} (h : x &&& 0x03 = x) : x.toNat < 4 := by
  have hle : (x &&& 0x03).toNat ≤ 3 := by
    exact Nat.and_le_right
  rw [h] at hle
  omega

theorem LSP.ofFields_render {p : LSP} (hty : p.isType &&& 0x03 = p.isType) (area : Bytes)
    (sum : UInt16) :
    LSP.ofFields p.level (p.render area sum) p.tlvs = { p with checksum := sum } := by
  have hflags := lsp_flags p.partition p.attError p.attExpense p.attDelay p.attDefault p.overload
    p.isType.toNat (isType_lt hty)
  simp only [UInt8.ofNat_toNat] at hflags
  obtain ⟨-, hrem, hid, hseq, hsum, hoctet⟩ := p.fields_render area sum
  simp only [LSP.ofFields, hrem, hid, hseq, hsum, hoctet, LSP.flagsOctet, hflags]

/-- **An LSP is read back from its own encoding**, with the checksum `Serialize` cached on it. -/
theorem LSP.decodesBack {p p' : LSP} (hc : p.Canonical) (h : p.serialize = .ok (raw, p'))
    (hlen : raw.length ≤ 65535) : decodePDU raw = .ok (.lsp p') := by
  unfold LSP.serialize at h
  cases harea : serializeTLVs p.tlvs with
  | error e => simp [harea] at h
  | ok area =>
    simp only [harea, Except.ok.injEq, Prod.mk.injEq] at h
    obtain ⟨hraw, rfl⟩ := h
    rw [LSP.render_putU16] at hraw
    subst hraw
    generalize fletcherChecksum _ _ = sum at hlen ⊢
    have hp := congrArg lsp (LSP.ofFields_render hc.1 area sum)
    obtain ⟨_ | _, _⟩ := p
    all_goals
      exact decodePDU_rendered rfl (LSP.drop_render _ area sum) (LSP.length_render _ area sum)
        (LSP.fields_render _ area sum).1 hlen (decodeTLVs_serialize hc.2 harea) hp

/-! ## Sequence numbers PDUs -/

theorem CSNP.decodesBack {p : CSNP} (hc : ∀ t ∈ p.tlvs, t.Canonical) (h : p.serialize = .ok raw)
    (hlen : raw.length ≤ 65535) : decodePDU raw = .ok (.csnp p) := by
  obtain ⟨area, harea, ⟨⟩⟩ := bind_eq_ok.mp h
  obtain ⟨_ | _, source, startLSP, endLSP, tlvs⟩ := p
  all_goals
    obtain ⟨_, _, _, _, _, _, _, rfl⟩ := source.octets
    obtain ⟨_, _, _, _, _, _, _, _, rfl⟩ := startLSP.octets
    obtain ⟨_, _, _, _, _, _, _, _, rfl⟩ := endLSP.octets
    exact decodePDU_rendered rfl rfl (Nat.add_comm area.length 33) (u16_be16 _) hlen
      (decodeTLVs_serialize hc harea) rfl

theorem PSNP.decodesBack {p : PSNP} (hc : ∀ t ∈ p.tlvs, t.Canonical) (h : p.serialize = .ok raw)
    (hlen : raw.length ≤ 65535) : decodePDU raw = .ok (.psnp p) := by
  obtain ⟨area, harea, ⟨⟩⟩ := bind_eq_ok.mp h
  obtain ⟨_ | _, source, tlvs⟩ := p
  all_goals
    obtain ⟨_, _, _, _, _, _, _, rfl⟩ := source.octets
    exact decodePDU_rendered rfl rfl (Nat.add_comm area.length 17) (u16_be16 _) hlen
      (decodeTLVs_serialize hc harea) rfl

/-! ## Hellos -/

/-- A LAN hello as the decoder gives it. -/
def LANHello.Canonical (p : LANHello) : Prop :=
  p.circuitType &&& 0x03 = p.circuitType ∧ p.priority &&& 0x7f = p.priority ∧
    ∀ t ∈ p.tlvs, t.Canonical

/-- A point-to-point hello as the decoder gives it. -/
def P2PHello.Canonical (p : P2PHello) : Prop :=
  p.circuitType &&& 0x03 = p.circuitType ∧ ∀ t ∈ p.tlvs, t.Canonical

theorem LANHello.decodesBack {p : LANHello} (hc : p.Canonical) (h : p.serialize = .ok raw)
    (hlen : raw.length ≤ 65535) : decodePDU raw = .ok (.lanHello p) := by
  obtain ⟨area, harea, ⟨⟩⟩ := bind_eq_ok.mp h
  obtain ⟨_ | _, circuitType, source, holding, priority, lanID, tlvs⟩ := p
  all_goals
    obtain ⟨hct, hprio, hc⟩ := hc
    obtain ⟨_, _, _, _, _, _, rfl⟩ := exists_octets6 source
    obtain ⟨_, _, _, _, _, _, _, rfl⟩ := lanID.octets
    refine decodePDU_rendered rfl rfl (Nat.add_comm area.length 27) (u16_be16 _) hlen
      (decodeTLVs_serialize hc harea) ?_
    show lanHello ⟨_, circuitType &&& 0x03 &&& 0x03, _, u16 (UInt8.ofNat (holding.toNat / 256))
      (UInt8.ofNat holding.toNat), priority &&& 0x7f &&& 0x7f, _, tlvs⟩ = _
    simp only [hct, hprio, u16_be16]
    rfl

theorem P2PHello.decodesBack {p : P2PHello} (hc : p.Canonical) (h : p.serialize = .ok raw)
    (hlen : raw.length ≤ 65535) : decodePDU raw = .ok (.p2pHello p) := by
  obtain ⟨area, harea, ⟨⟩⟩ := bind_eq_ok.mp h
  obtain ⟨circuitType, source, holding, localID, tlvs⟩ := p
  obtain ⟨hct, hc⟩ := hc
  obtain ⟨_, _, _, _, _, _, rfl⟩ := exists_octets6 source
  refine decodePDU_rendered rfl rfl (Nat.add_comm area.length 20) (u16_be16 _) hlen
    (decodeTLVs_serialize hc harea) ?_
  show p2pHello ⟨circuitType &&& 0x03 &&& 0x03, _, u16 (UInt8.ofNat (holding.toNat / 256))
    (UInt8.ofNat holding.toNat), _, tlvs⟩ = _
  simp only [hct, u16_be16]
  rfl

/-! ## Any PDU -/

/-- A PDU as `DecodePDU` gives it. -/
def PDU.Canonical : PDU → Prop
  | .lanHello p => p.Canonical
  | .p2pHello p => p.Canonical
  | .lsp p => p.Canonical
  | .csnp p => ∀ t ∈ p.tlvs, t.Canonical
  | .psnp p => ∀ t ∈ p.tlvs, t.Canonical

/-- The PDU without the checksum an LSP caches. -/
def PDU.eraseChecksum : PDU → PDU
  | .lsp p => .lsp { p with checksum := 0 }
  | p => p

/-- **A canonical PDU is read back from its own encoding**, up to the cached LSP checksum. -/
theorem decodePDU_serialize (hc : p.Canonical) (h : p.serialize = .ok raw)
    (hlen : raw.length ≤ 65535) :
    ∃ p', decodePDU raw = .ok p' ∧ p'.eraseChecksum = p.eraseChecksum := by
  cases p with
  | lanHello p => exact ⟨_, LANHello.decodesBack hc h hlen, rfl⟩
  | p2pHello p => exact ⟨_, P2PHello.decodesBack hc h hlen, rfl⟩
  | csnp p => exact ⟨_, CSNP.decodesBack hc h hlen, rfl⟩
  | psnp p => exact ⟨_, PSNP.decodesBack hc h hlen, rfl⟩
  | lsp p =>
    obtain ⟨⟨_, p'⟩, hser, ⟨⟩⟩ := bind_eq_ok.mp h
    have hsum := (serialize_fields hser).2.2.2
    refine ⟨_, LSP.decodesBack hc hser hlen, ?_⟩
    rw [hsum]
    rfl

/-- The cached checksum plays no part in the encoding. -/
theorem PDU.serialize_eraseChecksum (p : PDU) : p.eraseChecksum.serialize = p.serialize := by
  cases p with
  | lsp p =>
    have hrender : ∀ area sum, LSP.render { p with checksum := 0 } area sum = p.render area sum :=
      fun _ _ => rfl
    simp only [eraseChecksum, serialize, LSP.serialize, hrender]
  | lanHello p => rfl
  | p2pHello p => rfl
  | csnp p => rfl
  | psnp p => rfl

/-- A PDU encodes when its TLV area does, behind a fixed header of its type. -/
theorem PDU.serialize_of_tlvs {area : Bytes} (h : serializeTLVs p.tlvs = .ok area) :
    ∃ raw, p.serialize = .ok raw ∧ raw.length = headerLen p.pduType + area.length := by
  cases p with
  | lsp p =>
    have h : serializeTLVs p.tlvs = .ok area := h
    simp only [serialize, LSP.serialize, h, ok_bind]
    refine ⟨_, rfl, ?_⟩
    rw [length_putU16, LSP.length_render]
    cases hl : p.level <;> simp [pduType, LSP.pduType, hl, headerLen]
  | lanHello p =>
    have h : serializeTLVs p.tlvs = .ok area := h
    simp only [serialize, LANHello.serialize, h, ok_bind]
    refine ⟨_, rfl, ?_⟩
    cases hl : p.level <;> simp [pduType, LANHello.pduType, hl, headerLen, putCommonHeader, be16,
      length_octets, NodeID.length_toBytes, lanHelloHeaderLen] <;> omega
  | p2pHello p =>
    have h : serializeTLVs p.tlvs = .ok area := h
    simp only [serialize, P2PHello.serialize, h, ok_bind]
    refine ⟨_, rfl, ?_⟩
    simp [pduType, headerLen, putCommonHeader, be16, length_octets, p2pHelloHeaderLen]
    omega
  | csnp p =>
    have h : serializeTLVs p.tlvs = .ok area := h
    simp only [serialize, CSNP.serialize, h, ok_bind]
    refine ⟨_, rfl, ?_⟩
    cases hl : p.level <;> simp [pduType, CSNP.pduType, hl, headerLen, putCommonHeader, be16,
      LSPID.length_toBytes, NodeID.length_toBytes, csnpHeaderLen] <;> omega
  | psnp p =>
    have h : serializeTLVs p.tlvs = .ok area := h
    simp only [serialize, PSNP.serialize, h, ok_bind]
    refine ⟨_, rfl, ?_⟩
    cases hl : p.level <;> simp [pduType, PSNP.pduType, hl, headerLen, putCommonHeader, be16,
      NodeID.length_toBytes, psnpHeaderLen] <;> omega

theorem and_and_self (x m : UInt8) : x &&& m &&& m = x &&& m := by
  rw [UInt8.and_assoc, UInt8.and_self]

theorem PDU.canonical_ofFields {tlvs : List TLV} (h : ∀ x ∈ tlvs, x.Canonical) :
    (ofFields t b tlvs).Canonical := by
  cases t
  case l1LANHello => exact ⟨and_and_self _ _, and_and_self _ _, h⟩
  case l2LANHello => exact ⟨and_and_self _ _, and_and_self _ _, h⟩
  case p2pHello => exact ⟨and_and_self _ _, h⟩
  case l1LSP => exact ⟨and_and_self _ _, h⟩
  case l2LSP => exact ⟨and_and_self _ _, h⟩
  case l1CSNP => exact h
  case l2CSNP => exact h
  case l1PSNP => exact h
  case l2PSNP => exact h

theorem PDU.tlvs_ofFields (t : PDUType) (b : Bytes) (tlvs : List TLV) :
    (ofFields t b tlvs).tlvs = tlvs := by
  cases t <;> rfl

/-- **A decoded PDU is canonical and encodes again**, within its declared length. -/
theorem decodePDU_reencodes (h : decodePDU b = .ok p) :
    p.Canonical ∧
      ∃ raw, p.serialize = .ok raw ∧ raw.length ≤ (u16At b (pduLenOffset p.pduType)).toNat := by
  obtain ⟨hdr, t, tlvs, -, -, -, hmin, hmax, htlvs, rfl⟩ := decodePDU_eq_ok h
  obtain ⟨hc, area, harea, hle⟩ := decodeTLVs_reencodes htlvs
  rw [length_drop, length_take] at hle
  rw [← tlvs_ofFields t (b.take (u16At b (pduLenOffset t)).toNat) tlvs] at harea
  obtain ⟨raw, hraw, hlen⟩ := serialize_of_tlvs harea
  rw [pduType_ofFields] at hlen ⊢
  exact ⟨canonical_ofFields hc, raw, hraw, by omega⟩

/-! ## Octets after the declared length -/

theorem decodeCommonHeader_congr {b c : Bytes} (hb : 8 ≤ b.length) (hc : 8 ≤ c.length)
    (h : ∀ k < 8, at8 b k = at8 c k) : decodeCommonHeader b = decodeCommonHeader c := by
  have hbn : ¬b.length < 8 := by omega
  have hcn : ¬c.length < 8 := by omega
  simp only [decodeCommonHeader, hbn, hcn, if_false, h 0 (by decide), h 1 (by decide),
    h 2 (by decide), h 3 (by decide), h 4 (by decide), h 5 (by decide), h 7 (by decide)]

theorem headerLen_ge (t : PDUType) : pduLenOffset t + 2 ≤ headerLen t ∧ 8 ≤ headerLen t := by
  cases t <;> decide

/-- A PDU that decodes is trimmed to its declared length. -/
theorem trimToPDULength_eq {hdr : CommonHeader} (hh : decodeCommonHeader b = .ok hdr)
    (ht : ofCode hdr.pduType = some t) (hmin : headerLen t ≤ (u16At b (pduLenOffset t)).toNat)
    (hmax : (u16At b (pduLenOffset t)).toNat ≤ b.length) :
    trimToPDULength b = b.take (u16At b (pduLenOffset t)).toNat := by
  have hge := headerLen_ge t
  simp only [trimToPDULength, hh, ht]
  rw [if_neg (by omega), if_neg (by omega)]

/-- **Trailing octets do not matter**: they are trimmed, and what is left decodes the same. -/
theorem trim_append (h : decodePDU b = .ok p) (t : Bytes) :
    trimToPDULength (b ++ t) = trimToPDULength b ∧
      decodePDU (trimToPDULength (b ++ t)) = .ok p := by
  obtain ⟨hdr, ty, tlvs, hh, hty, hli, hmin, hmax, htlvs, rfl⟩ := decodePDU_eq_ok h
  have hge := headerLen_ge ty
  have hfield : u16At (b ++ t) (pduLenOffset ty) = u16At b (pduLenOffset ty) :=
    u16At_congr fun k hk => at8_append_left (by omega)
  have hhdr : decodeCommonHeader (b ++ t) = .ok hdr := by
    rw [← hh]
    exact decodeCommonHeader_congr (by rw [length_append]; omega) (by omega)
      fun k hk => at8_append_left (by omega)
  have htrim : trimToPDULength (b ++ t) = b.take (u16At b (pduLenOffset ty)).toNat := by
    rw [trimToPDULength_eq hhdr hty (by rw [hfield]; exact hmin)
      (by rw [hfield, length_append]; omega), hfield, take_append_of_le_length hmax]
  refine ⟨htrim.trans (trimToPDULength_eq hh hty hmin hmax).symm, ?_⟩
  rw [htrim]
  generalize hn : (u16At b (pduLenOffset ty)).toNat = n at hmin hmax htlvs ⊢
  have hlen : (b.take n).length = n := by rw [length_take]; omega
  have hfield' : (u16At (b.take n) (pduLenOffset ty)).toNat = n := by
    rw [u16At_congr fun k hk => at8_take (by omega), hn]
  have hhdr' : decodeCommonHeader (b.take n) = .ok hdr := by
    rw [← hh]
    exact decodeCommonHeader_congr (by omega) (by omega) fun k hk => at8_take (by omega)
  have hcheck : checkFixedHeader hdr ty (b.take n) (headerLen ty) = .ok (b.take n) := by
    simp only [checkFixedHeader, hli, hfield', hlen]
    rw [if_neg (by omega), if_neg (by omega), if_neg (by omega), if_neg (by omega),
      take_of_length_le (by omega)]
  simp only [decodePDU, hhdr', hty, pduDecoder_eq, hcheck, ok_bind, htlvs]

/-- **Patching the remaining lifetime of an LSP patches the decoded lifetime** and nothing else. -/
theorem decodePDU_putU16 {l : LSP} (h : decodePDU b = .ok (.lsp l)) (v : UInt16) :
    decodePDU (putU16 b 10 v) = .ok (.lsp { l with remainingTime := v }) := by
  obtain ⟨hdr, t, tlvs, hh, ht, hli, hmin, hmax, htlvs, hp⟩ := decodePDU_eq_ok h
  -- only the two LSP types give an LSP
  have hlsp : headerLen t = 27 ∧ pduLenOffset t = 8 := by
    cases t <;> first | exact ⟨rfl, rfl⟩ | simp [ofFields] at hp
  generalize hn : (u16At b (pduLenOffset t)).toNat = n at hmin hmax htlvs hp
  have hfield : (u16At (putU16 b 10 v) (pduLenOffset t)).toNat = n := by
    have hat8 : u16At (putU16 b 10 v) 8 = u16At b 8 :=
      u16At_congr fun k hk => at8_putU16_ne (by omega) (by omega)
    rw [← hn, hlsp.2, hat8]
  have hhdr : decodeCommonHeader (putU16 b 10 v) = .ok hdr := by
    rw [← hh]
    exact decodeCommonHeader_congr (by rw [length_putU16]; omega) (by omega)
      fun k hk => at8_putU16_ne (by omega) (by omega)
  have hcheck : checkFixedHeader hdr t (putU16 b 10 v) (headerLen t) =
      .ok (putU16 (b.take n) 10 v) := by
    simp only [checkFixedHeader, hli, hfield, length_putU16]
    rw [if_neg (by omega), if_neg (by omega), if_neg (by omega), if_neg (by omega), take_putU16]
  have hdrop : (putU16 (b.take n) 10 v).drop (headerLen t) = (b.take n).drop (headerLen t) :=
    drop_putU16_of_le (by omega)
  have hlen : (b.take n).length = n := by rw [length_take]; omega
  have hat : ∀ j, 12 ≤ j → at8 (putU16 (b.take n) 10 v) j = at8 (b.take n) j :=
    fun j hj => at8_putU16_ne (by omega) (by omega)
  have hfields : ∀ level, LSP.ofFields level (putU16 (b.take n) 10 v) tlvs =
      { LSP.ofFields level (b.take n) tlvs with remainingTime := v } := by
    intro level
    have hid := lspIDAt_congr (i := 12) fun k _ => hat (12 + k) (by omega)
    have hseq := u32At_congr (i := 20) fun k _ => hat (20 + k) (by omega)
    have hsum := u16At_congr (i := 24) fun k _ => hat (24 + k) (by omega)
    have hrem : u16At (putU16 (b.take n) 10 v) 10 = v := u16At_putU16_self (by omega)
    simp only [LSP.ofFields, hid, hseq, hsum, hrem, hat 26 (by decide)]
  simp only [decodePDU, hhdr, ht, pduDecoder_eq, hcheck, ok_bind, hdrop, htlvs]
  cases t <;> simp only [ofFields, lsp.injEq, reduceCtorEq] at hp ⊢
  all_goals
    subst hp
    rw [hfields]

/-- **The codec's fixed point**: whatever `DecodePDU` accepts encodes again within its declared
length; the encoding decodes to the same PDU but for the cached LSP checksum, and encodes to
itself; and octets after the declared length are trimmed without changing what is decoded. -/
theorem codec_fixed_point {b : Bytes} {p : PDU} (h : decodePDU b = .ok p) :
    (∃ raw, p.serialize = .ok raw ∧ raw.length ≤ (u16At b (pduLenOffset p.pduType)).toNat ∧
      ∃ p', decodePDU raw = .ok p' ∧ p'.eraseChecksum = p.eraseChecksum ∧
        p'.serialize = .ok raw) ∧
      ∀ t, trimToPDULength (b ++ t) = trimToPDULength b ∧
        decodePDU (trimToPDULength (b ++ t)) = .ok p := by
  obtain ⟨hc, raw, hraw, hle⟩ := decodePDU_reencodes h
  have hlt : (u16At b (pduLenOffset p.pduType)).toNat < 65536 := UInt16.toNat_lt _
  obtain ⟨p', hp', hsame⟩ := decodePDU_serialize hc hraw (by omega)
  refine ⟨⟨raw, hraw, hle, p', hp', hsame, ?_⟩, trim_append h⟩
  rw [← serialize_eraseChecksum p', hsame, serialize_eraseChecksum, hraw]

/-- A LAN hello with every reserved bit set and an unregistered TLV. -/
def paddedHello : Bytes :=
  [0x83, 27, 1, 6, 0xef, 1, 0, 3, 0xff, 0, 0, 0, 0, 0, 2, 0, 30, 0, 31, 0xff, 0, 0, 0, 0, 0, 2, 1,
    200, 2, 7, 9]

/-- What it decodes to. -/
def paddedHelloPDU : PDU :=
  .lanHello ⟨.level1, 3, octets6 0 0 0 0 0 2, 30, 127, ⟨octets6 0 0 0 0 0 2, 1⟩,
    [.unknown 200 [7, 9]]⟩

/-- The fixed point at a hello whose re-encoding differs from what was received. -/
theorem codec_fixed_point_hello :
    (∃ raw, paddedHelloPDU.serialize = .ok raw ∧
        raw.length ≤ (u16At paddedHello (pduLenOffset paddedHelloPDU.pduType)).toNat ∧
        ∃ p', decodePDU raw = .ok p' ∧ p'.eraseChecksum = paddedHelloPDU.eraseChecksum ∧
          p'.serialize = .ok raw) ∧
      ∀ t, trimToPDULength (paddedHello ++ t) = trimToPDULength paddedHello ∧
        decodePDU (trimToPDULength (paddedHello ++ t)) = .ok paddedHelloPDU :=
  codec_fixed_point (by decide)

end Goisis.Packet
