import Goisis.Packet.AuthBinding

/-!
# A patched PDU is the same PDU but for the digest

`PatchAuth` writes into the bytes of a serialized PDU. Where the decoder reads one Authentication
TLV that fits the algorithm and the key ID, the scan finds its digest (`DigestAt.of_decoded`), and
whatever is written there is read back as that TLV with another digest: the other TLVs and the fixed
header are the ones of the PDU before (`decodePDU_copyInto`).

* `patchAuth_decodes` — a PDU with one placeholder is patched, to the same length, and decodes to
  itself but for the digest.
-/

namespace Goisis.Packet

open Lib List PDU TLV

variable {algo : AuthAlgorithm} {keyID : UInt16} {b : Bytes} {tlvs : List TLV} {p : PDU}

/-! ## From the decoder's view to the scan's -/

theorem NoAuth.of_filterMap {n : Nat} (hn : b.length ≤ n)
    (hread : readAll (frameItem decodeTLV) n b = .ok tlvs)
    (hnone : tlvs.filterMap authentication? = []) : NoAuth b := by
  induction tlvs generalizing n b with
  | nil =>
    obtain ⟨rfl, -⟩ | ⟨_, _, _, _, _, -, -, -, hcons⟩ := readAll_frames_eq_ok hn hread
    · exact .stop rfl
    · cases hcons
  | cons t ts ih =>
    obtain ⟨-, hnil⟩ | ⟨typ, value, rest, t', ts', hb, ht, hts, hcons⟩ :=
      readAll_frames_eq_ok hn hread
    · cases hnil
    cases hcons
    have hlen := splitFrame_length hb
    rw [filterMap_eq_nil_iff, forall_mem_cons] at hnone
    refine .skip hb ?_ (ih (by omega) hts (filterMap_eq_nil_iff.mpr hnone.2))
    rintro rfl
    cases value with
    | nil => cases ht
    | cons a v =>
      cases ht
      cases hnone.1

/-- **The scan finds the digest of the one Authentication TLV the decoder reads.** -/
theorem DigestAt.of_decoded {n off : Nat} {b v : Bytes} {a : UInt8} (hn : b.length ≤ n)
    (hread : readAll (frameItem decodeTLV) n b = .ok tlvs)
    (hone : tlvs.filterMap authentication? = [(a, v)])
    (hoff : digestOffset algo keyID (a :: v) = some off) : ∃ k, DigestAt algo keyID b k := by
  induction tlvs generalizing n b with
  | nil => cases hone
  | cons t ts ih =>
    obtain ⟨-, hnil⟩ | ⟨typ, value, rest, t', ts', hb, ht, hts, hcons⟩ :=
      readAll_frames_eq_ok hn hread
    · cases hnil
    cases hcons
    have hlen := splitFrame_length hb
    by_cases htyp : typ = tlvTypeAuthentication
    · subst htyp
      cases value with
      | nil => cases ht
      | cons a' v' =>
        cases ht
        simp only [filterMap_cons, authentication?, cons.injEq, Prod.mk.injEq] at hone
        obtain ⟨⟨rfl, rfl⟩, hnone⟩ := hone
        exact ⟨_, .here hb hoff (.of_filterMap (by omega) hts hnone)⟩
    · rw [filterMap_cons_none (notAuthentication_decodeTLV htyp _ t ht)] at hone
      obtain ⟨k, hk⟩ := ih (by omega) hts hone
      exact ⟨_, .skip hb htyp hk⟩

/-! ## Another digest -/

/-- The TLV without the octets of a digest. -/
def TLV.withoutDigest : TLV → TLV
  | .authentication t _ => .authentication t []
  | t => t

theorem readAll_frames_cons {n : Nat} {b value rest : Bytes} {typ : UInt8} {t : TLV} {ts : List TLV}
    (hn : b.length ≤ n) (hb : splitFrame b = some (typ, value, rest))
    (ht : decodeTLV typ value = .ok t) (hts : readAll (frameItem decodeTLV) (n - 1) rest = .ok ts) :
    readAll (frameItem decodeTLV) n b = .ok (t :: ts) := by
  have hlen := splitFrame_length hb
  obtain ⟨m, rfl⟩ : ∃ m, n = m + 1 := ⟨n - 1, by omega⟩
  cases b with
  | nil => cases hb
  | cons x l =>
    rw [Nat.add_sub_cancel] at hts
    simp only [readAll, frameItem, hb, ht, hts]

/-- **Other digest octets are read as the same TLVs with another digest.** -/
theorem DigestAt.decoded_copyInto {n k : Nat} (h : DigestAt algo keyID b k) (hn : b.length ≤ n)
    (hread : readAll (frameItem decodeTLV) n b = .ok tlvs) (d : Bytes) :
    ∃ tlvs', readAll (frameItem decodeTLV) n (Lib.copyInto b k (k + algo.digestLen) d) = .ok tlvs' ∧
      tlvs'.map withoutDigest = tlvs.map withoutDigest := by
  have hcopied : (Lib.copyInto b k (k + algo.digestLen) d).length ≤ n := by
    rw [length_copyInto (by omega) h.bound]
    exact hn
  induction h generalizing n tlvs with
  | @here b value rest off hb hoff hrest =>
    have hbound := digestOffset_bound hoff
    obtain ⟨-, t, ts, ht, hts, rfl⟩ := readAll_frames_split hb hn hread
    obtain ⟨v, hv, -⟩ := digestOffset_value hoff
    obtain ⟨v', hv', -⟩ := digestOffset_value (digestOffset_copyInto (d := d) hoff)
    have hsplit := splitFrame_copyInto_value hb hbound d
    rw [hv'] at hsplit
    subst hv
    cases ht
    exact ⟨_, readAll_frames_cons hcopied hsplit rfl hts, rfl⟩
  | @skip b value rest typ k hb htyp hrest ih =>
    obtain ⟨hle, t, ts, ht, hts, rfl⟩ := readAll_frames_split hb hn hread
    have hrestlen : (Lib.copyInto rest k (k + algo.digestLen) d).length ≤ n - 1 := by
      rw [length_copyInto (by omega) hrest.bound]
      exact hle
    obtain ⟨ts', hts', hsame⟩ := ih hle hts hrestlen
    refine ⟨_, readAll_frames_cons hcopied (splitFrame_copyInto_rest hb k d) ht hts', ?_⟩
    rw [map_cons, map_cons, hsame]

/-! ## Whole PDUs -/

/-- The PDU with another TLV area. -/
def PDU.withTLVs : PDU → List TLV → PDU
  | .lanHello p, tlvs => .lanHello { p with tlvs := tlvs }
  | .p2pHello p, tlvs => .p2pHello { p with tlvs := tlvs }
  | .lsp p, tlvs => .lsp { p with tlvs := tlvs }
  | .csnp p, tlvs => .csnp { p with tlvs := tlvs }
  | .psnp p, tlvs => .psnp { p with tlvs := tlvs }

/-- The fields of a PDU are those of its fixed header. -/
theorem PDU.ofFields_congr {t : PDUType} {b c : Bytes} (tlvs tlvs' : List TLV)
    (h : ∀ j < headerLen t, at8 b j = at8 c j) :
    ofFields t b tlvs' = (ofFields t c tlvs).withTLVs tlvs' := by
  have h8 {i : Nat} (hi : i + 1 ≤ headerLen t) : at8 b i = at8 c i := h i (by omega)
  have h16 {i : Nat} (hi : i + 2 ≤ headerLen t) : u16At b i = u16At c i :=
    u16At_congr fun k hk => h _ (by omega)
  have h32 {i : Nat} (hi : i + 4 ≤ headerLen t) : u32At b i = u32At c i :=
    u32At_congr fun k hk => h _ (by omega)
  have hnode {i : Nat} (hi : i + 7 ≤ headerLen t) : nodeIDAt b i = nodeIDAt c i :=
    nodeIDAt_congr fun k hk => h _ (by omega)
  have hlsp {i : Nat} (hi : i + 8 ≤ headerLen t) : lspIDAt b i = lspIDAt c i :=
    lspIDAt_congr fun k hk => h _ (by omega)
  have hsys {i : Nat} (hi : i + 7 ≤ headerLen t) : systemIDAt b i = systemIDAt c i :=
    congrArg NodeID.systemID (hnode hi)
  cases t <;>
    simp (disch := decide) only [ofFields, withTLVs, LSP.ofFields, LANHello.ofFields, h8, h16,
      h32, hnode, hlsp, hsys]

/-- What `DecodePDU` reads off a PDU that is as long as it says. -/
theorem decodePDU_of_parts {hdr : CommonHeader} {t : PDUType} (hh : decodeCommonHeader b = .ok hdr)
    (ht : PDUType.ofCode hdr.pduType = some t) (hli : hdr.lengthIndicator.toNat = headerLen t)
    (hmin : headerLen t ≤ b.length) (hlen : (u16At b (pduLenOffset t)).toNat = b.length)
    (htlvs : decodeTLVs (b.drop (headerLen t)) = .ok tlvs) :
    decodePDU b = .ok (.ofFields t b tlvs) := by
  have hcheck : checkFixedHeader hdr t b (headerLen t) = .ok b := by
    simp only [checkFixedHeader, hli, hlen]
    rw [if_neg (by omega), if_neg (by omega), if_neg (by omega), if_neg (by omega),
      take_of_length_le (by omega)]
  simp only [decodePDU, hh, ht, pduDecoder_eq, hcheck, ok_bind, htlvs]

/-- **Writing into the digest changes the digest and nothing else.** -/
theorem decodePDU_copyInto {s e : Nat} (h : decodePDU b = .ok p)
    (hlen : (u16At b (pduLenOffset p.pduType)).toNat = b.length)
    (hr : authDigestRange b (headerLen p.pduType) algo keyID = some (s, e)) (d : Bytes) :
    ∃ tlvs, decodePDU (copyInto b s e d) = .ok (p.withTLVs tlvs) ∧
      tlvs.map withoutDigest = p.tlvs.map withoutDigest := by
  obtain ⟨hdr, t, tlvs, hh, ht, hli, hmin, hmax, htlvs, rfl⟩ := decodePDU_eq_ok h
  rw [pduType_ofFields] at hlen hr
  rw [hlen, take_of_length_le (Nat.le_refl _)] at htlvs ⊢
  obtain ⟨hoff, hse, he, -⟩ := authDigestRange_inside hr
  obtain ⟨n, hn, hs, hwidth⟩ := authDigestRange_eq_some.mp hr
  have hge := headerLen_ge t
  have hcopied : (copyInto b s e d).length = b.length := length_copyInto hse he
  have hat : ∀ j < headerLen t, at8 (copyInto b s e d) j = at8 b j :=
    fun j hj => at8_copyInto_lt (by omega) (by omega)
  have hhdr : decodeCommonHeader (copyInto b s e d) = .ok hdr := by
    rw [← hh]
    exact decodeCommonHeader_congr (by omega) (by omega) fun k hk => hat k (by omega)
  have hfield : u16At (copyInto b s e d) (pduLenOffset t) = u16At b (pduLenOffset t) :=
    u16At_congr fun k hk => hat _ (by omega)
  obtain ⟨tlvs', hread, hsame⟩ := hn.decoded_copyInto (Nat.le_refl _) htlvs d
  have harea : (copyInto b s e d).drop (headerLen t) =
      copyInto (b.drop (headerLen t)) n (n + algo.digestLen) d := by
    rw [hwidth, hs, Nat.add_assoc, drop_copyInto (by omega)]
  have hread' : decodeTLVs ((copyInto b s e d).drop (headerLen t)) = .ok tlvs' := by
    unfold decodeTLVs
    rw [harea, length_copyInto (by omega) hn.bound]
    exact hread
  refine ⟨tlvs', ?_, by rw [hsame, tlvs_ofFields]⟩
  rw [decodePDU_of_parts hhdr ht hli (by omega) (by rw [hfield, hlen, hcopied]) hread',
    ofFields_congr tlvs tlvs' hat]

/-- What serializes and decodes is as long as it says. -/
theorem length_of_decodesBack {raw : Bytes} (h : p.serialize = .ok raw)
    (hdecode : decodePDU raw = .ok p) :
    (u16At raw (pduLenOffset p.pduType)).toNat = raw.length := by
  obtain ⟨-, raw', hraw', hle⟩ := decodePDU_reencodes hdecode
  rw [h] at hraw'
  cases hraw'
  obtain ⟨hdr, t, tlvs, -, -, -, -, hmax, -, hp⟩ := decodePDU_eq_ok hdecode
  have htype : p.pduType = t := by rw [hp, pduType_ofFields]
  rw [htype] at hle ⊢
  omega

/-- **`PatchAuth` on a PDU with one placeholder**: it succeeds, keeps the length, and what it gives
decodes to the same PDU but for the digest. -/
theorem patchAuth_decodes {raw : Bytes} (h : p.serialize = .ok raw)
    (hdecode : decodePDU raw = .ok p)
    (hone : p.tlvs.filterMap authentication? = [(algo.authType, algo.placeholder keyID)])
    (hmac : Hmac) (key : Bytes) (isLSP : Bool) :
    ∃ wire tlvs, patchAuth hmac raw (headerLen p.pduType) algo keyID key isLSP = .ok wire ∧
      wire.length = raw.length ∧ decodePDU wire = .ok (p.withTLVs tlvs) ∧
      tlvs.map withoutDigest = p.tlvs.map withoutDigest := by
  have hlen := length_of_decodesBack h hdecode
  obtain ⟨off, hoff⟩ := Option.isSome_iff_exists.mp (digestOffset_placeholder algo keyID)
  have hread : decodeTLVs (raw.drop (headerLen p.pduType)) = .ok p.tlvs := by
    obtain ⟨hdr, t, tlvs, -, -, -, -, -, htlvs, hp⟩ := decodePDU_eq_ok hdecode
    have htype : p.pduType = t := by rw [hp, pduType_ofFields]
    rw [← htype, hlen, take_of_length_le (Nat.le_refl _)] at htlvs hp
    rw [htlvs, hp, tlvs_ofFields]
  obtain ⟨n, hn⟩ := DigestAt.of_decoded (Nat.le_refl _) hread hone hoff
  have hr := authDigestRange_eq_some.mpr ⟨n, hn, rfl, rfl⟩
  obtain ⟨-, hse, he, -⟩ := authDigestRange_inside hr
  obtain ⟨tlvs, hdec, hsame⟩ := decodePDU_copyInto hdecode hlen hr (hmacOver hmac raw
    (headerLen p.pduType + n) (headerLen p.pduType + n + algo.digestLen) isLSP algo key)
  exact ⟨_, tlvs, by rw [patchAuth, hr], length_copyInto hse he, hdec, hsame⟩

end Goisis.Packet
