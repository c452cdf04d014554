import Goisis.Packet.SubTLVCodec
import Goisis.Packet.TLV

/-!
# TLVs round trip

The codec of `Goisis.Packet.TLV`, both ways, for every TLV the code registers and for the opaque
form of the others:

* `decodeTLVs_serialize` — a list of canonical TLVs is read back from its own encoding;
* `decodeTLVs_reencodes` — a TLV area the decoder accepts is canonical and encodes again, in no
  more octets.

`TLV.Canonical` says what a decoded TLV can be: nothing beyond the wire's own bits (12-bit
topology identifiers, prefixes without octets beyond their length, masked locators) and sub-TLVs
canonical in the context of the TLV.
-/

namespace Goisis.Packet

open Lib List PrefixReach Octets ISReachEntry MTopologyEntry Addr LSPEntry Prefix

variable {rest : Bytes} {v6 : Bool} {n : Nat} {α : Type} {enc : α → Except CodecError Bytes}
  {P : α → Prop} {as : List α} {ns : List ISReachEntry} {p : Prefix} {sub : Bytes}
  {es : List PrefixReach} {s : EndSID} {t : P2PThreeWay} {typ : UInt8}
  {dec : Bytes → Except CodecError α} {f : α → TLV} {body : Except CodecError Bytes}
  {g : UInt16 → α → TLV} {tlvs : List TLV}

variable {b e v value : Bytes} {bits : Nat} {mtid : UInt16} {l : SRv6Locator}

/-! ## Values made of fixed-size chunks -/

section Chunks

variable {dec : Bytes → α}

theorem chunkItem_readsBack (hn : 0 < n) (hlen : ∀ a e, enc a = .ok e → e.length = n) {a : α}
    (hback : ∀ e, enc a = .ok e → dec e = a) : ReadsBack (chunkItem n dec) enc a := by
  intro e he
  have hl := hlen a e he
  refine ⟨?_, fun rest => ?_⟩
  · rintro rfl
    simp only [length_nil] at hl
    omega
  · rw [chunkItem, if_neg (by rw [length_append]; omega), take_left' hl, drop_left' hl, hback e he]

theorem chunkItem_reencodes
    (hre : ∀ b, b.length = n → P (dec b) ∧ ∃ e, enc (dec b) = .ok e ∧ e.length = n) :
    Reencodes (chunkItem n dec) enc P := by
  intro b a rest h
  obtain ⟨hlen, h⟩ := ite_error_eq_ok.mp h
  cases h
  obtain ⟨hP, e, he, hl⟩ := hre (b.take n) (by rw [length_take]; omega)
  exact ⟨hP, e, he, by rw [length_drop]; omega⟩

theorem decodeChunks_writeAll (hn : 0 < n) (hlen : ∀ a e, enc a = .ok e → e.length = n)
    (hback : ∀ a ∈ as, ∀ e, enc a = .ok e → dec e = a) (h : writeAll enc as = .ok b) :
    decodeChunks n dec b = .ok as := by
  have hmod : b.length % n = 0 := by rw [length_writeAll hlen h, Nat.mul_mod_left]
  rw [decodeChunks, if_neg (by omega)]
  exact readAll_writeAll (fun a ha => chunkItem_readsBack hn hlen (hback a ha)) h (Nat.le_refl _)

theorem decodeChunks_reencodes (enc : α → Except CodecError Bytes) (P : α → Prop)
    (hre : ∀ b, b.length = n → P (dec b) ∧ ∃ e, enc (dec b) = .ok e ∧ e.length = n)
    (h : decodeChunks n dec v = .ok as) :
    (∀ a ∈ as, P a) ∧ ∃ e, writeAll enc as = .ok e ∧ e.length ≤ v.length := by
  obtain ⟨-, h⟩ := ite_error_eq_ok.mp h
  exact readAll_reencodes (chunkItem_reencodes hre) h

end Chunks

/-! ## Area addresses and LSP entries -/

theorem areaAddressItem_readsBack (a : Bytes) : ReadsBack areaAddressItem encodeAreaAddress a := by
  intro e he
  obtain ⟨hlen, he⟩ := ite_error_eq_ok.mp he
  cases he
  have hnat : (UInt8.ofNat a.length).toNat = a.length := toNat_ofNat_of_le (by omega)
  refine ⟨by simp, fun rest => ?_⟩
  have h13 : ¬(UInt8.ofNat a.length = 0 ∨ UInt8.ofNat a.length > 13) := by
    rintro (h | h)
    · rw [h] at hnat
      have : (0 : UInt8).toNat = 0 := rfl
      omega
    · have := UInt8.lt_iff_toNat_lt.mp h
      have : (13 : UInt8).toNat = 13 := rfl
      omega
  simp only [cons_append, areaAddressItem, hnat]
  rw [if_neg h13, if_neg (by rw [length_append]; omega), take_left, drop_left]

theorem areaAddressItem_reencodes :
    Reencodes areaAddressItem encodeAreaAddress (fun _ => True) := by
  intro b a rest h
  unfold areaAddressItem at h
  split at h
  · cases h
  rename_i len l
  obtain ⟨h13, h⟩ := ite_error_eq_ok.mp h
  obtain ⟨hlen, h⟩ := ite_error_eq_ok.mp h
  cases h
  have hpos : len.toNat ≠ 0 := fun h0 => h13 (.inl (UInt8.toNat_inj.mp h0))
  have hle : ¬len.toNat > 13 := fun hgt => h13 (.inr (UInt8.lt_iff_toNat_lt.mpr hgt))
  have hl : (l.take len.toNat).length = len.toNat := by rw [length_take]; omega
  rw [encodeAreaAddress, if_neg (by omega)]
  exact ⟨trivial, _, rfl, by simp only [length_cons, length_drop, hl]; omega⟩

theorem LSPEntry.length_encode (e : LSPEntry) : e.encode.length = 16 := by
  simp [encode, be16, be32, LSPID.length_toBytes]

theorem LSPEntry.decode_encode (e : LSPEntry) : decode e.encode = e := by
  obtain ⟨remaining, id, seq, sum⟩ := e
  obtain ⟨_, _, _, _, _, _, _, _, rfl⟩ := id.octets
  exact (mk.injEq ..).mpr ⟨u16_be16 remaining, rfl, u32_be32 seq, u16_be16 sum⟩

/-! ## Topology identifiers -/

theorem topology_octet : ∀ x < 16, UInt8.ofNat x &&& 0x0f = UInt8.ofNat x := by
  decide

theorem topology_flags : ∀ x < 16, ∀ overload attached : Bool,
    let o := UInt8.ofNat x ||| (if overload then 0x80 else 0) ||| (if attached then 0x40 else 0)
    o &&& 0x0f = UInt8.ofNat x ∧ (o &&& 0x80 != 0) = overload ∧ (o &&& 0x40 != 0) = attached := by
  decide

theorem u16_topology (h : mtid.toNat < 4096) :
    u16 (UInt8.ofNat (mtid.toNat / 256 % 16)) (UInt8.ofNat mtid.toNat) = mtid := by
  rw [Nat.mod_eq_of_lt (by omega)]
  exact u16_be16 mtid

theorem u16_low_nibble (a b : UInt8) : (u16 (a &&& 0x0f) b).toNat < 4096 := by
  have ha : (a &&& 0x0f).toNat ≤ 15 := by
    exact Nat.and_le_right
  have hb : b.toNat < 256 := b.toNat_lt
  simp only [u16, UInt16.toNat_ofNat']
  omega

theorem decodeMTID_encode (h : mtid.toNat < 4096) (rest : Bytes) :
    decodeMTID (encodeMTID mtid ++ rest) = .ok (mtid, rest) := by
  simp only [decodeMTID, encodeMTID, cons_append, nil_append, length_cons,
    at8_cons_zero, at8_cons_succ,
    topology_octet _ (Nat.mod_lt (mtid.toNat / 256) (by decide : 16 > 0)), u16_topology h,
      drop_succ_cons, drop_zero]
  rw [if_neg (by omega)]

theorem decodeMTID_ok (h : decodeMTID value = .ok (mtid, rest)) :
    mtid.toNat < 4096 ∧ value.length = 2 + rest.length := by
  obtain ⟨hlen, h⟩ := ite_error_eq_ok.mp h
  cases h
  exact ⟨u16_low_nibble _ _, by rw [length_drop]; omega⟩

theorem MTopologyEntry.decode_encode {e : MTopologyEntry} (h : e.mtid.toNat < 4096) :
    decode e.encode = e := by
  obtain ⟨mtid, overload, attached⟩ := e
  obtain ⟨hlow, hover, hatt⟩ := topology_flags _
    (Nat.mod_lt (mtid.toNat / 256) (by decide : 16 > 0)) overload attached
  simp only [decode, encode, at8_cons_zero, at8_cons_succ, hlow, hover, hatt, u16_topology h]

/-! ## IS reachability -/

def ISReachEntry.Canonical (n : ISReachEntry) : Prop := ∀ s ∈ n.subTLVs, s.Canonical .isReachability

theorem isReachItem_readsBack {n : ISReachEntry} (hc : n.Canonical) :
    ReadsBack isReachItem serialize n := by
  intro e he
  obtain ⟨neighbor, metric, subs⟩ := n
  obtain ⟨hmetric, he⟩ := ite_error_eq_ok.mp he
  obtain ⟨sub, hsub, hfit⟩ := bind_eq_ok.mp he
  obtain ⟨h255, hfit⟩ := ite_error_eq_ok.mp hfit
  cases hfit
  refine ⟨by simp, fun rest => ?_⟩
  have hsubs := decodeSubTLVs_serialize hc hsub
  obtain ⟨_, _, _, _, _, _, _, rfl⟩ := neighbor.octets
  generalize hvalue : _ ++ rest = value
  have hvalue' : value = (NodeID.toBytes ⟨octets6 _ _ _ _ _ _, _⟩ ++ be24 metric) ++
      UInt8.ofNat sub.length :: (sub ++ rest) := hvalue.symm
  obtain ⟨hlen, h10, hslice, hdrop⟩ := counted_area (i := 10) rfl (by omega) hvalue'
  have hm : u24 (at8 value 7) (at8 value 8) (at8 value 9) = metric := by
    rw [hvalue']
    exact u24_be24 (Nat.not_lt.mp hmetric)
  simp only [isReachItem, h10, hslice, hsubs, ok_bind, hm, hdrop]
  rw [if_neg (by omega), if_neg (by omega), hvalue']
  rfl

theorem isReachItem_reencodes : Reencodes isReachItem serialize ISReachEntry.Canonical := by
  intro b n rest h
  obtain ⟨-, h⟩ := ite_error_eq_ok.mp h
  obtain ⟨hlen, h⟩ := ite_error_eq_ok.mp h
  obtain ⟨subs, hread, ⟨⟩⟩ := bind_eq_ok.mp h
  obtain ⟨hc, sub, hsub, hle⟩ := decodeSubTLVs_reencodes hread
  rw [length_slice (by omega)] at hle
  have h255 : (at8 b 10).toNat < 256 := (at8 b 10).toNat_lt
  refine ⟨hc, ?_⟩
  have hmetric := u24_le (at8 b 7) (at8 b 8) (at8 b 9)
  simp only [serialize, hsub, ok_bind]
  rw [if_neg (by omega), if_neg (by omega)]
  refine ⟨_, rfl, ?_⟩
  simp only [length_append, length_cons, length_drop, NodeID.length_toBytes, be24, length_nil]
  omega

/-- **IS reachability entries round trip.** -/
theorem decodeISReachEntries_serialize (hc : ∀ n ∈ ns, n.Canonical)
    (h : writeAll serialize ns = .ok b) : decodeISReachEntries b = .ok ns :=
  readAll_writeAll (fun n hn => isReachItem_readsBack (hc n hn)) h (Nat.le_refl _)

theorem decodeISReachEntries_reencodes (h : decodeISReachEntries b = .ok ns) :
    (∀ n ∈ ns, n.Canonical) ∧ ∃ e, writeAll serialize ns = .ok e ∧ e.length ≤ b.length :=
  readAll_reencodes isReachItem_reencodes h

/-! ## Prefix reachability -/

/-- No bits are set in the octets beyond the prefix length. -/
def Prefix.ZeroPadded (p : Prefix) : Prop :=
  p.addr.octets.drop ((p.bits.toNat + 7) / 8) =
    replicate (p.addr.octets.length - (p.bits.toNat + 7) / 8) 0

/-- A prefix entry as the decoder of one address family gives it. -/
def PrefixReach.Canonical (v6 : Bool) (e : PrefixReach) : Prop :=
  (v6 = false → e.external = false) ∧ (e.pfx.addr.withoutZone = e.pfx.addr ∧ e.pfx.ZeroPadded) ∧
    ∀ s ∈ e.subTLVs, s.Canonical .ipReachability

/-- `serializeIPReachEntries` or `serializeIPv6ReachEntries`, one entry. -/
def PrefixReach.serialize (v6 : Bool) (e : PrefixReach) : Except CodecError Bytes :=
  if v6 then e.serialize6 else e.serialize4

theorem prefixFrom_of_le {ip : Addr} (hv : ip.isValid = true) (h : bits ≤ ip.bitLen) :
    prefixFrom ip bits = ⟨ip.withoutZone, bits⟩ := by
  rw [prefixFrom, if_pos ⟨hv, by omega, by omega⟩]

/-- A prefix of one address family, with a length the family has. -/
def Prefix.OfFamily (v6 : Bool) (p : Prefix) : Prop :=
  (if v6 then p.addr.is6 else p.addr.is4) = true ∧ 0 ≤ p.bits ∧ p.bits.toNat ≤ if v6 then
    128 else 32

theorem length_packPrefix (addr : Addr) (hn : addr.octets.length = n) (h : bits ≤ 8 * n) :
    (packPrefix ⟨addr, (bits : Int)⟩).length = (bits + 7) / 8 := by
  simp only [packPrefix, length_take, Int.toNat_natCast, hn]
  omega

theorem ofList_packPrefix {o : Octets n} {addr : Addr} (ho : addr.octets = o.val) (h : bits ≤ 8 * n)
    (hz : Prefix.ZeroPadded ⟨addr, bits⟩) : ofList n (packPrefix ⟨addr, bits⟩) = o := by
  have hpad : o.val.drop ((bits + 7) / 8) = replicate (n - (bits + 7) / 8) 0 := by
    have hlen := o.property
    simpa [Prefix.ZeroPadded, ho, hlen] using hz
  rw [packPrefix, ho]
  exact ofList_take hpad (show (bits + 7) / 8 ≤ n by omega)

/-- The significant octets are unpacked to the prefix they were packed from. -/
theorem unpackPrefix_pack (hf : p.OfFamily v6) (hz : p.addr.withoutZone = p.addr ∧ p.ZeroPadded) :
    (packPrefix p).length = (p.bits.toNat + 7) / 8 ∧
      unpackPrefix (packPrefix p) p.bits.toNat v6 = p := by
  obtain ⟨addr, bits⟩ := p
  obtain ⟨hfam, hnonneg, hle⟩ := hf
  obtain ⟨n, rfl⟩ := Int.eq_ofNat_of_zero_le hnonneg
  cases v6 with
  | false =>
    cases addr with
    | v4 o =>
      have hle : n ≤ 32 := hle
      refine ⟨length_packPrefix (.v4 o) o.property (by omega), ?_⟩
      rw [unpackPrefix, if_neg (by decide), ofList_packPrefix rfl (by omega) hz.2]
      exact prefixFrom_of_le rfl hle
    | zero => cases hfam
    | v6 o => cases hfam
    | v6Zone o zone => cases hfam
  | true =>
    have hle : n ≤ 128 := hle
    obtain ⟨o, rfl⟩ := Addr.Wire6.exists_v6 ⟨hfam, hz.1⟩
    refine ⟨length_packPrefix (.v6 o) o.property (by omega), ?_⟩
    rw [unpackPrefix, if_pos rfl, ofList_packPrefix rfl (by omega) hz.2]
    exact prefixFrom_of_le rfl hle

theorem packPrefix_ofList {sig : Bytes} {addr : Addr} (ho : addr.octets = (ofList n sig).val)
    (hs : sig.length = (bits + 7) / 8) (hb : bits ≤ 8 * n) :
    Prefix.ZeroPadded ⟨addr, bits⟩ ∧ packPrefix ⟨addr, bits⟩ = sig := by
  have hd := drop_ofList (n := n) hs (by omega)
  rw [packPrefix, ho]
  exact ⟨by simpa [Prefix.ZeroPadded, ho, length_octets] using hd, take_ofList hs (by simp; omega)⟩

theorem unpackPrefix_eq {sig : Bytes} (hb : bits ≤ if v6 then 128 else 32)
    (hs : sig.length = (bits + 7) / 8) (hp : p = unpackPrefix sig bits v6) :
    p.bits = bits ∧ (p.addr.withoutZone = p.addr ∧ p.ZeroPadded) ∧ packPrefix p = sig ∧
      (if v6 then p.addr.is6 else p.addr.is4) = true := by
  cases v6 with
  | false =>
    have hb : bits ≤ 32 := hb
    cases hp.trans (prefixFrom_of_le rfl hb : _ = ⟨.v4 (ofList 4 sig), bits⟩)
    have hback := packPrefix_ofList (show (v4 _).octets = _ from rfl) hs (by omega)
    exact ⟨rfl, ⟨rfl, hback.1⟩, hback.2, rfl⟩
  | true =>
    have hb : bits ≤ 128 := hb
    cases hp.trans (prefixFrom_of_le rfl hb : _ = ⟨.v6 (ofList 16 sig), bits⟩)
    have hback := packPrefix_ofList (show (v6 _).octets = _ from rfl) hs (by omega)
    exact ⟨rfl, ⟨rfl, hback.1⟩, hback.2, rfl⟩

/-- What the fixed part of an entry says: the metric, the flags, the prefix length and whether
sub-TLVs follow. -/
structure PrefixHead (v6 : Bool) (value : Bytes) (e : PrefixReach) (hasSub : Bool) : Prop where
  metric : u32At value 0 = e.metric
  bits : (if v6 then (at8 value 5).toNat else (at8 value 4 &&& 0x3f).toNat) = e.pfx.bits.toNat
  sub : (if v6 then at8 value 4 &&& 0x20 != 0 else at8 value 4 &&& 0x40 != 0) = hasSub
  down : (at8 value 4 &&& 0x80 != 0) = e.down
  external : (v6 && at8 value 4 &&& 0x40 != 0) = e.external

section PrefixItem

variable {head packed : Bytes} {e : PrefixReach} (hhead : head.length = if v6 then 6 else 5)
  (hmax : e.pfx.bits.toNat ≤ if v6 then 128 else 32)
  (hpacked : packed.length = (e.pfx.bits.toNat + 7) / 8)
  (hp : unpackPrefix packed e.pfx.bits.toNat v6 = e.pfx)
include hhead hmax hpacked hp

/-- An entry without sub-TLVs ends with its prefix octets. -/
theorem prefixReachItem_plain (hh : PrefixHead v6 (head ++ (packed ++ rest)) e false)
    (hsubs : e.subTLVs = []) : prefixReachItem v6 (head ++ (packed ++ rest)) = .ok (e, rest) := by
  have hslice := slice_append head packed rest hhead rfl
  have hdrop : (head ++ (packed ++ rest)).drop
      ((if v6 then 6 else 5) + (e.pfx.bits.toNat + 7) / 8) = rest := by
    rw [← append_assoc]
    exact drop_left' (by rw [length_append, hhead, hpacked])
  rw [hpacked] at hslice
  simp only [prefixReachItem, hh.bits, hh.sub, hh.metric, hh.down, hh.external, hslice, hp, hdrop,
    Bool.false_eq_true, if_false]
  rw [if_neg (by simp only [length_append, hhead]; omega), if_neg (by omega),
    if_neg (by simp only [length_append, hhead, hpacked]; omega), ← hsubs]

/-- An entry with sub-TLVs has their length octet and their octets after the prefix. -/
theorem prefixReachItem_subs
    (hh : PrefixHead v6 (head ++ (packed ++ (UInt8.ofNat sub.length :: sub ++ rest))) e true)
    (hsubs : decodeSubTLVs .ipReachability sub = .ok e.subTLVs) (h255 : sub.length ≤ 255) :
    prefixReachItem v6 (head ++ (packed ++ (UInt8.ofNat sub.length :: sub ++ rest))) =
      .ok (e, rest) := by
  generalize hvalue : head ++ (packed ++ (UInt8.ofNat sub.length :: sub ++ rest)) = value at hh ⊢
  have hoff : (head ++ packed).length = (if v6 then 6 else 5) + (e.pfx.bits.toNat + 7) / 8 := by
    rw [length_append, hhead, hpacked]
  have hslice := slice_append head packed (UInt8.ofNat sub.length :: sub ++ rest) hhead rfl
  rw [hpacked, hvalue] at hslice
  generalize hoffset : (if v6 then 6 else 5) + (e.pfx.bits.toNat + 7) / 8 = off at hoff hslice
  have hvalue' : value = (head ++ packed) ++ UInt8.ofNat sub.length :: (sub ++ rest) := by
    rw [← hvalue]; simp
  obtain ⟨hlen, hat, harea, hdrop⟩ := counted_area hoff h255 hvalue'
  simp only [prefixReachItem, hh.bits, hh.sub, hh.metric, hh.down, hh.external, hoffset, hslice, hp,
    hat, harea, hsubs, ok_bind, hdrop, if_true]
  rw [if_neg (by omega), if_neg (by omega), if_neg (by omega), if_neg (by omega), if_neg (by omega)]

/-- An entry reads back: its head, its prefix octets, and the sub-TLV area if there is one. -/
theorem prefixReachItem_append (hh : ∀ l, PrefixHead v6 (head ++ l) e (decide (sub.length > 0)))
    (hc : ∀ s ∈ e.subTLVs, s.Canonical .ipReachability)
    (hsub : serializeSubTLVs e.subTLVs = .ok sub) (h255 : sub.length ≤ 255) (rest : Bytes) :
    prefixReachItem v6
      (head ++ packed ++ (if sub.length > 0 then UInt8.ofNat sub.length :: sub else []) ++ rest) =
      .ok (e, rest) := by
  by_cases h0 : sub.length > 0
  · have hread := hh (packed ++ (UInt8.ofNat sub.length :: sub ++ rest))
    rw [decide_eq_true h0] at hread
    have hsubs := decodeSubTLVs_serialize hc hsub
    simpa [h0] using prefixReachItem_subs hhead hmax hpacked hp hread hsubs h255
  · obtain rfl : sub = [] := eq_nil_of_length_eq_zero (by omega)
    have hread := hh (packed ++ rest)
    have hnil := Except.ok.inj (decodeSubTLVs_serialize hc hsub)
    simpa using prefixReachItem_plain hhead hmax hpacked hp hread hnil.symm

end PrefixItem

theorem prefix4_control : ∀ n ≤ 32, ∀ down sub : Bool,
    let o := UInt8.ofNat n ||| (if down then 0x80 else 0) ||| (if sub then 0x40 else 0)
    (o &&& 0x3f).toNat = n ∧ (o &&& 0x80 != 0) = down ∧ (o &&& 0x40 != 0) = sub := by
  decide

theorem prefix6_flags : ∀ down external sub : Bool,
    let o : UInt8 := (if down then 0x80 else 0) ||| (if external then 0x40 else 0) |||
      (if sub then 0x20 else 0)
    (o &&& 0x80 != 0) = down ∧ (o &&& 0x40 != 0) = external ∧ (o &&& 0x20 != 0) = sub := by
  decide

/-- The fixed part of an entry. -/
def PrefixReach.head (v6 : Bool) (e : PrefixReach) (hasSub : Bool) : Bytes :=
  be32 e.metric ++
    if v6 then [(if e.down then 0x80 else 0) ||| (if e.external then 0x40 else 0) |||
      (if hasSub then 0x20 else 0), UInt8.ofNat e.pfx.bits.toNat]
    else [UInt8.ofNat e.pfx.bits.toNat ||| (if e.down then 0x80 else 0) |||
      (if hasSub then 0x40 else 0)]

theorem PrefixReach.length_head (e : PrefixReach) (hasSub : Bool) :
    (e.head v6 hasSub).length = if v6 then 6 else 5 := by
  cases v6 <;> rfl

theorem PrefixReach.prefixHead {e : PrefixReach} (hf : e.pfx.OfFamily v6)
    (hext : v6 = false → e.external = false) (hasSub : Bool) (l : Bytes) :
    PrefixHead v6 (e.head v6 hasSub ++ l) e hasSub := by
  obtain ⟨-, hnonneg, hle⟩ := hf
  cases v6 with
  | false =>
    obtain ⟨hbits, hdown, hhas⟩ := prefix4_control e.pfx.bits.toNat hle e.down hasSub
    exact ⟨u32_be32 e.metric, hbits, hhas, hdown, (hext rfl).symm⟩
  | true =>
    have hle : e.pfx.bits.toNat ≤ 128 := hle
    obtain ⟨hdown, hext, hhas⟩ := prefix6_flags e.down e.external hasSub
    exact ⟨u32_be32 e.metric, toNat_ofNat_of_le (by omega), hhas, hdown, hext⟩

/-- What it takes for an entry to serialize, in either family. -/
theorem PrefixReach.serialize_eq_ok {e : PrefixReach} :
    e.serialize v6 = .ok b ↔ e.pfx.OfFamily v6 ∧ ∃ sub, serializeSubTLVs e.subTLVs = .ok sub ∧
      sub.length ≤ 255 ∧ b = e.head v6 (decide (sub.length > 0)) ++ packPrefix e.pfx ++
        (if sub.length > 0 then UInt8.ofNat sub.length :: sub else []) := by
  have h4 : ¬(!e.pfx.addr.is4 ∨ e.pfx.bits < 0 ∨ e.pfx.bits > 32) ↔ e.pfx.OfFamily false := by
    simp [Prefix.OfFamily]
  have h6 : ¬(!e.pfx.addr.is6 ∨ e.pfx.bits < 0 ∨ e.pfx.bits > 128) ↔ e.pfx.OfFamily true := by
    simp [Prefix.OfFamily]
  cases v6 <;> simp only [serialize, serialize4, serialize6, Bool.false_eq_true, if_false, if_true,
    ite_error_eq_ok, bind_eq_ok, h4, h6]
  all_goals
    refine and_congr_right' (exists_congr fun sub => and_congr_right' (and_congr not_lt ?_))
    simp [head, @eq_comm _ b]

theorem prefixReachItem_readsBack {e : PrefixReach} (hc : e.Canonical v6) :
    ReadsBack (prefixReachItem v6) (serialize v6) e := by
  intro b hb
  obtain ⟨hf, sub, hsub, h255, rfl⟩ := serialize_eq_ok.mp hb
  obtain ⟨hpacked, hp⟩ := unpackPrefix_pack hf hc.2.1
  refine ⟨by simp [PrefixReach.head, be32], ?_⟩
  exact prefixReachItem_append (e.length_head _) hf.2.2 hpacked hp (e.prefixHead hf hc.1 _) hc.2.2
    hsub h255

/-- What an accepted prefix entry says: its prefix, its sub-TLVs and how much of the value it
takes. -/
theorem prefixReachItem_ok {e : PrefixReach} (h : prefixReachItem v6 value = .ok (e, rest)) :
    ∃ (bits : Nat) (sig : Bytes), bits ≤ (if v6 then 128 else 32) ∧ sig.length = (bits + 7) / 8 ∧
      e.pfx = unpackPrefix sig bits v6 ∧ (v6 = false → e.external = false) ∧
      ∃ sub : Bytes, sub.length ≤ 255 ∧ decodeSubTLVs .ipReachability sub = .ok e.subTLVs ∧
        (if v6 then 6 else 5) + sig.length + (if sub.length > 0 then 1 + sub.length else 0) +
          rest.length ≤ value.length := by
  unfold prefixReachItem at h
  generalize hhead : (if v6 then 6 else 5) = headLen at h ⊢
  generalize hmax : (if v6 then 128 else 32) = maxBits at h ⊢
  simp only at h
  obtain ⟨-, h⟩ := ite_error_eq_ok.mp h
  generalize (if v6 = true then (at8 value 5).toNat else (at8 value 4 &&& 0x3f).toNat) = bits at h
  generalize (if v6 = true then at8 value 4 &&& 0x20 != 0 else at8 value 4 &&& 0x40 != 0) =
    hasSub at h
  obtain ⟨hb, h⟩ := ite_error_eq_ok.mp h
  obtain ⟨hlen, h⟩ := ite_error_eq_ok.mp h
  have hsig : (slice value headLen (headLen + (bits + 7) / 8)).length = (bits + 7) / 8 := by
    rw [length_slice (by omega)]; omega
  refine ⟨bits, slice value headLen (headLen + (bits + 7) / 8), by omega, hsig, ?_⟩
  rw [hsig]
  split at h
  · obtain ⟨-, h⟩ := ite_error_eq_ok.mp h
    obtain ⟨hsub, h⟩ := ite_error_eq_ok.mp h
    obtain ⟨subs, hread, ⟨⟩⟩ := bind_eq_ok.mp h
    have h255 := (at8 value (headLen + (bits + 7) / 8)).toNat_lt
    refine ⟨rfl, fun h6 => by simp [h6], _, ?_, hread, ?_⟩
    · rw [length_slice (by omega)]; omega
    · rw [length_slice (by omega), length_drop]; split <;> omega
  · cases h
    refine ⟨rfl, fun h6 => by simp [h6], [], by simp, rfl, ?_⟩
    simp only [length_nil, length_drop]
    rw [if_neg (by omega)]
    omega

theorem prefixReachItem_reencodes (v6 : Bool) :
    Reencodes (prefixReachItem v6) (serialize v6) (PrefixReach.Canonical v6) := by
  intro value e rest h
  obtain ⟨bits, sig, hb, hsig, hp, hext, sub, h255, hread, hlen⟩ := prefixReachItem_ok h
  obtain ⟨hpb, hzero, hpack, hfam⟩ := unpackPrefix_eq hb hsig hp
  obtain ⟨hc, area, harea, hle⟩ := decodeSubTLVs_reencodes hread
  have hf : e.pfx.OfFamily v6 := ⟨hfam, by omega, by rw [hpb]; exact hb⟩
  refine ⟨⟨hext, hzero, hc⟩, _, serialize_eq_ok.mpr ⟨hf, area, harea, by omega, rfl⟩, ?_⟩
  rw [length_append, length_append, e.length_head, hpack]
  by_cases harea0 : area.length > 0
  · have hsub0 : sub.length > 0 := by omega
    rw [if_pos hsub0] at hlen
    rw [if_pos harea0, length_cons]
    omega
  · rw [if_neg harea0, length_nil]
    omega

/-- **Prefix reachability entries round trip**, in either address family. -/
theorem decodePrefixReach_serialize (hc : ∀ e ∈ es, e.Canonical v6)
    (h : writeAll (serialize v6) es = .ok b) : decodePrefixReach v6 b = .ok es :=
  readAll_writeAll (fun e he => prefixReachItem_readsBack (hc e he)) h (Nat.le_refl _)

theorem decodePrefixReach_reencodes (h : decodePrefixReach v6 b = .ok es) :
    (∀ e ∈ es, e.Canonical v6) ∧ ∃ o, writeAll (serialize v6) es = .ok o ∧ o.length ≤ b.length :=
  readAll_reencodes (prefixReachItem_reencodes v6) h

/-! ## SRv6 locators -/

def EndSID.Canonical (e : EndSID) : Prop :=
  e.sid.Wire6 ∧ SIDCanonical e.sidStructure e.unknown

theorem EndSID.decodesBack (hc : s.Canonical) (h : s.encode = .ok e) : decodeEndSID e = .ok s := by
  obtain ⟨flags, behavior, sid, st, unknown⟩ := s
  obtain ⟨h6, hsid⟩ := hc
  obtain ⟨o, rfl⟩ := h6.exists_v6
  obtain ⟨sub, hsub, hbody⟩ := bind_eq_ok.mp h
  obtain ⟨hfit, hbody⟩ := ite_error_eq_ok.mp hbody
  have hback := decodeSIDSubSubTLVs_encode hsid hsub
  obtain ⟨hlen, h19, hslice, ho⟩ := sid_layout (flags :: be16 behavior) (h := 3) rfl o (by omega)
    (Except.ok.inj hbody).symm
  have hbeh : u16At e 1 = behavior := by
    rw [← Except.ok.inj hbody]
    exact u16_be16 behavior
  have hflags : at8 e 0 = flags := by
    rw [← Except.ok.inj hbody]
    rfl
  simp only [decodeEndSID, h19, hslice, hback, ok_bind, hbeh, hflags, ho]
  rw [if_neg (by omega), if_neg (by omega)]

theorem decodeEndSID_reencodes (hv : v.length ≤ 255) (h : decodeEndSID v = .ok s) :
    s.Canonical ∧ ∃ e, s.encode = .ok e ∧ e.length ≤ v.length := by
  obtain ⟨-, h⟩ := ite_error_eq_ok.mp h
  obtain ⟨hlen, h⟩ := ite_error_eq_ok.mp h
  obtain ⟨⟨st, unknown⟩, hread, ⟨⟩⟩ := bind_eq_ok.mp h
  obtain ⟨hc, sub, hsub, hle⟩ := decodeSIDSubSubTLVs_reencodes hread
  rw [length_slice (by omega)] at hle
  refine ⟨⟨⟨rfl, rfl⟩, hc⟩, ?_⟩
  simp only [EndSID.encode, hsub, ok_bind]
  rw [if_neg (by omega)]
  refine ⟨_, rfl, ?_⟩
  simp only [as16, be16, length_append, length_cons, length_nil, length_octets]
  omega

/-- One sub-TLV of a locator, encoded. -/
def encodeLocatorSub : EndSID ⊕ UnknownSubTLV → Except CodecError Bytes
  | .inl e => do encodeSubTLV subTLVSRv6EndSID (← e.encode)
  | .inr u => u.serialize

/-- A sub-TLV of a locator as `decodeLocatorSub` gives it. -/
def LocatorSubCanonical : EndSID ⊕ UnknownSubTLV → Prop
  | .inl e => e.Canonical
  | .inr u => u.subTLVType ≠ subTLVSRv6EndSID ∧ u.refused = false

theorem locatorSub_framesBack {x : EndSID ⊕ UnknownSubTLV} (hc : LocatorSubCanonical x) :
    FramesBack decodeLocatorSub encodeLocatorSub x := by
  intro e he
  cases x with
  | inl s =>
    obtain ⟨body, hbody, henc⟩ := bind_eq_ok.mp he
    refine ⟨_, body, encodeSubTLV_eq_ok.mp henc, ?_⟩
    rw [decodeLocatorSub, if_pos rfl, s.decodesBack hc hbody, ok_bind]
  | inr u =>
    obtain ⟨hne, href⟩ := hc
    refine ⟨u.subTLVType, u.value, encodeSubTLV_eq_ok.mp he, ?_⟩
    rw [decodeLocatorSub, if_neg hne, ← href]

theorem locatorSub_reencodes :
    FrameReencodes decodeLocatorSub encodeLocatorSub LocatorSubCanonical := by
  intro typ value x hv h
  unfold decodeLocatorSub at h
  split at h
  · obtain ⟨s, hs, ⟨⟩⟩ := bind_eq_ok.mp h
    obtain ⟨hc, e, he, hle⟩ := decodeEndSID_reencodes hv hs
    refine ⟨hc, ?_⟩
    simp only [encodeLocatorSub, he, ok_bind]
    exact encodeSubTLV_of_le _ hle hv
  · rename_i hne
    cases h
    exact ⟨⟨hne, rfl⟩, encodeSubTLV_of_le typ (Nat.le_refl _) hv⟩

/-- The sub-TLVs of a locator in the order they are written: the End SIDs first. -/
def SRv6Locator.subs (l : SRv6Locator) : List (EndSID ⊕ UnknownSubTLV) :=
  l.endSIDs.map .inl ++ l.unknown.map .inr

/-- Splitting the sub-TLVs of a locator by kind only reorders them. -/
theorem perm_partition (xs : List (EndSID ⊕ UnknownSubTLV)) :
    xs.Perm ((xs.filterMap Sum.getLeft?).map .inl ++ (xs.filterMap Sum.getRight?).map .inr) := by
  induction xs with
  | nil => exact .nil
  | cons x xs ih =>
    cases x with
    | inl e =>
      exact ih.cons _
    | inr u =>
      exact (ih.cons _).trans perm_middle.symm

theorem filterMap_subs (l : SRv6Locator) :
    l.subs.filterMap Sum.getLeft? = l.endSIDs ∧ l.subs.filterMap Sum.getRight? = l.unknown := by
  simp [SRv6Locator.subs, filterMap_map, Function.comp_def]

/-- What the two loops of `(*SRv6LocatorTLV).Serialize` write is the sub-TLVs in that order. -/
theorem writeAll_subs : writeAll encodeLocatorSub l.subs = .ok sub ↔ ∃ sids rest,
      writeAll (fun e : EndSID => do encodeSubTLV subTLVSRv6EndSID (← e.encode)) l.endSIDs =
      .ok sids ∧
        writeAll UnknownSubTLV.serialize l.unknown = .ok rest ∧ sub = sids ++ rest := by
  rw [SRv6Locator.subs, writeAll_append, writeAll_map, writeAll_map]
  rfl

/-- A locator as the decoder gives it. -/
def SRv6Locator.Canonical (l : SRv6Locator) : Prop :=
  l.locator.masked = l.locator ∧ (∀ e ∈ l.endSIDs, e.Canonical) ∧
    ∀ u ∈ l.unknown, u.subTLVType ≠ subTLVSRv6EndSID ∧ u.refused = false

theorem SRv6Locator.Canonical.subs (hc : l.Canonical) : ∀ x ∈ l.subs, LocatorSubCanonical x := by
  intro x hx
  rcases mem_append.mp hx with hx | hx
  · obtain ⟨e, he, rfl⟩ := mem_map.mp hx
    exact hc.2.1 e he
  · obtain ⟨u, hu, rfl⟩ := mem_map.mp hx
    exact hc.2.2 u hu

/-- Masking clears every octet beyond the prefix length. -/
theorem drop_maskOctets (n : Nat) (b : Bytes) :
    (maskOctets n b).drop ((n + 7) / 8) = replicate (b.length - (n + 7) / 8) 0 := by
  induction b generalizing n with
  | nil => simp [maskOctets]
  | cons x bs ih =>
    have hrec := ih (n - 8)
    by_cases h0 : n = 0
    · subst h0
      have hx : UInt8.ofNat (x.toNat / 2 ^ (8 - 0) * 2 ^ (8 - 0)) = 0 := by
        have hlt : x.toNat < 256 := x.toNat_lt
        rw [Nat.div_eq_of_lt (by simpa using hlt), Nat.zero_mul]
        rfl
      simp only [maskOctets, hx]
      simpa [replicate_succ] using hrec
    · have hk : (n + 7) / 8 = (n - 8 + 7) / 8 + 1 := by omega
      rw [maskOctets, hk, drop_succ_cons, hrec, length_cons]
      congr 1
      omega

theorem withoutZone_of_masked (h : p.masked = p) : p.addr.withoutZone = p.addr := by
  obtain ⟨addr, bits⟩ := p
  cases addr with
  | v6Zone o zone =>
    unfold masked at h
    split at h
    · cases congrArg addr h
    · cases congrArg addr h
  | _ => rfl

theorem ofList_packPrefix_masked {o : Octets 16} (hn : n ≤ 128)
    (hm : Prefix.masked ⟨.v6 o, (n : Int)⟩ = ⟨.v6 o, (n : Int)⟩) :
    (prefixFrom (.v6 (ofList 16 (packPrefix ⟨.v6 o, (n : Int)⟩))) n).masked =
      ⟨.v6 o, (n : Int)⟩ := by
  have hmask : maskOctets n o.val = o.val := by
    have hm' := hm
    simp only [Prefix.masked, Nat.cast_nonneg, if_true, Int.toNat_natCast, mask,
      Prefix.mk.injEq, v6.injEq, and_true] at hm'
    exact congrArg Subtype.val hm'
  have hpad := drop_maskOctets n o.val
  rw [hmask, o.property] at hpad
  have hback : ofList 16 (packPrefix ⟨.v6 o, (n : Int)⟩) = o :=
    ofList_take hpad (by show (n + 7) / 8 ≤ 16; omega)
  rw [hback, prefixFrom_of_le rfl (show n ≤ bitLen (.v6 o) from hn)]
  exact hm

theorem srv6LocatorItem_readsBack (hc : l.Canonical) :
    ReadsBack srv6LocatorItem SRv6Locator.serialize l := by
  intro b hb
  obtain ⟨h6, hb⟩ := ite_error_eq_ok.mp hb
  obtain ⟨hrange, hb⟩ := ite_error_eq_ok.mp hb
  obtain ⟨sids, hsids, hb⟩ := bind_eq_ok.mp hb
  obtain ⟨opaques, hopaques, hb⟩ := bind_eq_ok.mp hb
  obtain ⟨h255, hb⟩ := ite_error_eq_ok.mp hb
  have hsub := writeAll_subs.mpr ⟨sids, opaques, hsids, hopaques, rfl⟩
  obtain ⟨hleft, hright⟩ := filterMap_subs l
  have hsubs := readAll_writeAll (fun x hx => (locatorSub_framesBack (hc.subs x hx)).readsBack) hsub
    (Nat.le_refl _)
  obtain ⟨metric, flags, algorithm, ⟨addr, bits⟩, endSIDs, unknown⟩ := l
  obtain ⟨o, n, rfl, rfl, hn⟩ : ∃ (o : Octets 16) (n : Nat), addr = .v6 o ∧ bits = n ∧ n ≤ 128 := by
    simp only [Bool.not_eq_true', not_or, Bool.not_eq_false, not_lt, gt_iff_lt] at h6 hrange
    obtain ⟨o, rfl⟩ := Addr.Wire6.exists_v6 ⟨h6, withoutZone_of_masked hc.1⟩
    exact ⟨o, bits.toNat, rfl, by omega, by omega⟩
  have hpk := length_packPrefix (.v6 o) o.property hn
  have hlocator := ofList_packPrefix_masked hn hc.1
  generalize packPrefix ⟨.v6 o, (n : Int)⟩ = packed at hpk hlocator hb
  generalize sids ++ opaques = sub at hsub hsubs h255 hb
  cases hb
  refine ⟨by simp, fun rest => ?_⟩
  simp only [Int.toNat_natCast]
  generalize hvalue : be32 metric ++ [flags, algorithm, UInt8.ofNat n] ++ packed ++
    UInt8.ofNat sub.length :: sub ++ rest = value
  have hhead : (be32 metric ++ [flags, algorithm, UInt8.ofNat n]).length = 7 := rfl
  have hoff : (be32 metric ++ [flags, algorithm, UInt8.ofNat n] ++ packed).length =
      7 + (n + 7) / 8 := by
    rw [length_append, hhead, hpk]
  have hvalue' : value = be32 metric ++ [flags, algorithm, UInt8.ofNat n] ++ packed ++
      UInt8.ofNat sub.length :: (sub ++ rest) := by
    rw [← hvalue]; simp
  obtain ⟨hlen, hat, harea, hdrop⟩ := counted_area hoff (by omega) hvalue'
  have hmetric : u32At value 0 = metric := by
    rw [hvalue']
    exact u32_be32 metric
  have hfields : at8 value 4 = flags ∧ at8 value 5 = algorithm ∧ (at8 value 6).toNat = n := by
    rw [hvalue']
    exact ⟨rfl, rfl, toNat_ofNat_of_le (by omega)⟩
  have hslice : slice value 7 (7 + (n + 7) / 8) = packed := by
    rw [hvalue', ← hpk]
    exact slice_append _ packed _ hhead rfl
  simp only [srv6LocatorItem, hmetric, hfields, hslice, hlocator, hat, harea, hsubs, ok_bind, hdrop,
    hleft, hright]
  rw [if_neg (by omega), if_neg (by omega), if_neg (by omega), if_neg (by omega)]

theorem srv6LocatorItem_reencodes :
    Reencodes srv6LocatorItem SRv6Locator.serialize SRv6Locator.Canonical := by
  intro value l rest h
  obtain ⟨-, h⟩ := ite_error_eq_ok.mp h
  generalize (at8 value 6).toNat = n at h
  obtain ⟨hn, h⟩ := ite_error_eq_ok.mp h
  obtain ⟨hoff, h⟩ := ite_error_eq_ok.mp h
  obtain ⟨hlen, h⟩ := ite_error_eq_ok.mp h
  have hsig : (slice value 7 (7 + (n + 7) / 8)).length = (n + 7) / 8 := by
    rw [length_slice (by omega)]; omega
  obtain ⟨subs, hread, ⟨⟩⟩ := bind_eq_ok.mp h
  obtain ⟨hc, area, harea, hle⟩ := readAll_reencodes locatorSub_reencodes.reencodes hread
  rw [length_slice (by omega)] at hle
  have h255 := (at8 value (7 + (n + 7) / 8)).toNat_lt
  -- the End SIDs are written first, which only reorders the area
  obtain ⟨area', harea', hlen'⟩ := writeAll_perm (perm_partition subs) harea
  generalize slice value 7 (7 + (n + 7) / 8) = sig at hsig ⊢
  have hp : prefixFrom (.v6 (ofList 16 sig)) n = ⟨.v6 (ofList 16 sig), (n : Int)⟩ :=
    prefixFrom_of_le rfl (show n ≤ 128 by omega)
  obtain ⟨o, hmasked⟩ : ∃ o : Octets 16,
      masked ⟨.v6 (ofList 16 sig), (n : Int)⟩ = ⟨.v6 o, (n : Int)⟩ := by
    exact ⟨_, rfl⟩
  refine ⟨⟨masked_masked _, fun e he => ?_, fun u hu => ?_⟩, ?_⟩
  · obtain ⟨x, hx, hex⟩ := mem_filterMap.mp he
    obtain rfl := Sum.getLeft?_eq_some_iff.mp hex
    exact hc _ hx
  · obtain ⟨x, hx, hex⟩ := mem_filterMap.mp hu
    obtain rfl := Sum.getRight?_eq_some_iff.mp hex
    exact hc _ hx
  · rw [hp, hmasked]
    obtain ⟨sids, opaques, hsids, hopaques, rfl⟩ := (writeAll_subs (l :=
      ⟨u32At value 0, at8 value 4, at8 value 5, ⟨.v6 o, (n : Int)⟩, subs.filterMap Sum.getLeft?,
        subs.filterMap Sum.getRight?⟩)).mp harea'
    simp only [SRv6Locator.serialize, hsids, hopaques, ok_bind]
    rw [if_neg (by simp [is6]), if_neg (by simp; omega), if_neg (by omega)]
    refine ⟨_, rfl, ?_⟩
    simp only [packPrefix, octets, Int.toNat_natCast, be32, length_append, length_cons,
      length_nil, length_take, length_drop] at hle hlen' ⊢
    omega

/-! ## Three-way adjacencies and restart -/

theorem P2PThreeWay.decodesBack (h : t.encode = .ok e) : decodeP2PThreeWay e = .ok t := by
  obtain ⟨state, _ | c, _ | ⟨sid, nc⟩⟩ := t
  · cases h
    rfl
  · cases h
  · cases h
    have hcirc : u32At (state :: be32 c) 1 = c := u32_be32 c
    simp only [decodeP2PThreeWay, hcirc]
    rfl
  · cases h
    obtain ⟨_, _, _, _, _, _, rfl⟩ := exists_octets6 sid
    exact congrArg Except.ok ((P2PThreeWay.mk.injEq ..).mpr
      ⟨rfl, congrArg some (u32_be32 c), congrArg some (Prod.ext rfl (u32_be32 nc))⟩)

theorem decodeP2PThreeWay_reencodes (h : decodeP2PThreeWay v = .ok t) :
    ∃ e, t.encode = .ok e ∧ e.length ≤ v.length := by
  unfold decodeP2PThreeWay at h
  split_ifs at h with h1 h5 h15
  · cases h
    exact ⟨_, rfl, by simp [h1]⟩
  · cases h
    exact ⟨_, rfl, by simp [be32, h5]⟩
  · cases h
    exact ⟨_, rfl, by simp [be32, h15, length_octets]⟩

theorem restart_flags : ∀ request ack suppress : Bool,
    let o : UInt8 := (if request then 1 else 0) ||| (if ack then 2 else 0) |||
      (if suppress then 4 else 0)
    (o &&& 1 != 0) = request ∧ (o &&& 2 != 0) = ack ∧ (o &&& 4 != 0) = suppress := by
  decide

theorem Restart.decodesBack {t : Restart} (h : t.encode = .ok e) : decodeRestart e = .ok t := by
  obtain ⟨request, ack, suppress, _ | r, _ | sid⟩ := t <;>
    obtain ⟨hr, ha, hs⟩ := restart_flags request ack suppress
  · cases h
    simp only [decodeRestart, at8_cons_zero, hr, ha, hs]
    rfl
  · cases h
  · cases h
    have hrem (flags : UInt8) : u16At (flags :: be16 r) 1 = r := u16_be16 r
    simp only [decodeRestart, at8_cons_zero, hr, ha, hs, hrem]
    rfl
  · cases h
    obtain ⟨_, _, _, _, _, _, rfl⟩ := exists_octets6 sid
    exact congrArg Except.ok
      ((Restart.mk.injEq ..).mpr ⟨hr, ha, hs, congrArg some (u16_be16 r), rfl⟩)

theorem decodeRestart_reencodes {t : Restart} (h : decodeRestart v = .ok t) :
    ∃ e, t.encode = .ok e ∧ e.length ≤ v.length := by
  unfold decodeRestart at h
  split_ifs at h with h1 h3 h9
  · cases h
    exact ⟨_, rfl, by simp [h1]⟩
  · cases h
    exact ⟨_, rfl, by simp [be16, h3]⟩
  · cases h
    exact ⟨_, rfl, by simp [be16, h9, length_octets]⟩

/-! ## TLVs -/

/-- A TLV as its decoder gives it. -/
def TLV.Canonical : TLV → Prop
  | .unknown t value => decodeTLV t value = .ok (.unknown t value)
  | .extendedISReachability ns => ∀ n ∈ ns, n.Canonical
  | .srv6Locator mtid ls => mtid.toNat < 4096 ∧ ∀ l ∈ ls, l.Canonical
  | .extendedIPReachability ps => ∀ p ∈ ps, p.Canonical false
  | .mtISReachability mtid ns => mtid.toNat < 4096 ∧ ∀ n ∈ ns, n.Canonical
  | .mTopologies ts => ∀ t ∈ ts, t.mtid.toNat < 4096
  | .mtIPReachability mtid ps => mtid.toNat < 4096 ∧ ∀ p ∈ ps, p.Canonical false
  | .ipv6InterfaceAddresses as => ∀ a ∈ as, a.withoutZone = a
  | .ipv6Reachability ps => ∀ p ∈ ps, p.Canonical true
  | .mtIPv6Reachability mtid ps => mtid.toNat < 4096 ∧ ∀ p ∈ ps, p.Canonical true
  | .routerCapability rid _ subs => rid.is4 = true ∧ ∀ s ∈ subs, s.Canonical .routerCapability
  | _ => True

theorem encodeTLV_eq_ok : encodeTLV typ value = .ok e ↔ frame typ value = some e :=
  encodeSubTLV_eq_ok

theorem encodeAddr4_ok {a : Addr} (h : encodeAddr4 a = .ok e) :
    e.length = 4 ∧ v4 (ofList 4 e) = a := by
  cases a with
  | v4 o =>
    cases h
    exact ⟨o.property, congrArg v4 (ofList_val o)⟩
  | zero => cases h
  | v6 o => cases h
  | v6Zone o zone => cases h

theorem encodeAddr6_ok {a : Addr} (h : encodeAddr6 a = .ok e) :
    e.length = 16 ∧ Addr.v6 (ofList 16 e) = a.withoutZone := by
  cases a with
  | v6 o =>
    cases h
    exact ⟨o.property, congrArg Addr.v6 (ofList_val o)⟩
  | v6Zone o zone =>
    cases h
    exact ⟨o.property, congrArg Addr.v6 (ofList_val o)⟩
  | zero => cases h
  | v4 o => cases h

/-- Fixed-size chunks that always encode are read back. -/
theorem decodeChunks_flatMap {dec : Bytes → α} {f : α → Bytes} (hn : 0 < n)
    (hlen : ∀ a, (f a).length = n) {as : List α} (hback : ∀ a ∈ as, dec (f a) = a) :
    decodeChunks n dec (as.flatMap f) = .ok as := by
  have hwrite : writeAll (fun a => .ok (f a)) as = (.ok (as.flatMap f) : Except CodecError Bytes) :=
    writeAll_total f as
  refine decodeChunks_writeAll hn ?_ ?_ hwrite
  · rintro a e ⟨⟩
    exact hlen a
  · rintro a ha e ⟨⟩
    exact hback a ha

section Framed

variable {a : α}

/-- The common shape of the TLVs: the value is framed under the TLV's type. -/
theorem framed_plain (hdec : ∀ value, decodeTLV typ value = (dec value >>= fun a => .ok (f a)))
    (hback : dec value = .ok a) (he : encodeTLV typ value = .ok e) :
    ∃ typ value, frame typ value = some e ∧ decodeTLV typ value = .ok (f a) := by
  refine ⟨typ, value, encodeTLV_eq_ok.mp he, ?_⟩
  rw [hdec, hback, ok_bind]

/-- The same when encoding the value can fail. -/
theorem framed_value (hdec : ∀ value, decodeTLV typ value = (dec value >>= fun a => .ok (f a)))
    (hback : ∀ value, body = .ok value → dec value = .ok a)
    (he : (body >>= fun value => encodeTLV typ value) = .ok e) :
    ∃ typ value, frame typ value = some e ∧ decodeTLV typ value = .ok (f a) := by
  obtain ⟨value, hbody, henc⟩ := bind_eq_ok.mp he
  exact framed_plain hdec (hback value hbody) henc

/-- The multi-topology TLVs: the same behind a topology identifier. -/
theorem framed_topology (hmtid : mtid.toNat < 4096) (hdec : ∀ value, decodeTLV typ value =
      (decodeMTID value >>= fun p => dec p.2 >>= fun a => .ok (g p.1 a)))
    (hback : ∀ value, body = .ok value → dec value = .ok a)
    (he : (body >>= fun value => encodeTLV typ (encodeMTID mtid ++ value)) = .ok e) :
    ∃ typ value, frame typ value = some e ∧ decodeTLV typ value = .ok (g mtid a) := by
  obtain ⟨value, hbody, henc⟩ := bind_eq_ok.mp he
  refine ⟨typ, _, encodeTLV_eq_ok.mp henc, ?_⟩
  rw [hdec, decodeMTID_encode hmtid, ok_bind, hback value hbody, ok_bind]

end Framed

/-- **A canonical TLV is read back from its own encoding.** -/
theorem TLV.framesBack {t : TLV} (hc : t.Canonical) : FramesBack decodeTLV TLV.serialize t := by
  intro e he
  cases t with
  | unknown typ value => exact ⟨typ, value, encodeTLV_eq_ok.mp he, hc⟩
  | areaAddresses as =>
    exact framed_value (fun _ => rfl) (fun value hw =>
      readAll_writeAll (fun a _ => areaAddressItem_readsBack a) hw (Nat.le_refl _)) he
  | isNeighbors ns =>
    exact framed_plain (fun _ => rfl) (decodeChunks_flatMap (by decide) length_octets
      fun n _ => ofList_val n) he
  | padding n =>
    obtain ⟨hn, he⟩ := ite_error_eq_ok.mp he
    refine ⟨_, _, encodeTLV_eq_ok.mp he, ?_⟩
    change Except.ok (TLV.padding _) = _
    rw [length_replicate, Int.toNat_of_nonneg (by omega)]
  | lspEntries es =>
    obtain ⟨-, he⟩ := ite_error_eq_ok.mp he
    exact framed_plain (fun _ => rfl) (decodeChunks_flatMap (by decide) length_encode
      fun x _ => x.decode_encode) he
  | authentication typ value => exact ⟨_, _, encodeTLV_eq_ok.mp he, rfl⟩
  | extendedISReachability ns =>
    exact framed_value (fun _ => rfl) (fun _ => decodeISReachEntries_serialize hc) he
  | srv6Locator mtid ls =>
    exact framed_topology hc.1 (fun _ => rfl) (fun value hw =>
      readAll_writeAll (fun l hl => srv6LocatorItem_readsBack (hc.2 l hl)) hw (Nat.le_refl _)) he
  | protocolsSupported nlpids => exact ⟨_, _, encodeTLV_eq_ok.mp he, rfl⟩
  | ipInterfaceAddresses as =>
    exact framed_value (fun _ => rfl) (fun _ => decodeChunks_writeAll (by decide)
      (fun _ _ h => (encodeAddr4_ok h).1) (fun _ _ _ h => (encodeAddr4_ok h).2)) he
  | extendedIPReachability ps =>
    exact framed_value (fun _ => rfl) (fun _ => decodePrefixReach_serialize hc) he
  | dynamicHostname h =>
    obtain ⟨hlen, he⟩ := ite_error_eq_ok.mp he
    refine ⟨_, h, encodeTLV_eq_ok.mp he, ?_⟩
    change (if h.length < 1 then _ else Except.ok (TLV.dynamicHostname h)) = _
    rw [if_neg hlen]
  | restart r => exact framed_value (fun _ => rfl) (fun _ => Restart.decodesBack) he
  | mtISReachability mtid ns =>
    exact framed_topology hc.1 (fun _ => rfl) (fun _ => decodeISReachEntries_serialize hc.2) he
  | mTopologies ts =>
    have hlen : ∀ t : MTopologyEntry, t.encode.length = 2 := fun _ => rfl
    exact framed_plain (fun _ => rfl) (decodeChunks_flatMap (by decide) hlen fun t ht =>
      decode_encode (hc t ht)) he
  | ipv6InterfaceAddresses as =>
    exact framed_value (fun _ => rfl) (fun _ => decodeChunks_writeAll (by decide)
      (fun _ _ h => (encodeAddr6_ok h).1)
      (fun a ha _ h => (encodeAddr6_ok h).2.trans (hc a ha))) he
  | mtIPReachability mtid ps =>
    exact framed_topology hc.1 (fun _ => rfl) (fun _ => decodePrefixReach_serialize hc.2) he
  | ipv6Reachability ps =>
    exact framed_value (fun _ => rfl) (fun _ => decodePrefixReach_serialize hc) he
  | mtIPv6Reachability mtid ps =>
    exact framed_topology hc.1 (fun _ => rfl) (fun _ => decodePrefixReach_serialize hc.2) he
  | p2pThreeWayAdjacency a =>
    exact framed_value (fun _ => rfl) (fun _ => P2PThreeWay.decodesBack) he
  | routerCapability rid flags subs =>
    obtain ⟨h4, hsubs⟩ := hc
    cases rid with
    | zero => cases h4
    | v6 o => cases h4
    | v6Zone o zone => cases h4
    | v4 o =>
      obtain ⟨value, hw, henc⟩ := bind_eq_ok.mp he
      refine ⟨_, _, encodeTLV_eq_ok.mp henc, ?_⟩
      change (if (o.val ++ flags :: value).length < 5 then _ else
        decodeSubTLVs .routerCapability ((o.val ++ flags :: value).drop 5) >>= fun subs =>
          .ok (TLV.routerCapability (.v4 (ofList 4 (o.val ++ flags :: value)))
            (at8 (o.val ++ flags :: value) 4) subs)) = _
      have hlen : ¬(o.val ++ flags :: value).length < 5 := by
        rw [length_append, length_cons, o.property]
        omega
      rw [if_neg hlen, drop_octets o _ (by decide), at8_octets o _ (by decide), ofList_append]
      simp only [Nat.reduceSub, drop_succ_cons, drop_zero, at8_cons_zero,
        decodeSubTLVs_serialize hsubs hw, ok_bind]

theorem encodeTLV_of_le (typ : UInt8) (h : value.length ≤ n) (hn : n ≤ 255) :
    ∃ e, encodeTLV typ value = .ok e ∧ e.length ≤ n + 2 :=
  encodeSubTLV_of_le typ h hn

section Reframed

variable {t : TLV}

/-- The common shape of the TLVs, read and encoded again. -/
theorem reframed_value (hv : value.length ≤ 255) (h : (dec value >>= fun a => .ok (f a)) = .ok t)
    (hf : ∀ a, (f a).serialize = (enc a >>= fun v => encodeTLV typ v))
    (hre : ∀ a, dec value = .ok a → (f a).Canonical ∧ ∃ v, enc a = .ok v ∧
      v.length ≤ value.length) :
    t.Canonical ∧ ∃ e, t.serialize = .ok e ∧ e.length ≤ value.length + 2 := by
  obtain ⟨a, hread, ⟨⟩⟩ := bind_eq_ok.mp h
  obtain ⟨hc, v, henc, hle⟩ := hre a hread
  rw [hf, henc]
  exact ⟨hc, encodeTLV_of_le typ hle hv⟩

/-- The same behind a topology identifier. -/
theorem reframed_topology (hv : value.length ≤ 255)
    (h : (decodeMTID value >>= fun p => dec p.2 >>= fun a => .ok (g p.1 a)) = .ok t)
    (hg : ∀ mtid a,
      (g mtid a).serialize = (enc a >>= fun v => encodeTLV typ (encodeMTID mtid ++ v)))
    (hP : ∀ mtid a, (g mtid a).Canonical = (mtid.toNat < 4096 ∧ P a))
    (hre : ∀ b a, dec b = .ok a → P a ∧ ∃ v, enc a = .ok v ∧ v.length ≤ b.length) :
    t.Canonical ∧ ∃ e, t.serialize = .ok e ∧ e.length ≤ value.length + 2 := by
  obtain ⟨⟨mtid, rest⟩, hm, h⟩ := bind_eq_ok.mp h
  obtain ⟨a, hread, ⟨⟩⟩ := bind_eq_ok.mp h
  obtain ⟨hc, v, henc, hle⟩ := hre rest a hread
  obtain ⟨hmtid, hlen⟩ := decodeMTID_ok hm
  rw [hg, hP, henc]
  refine ⟨⟨hmtid, hc⟩, encodeTLV_of_le typ ?_ hv⟩
  simp only [encodeMTID, length_append, length_cons, length_nil]
  omega

end Reframed

/-- Fixed-size chunks that always encode are encoded again. -/
theorem flatMap_of_decodeChunks {dec : Bytes → α} {f : α → Bytes} (P : α → Prop)
    (hP : ∀ b, P (dec b)) (hlen : ∀ a, (f a).length = n) {as : List α}
    (h : decodeChunks n dec v = .ok as) :
    (∀ a ∈ as, P a) ∧ (as.flatMap f).length = as.length * n ∧ (as.flatMap f).length ≤ v.length := by
  obtain ⟨hall, e, he, hle⟩ := decodeChunks_reencodes (fun a => .ok (f a)) P
    (fun b _ => ⟨hP b, f (dec b), rfl, hlen _⟩) h
  have hcount := length_writeAll (by rintro a e ⟨⟩; exact hlen a) he
  rw [writeAll_total] at he
  cases he
  exact ⟨hall, hcount, hle⟩

/-- **A decoded TLV is canonical and encodes again**, in no more octets. -/
theorem TLV.reencodes : FrameReencodes decodeTLV TLV.serialize TLV.Canonical := by
  intro typ value t hv h
  have horig := h
  -- one goal for each registered type, in the order of the registry, behind the one for the others
  iterate 20
    rcases ite_eq_iff.mp h with ⟨-, h⟩ | ⟨-, h⟩
    rotate_left
  · cases h
    exact ⟨horig, encodeTLV_of_le _ (Nat.le_refl _) hv⟩
  · exact reframed_value hv h (fun _ => rfl) (fun _ hread =>
      ⟨trivial, (readAll_reencodes areaAddressItem_reencodes hread).2⟩)
  · obtain ⟨ns, hread, ⟨⟩⟩ := bind_eq_ok.mp h
    obtain ⟨-, -, hle⟩ :=
      flatMap_of_decodeChunks (fun _ => True) (fun _ => trivial) length_octets hread
    exact ⟨trivial, encodeTLV_of_le _ hle hv⟩
  · cases h
    refine ⟨trivial, ?_⟩
    simp only [TLV.serialize]
    rw [if_neg (by omega)]
    exact encodeTLV_of_le _ (by simp) hv
  · obtain ⟨es, hread, ⟨⟩⟩ := bind_eq_ok.mp h
    obtain ⟨-, hcount, hle⟩ :=
      flatMap_of_decodeChunks (fun _ => True) (fun _ => trivial) length_encode hread
    have hmax : ¬es.length > maxLSPEntriesPerTLV := by
      change ¬es.length > 15
      omega
    refine ⟨trivial, ?_⟩
    simp only [TLV.serialize]
    rw [if_neg hmax]
    exact encodeTLV_of_le _ hle hv
  · split at h
    · cases h
    · cases h
      exact ⟨trivial, encodeTLV_of_le _ (Nat.le_refl _) hv⟩
  · exact reframed_value hv h (fun _ => rfl) (fun _ => decodeISReachEntries_reencodes)
  · exact reframed_topology hv h (fun _ _ => rfl) (fun _ _ => rfl)
      (fun _ _ => readAll_reencodes srv6LocatorItem_reencodes)
  · cases h
    exact ⟨trivial, encodeTLV_of_le _ (Nat.le_refl _) hv⟩
  · exact reframed_value hv h (fun _ => rfl) (fun _ hread => ⟨trivial,
      (decodeChunks_reencodes encodeAddr4 (fun _ => True)
        (fun b _ => ⟨trivial, _, rfl, length_octets _⟩) hread).2⟩)
  · exact reframed_value hv h (fun _ => rfl) (fun _ => decodePrefixReach_reencodes)
  · obtain ⟨hpos, h⟩ := ite_error_eq_ok.mp h
    cases h
    refine ⟨trivial, ?_⟩
    simp only [TLV.serialize]
    rw [if_neg hpos]
    exact encodeTLV_of_le _ (Nat.le_refl _) hv
  · exact reframed_value hv h (fun _ => rfl) (fun _ hread =>
      ⟨trivial, decodeRestart_reencodes hread⟩)
  · exact reframed_topology hv h (fun _ _ => rfl) (fun _ _ => rfl)
      (fun _ _ => decodeISReachEntries_reencodes)
  · obtain ⟨ts, hread, ⟨⟩⟩ := bind_eq_ok.mp h
    have hlen : ∀ t : MTopologyEntry, t.encode.length = 2 := fun _ => rfl
    obtain ⟨hc, -, hle⟩ := flatMap_of_decodeChunks (fun t => t.mtid.toNat < 4096)
      (fun b => u16_low_nibble (at8 b 0) (at8 b 1)) hlen hread
    exact ⟨hc, encodeTLV_of_le _ hle hv⟩
  · exact reframed_value hv h (fun _ => rfl) (fun _ =>
      decodeChunks_reencodes encodeAddr6 (fun a => a.withoutZone = a)
        (fun b _ => ⟨rfl, _, rfl, length_octets _⟩))
  · exact reframed_topology hv h (fun _ _ => rfl) (fun _ _ => rfl)
      (fun _ _ => decodePrefixReach_reencodes)
  · exact reframed_value hv h (fun _ => rfl) (fun _ => decodePrefixReach_reencodes)
  · exact reframed_topology hv h (fun _ _ => rfl) (fun _ _ => rfl)
      (fun _ _ => decodePrefixReach_reencodes)
  · exact reframed_value hv h (fun _ => rfl)
      (fun _ hread => ⟨trivial, decodeP2PThreeWay_reencodes hread⟩)
  · obtain ⟨hlen, h⟩ := ite_error_eq_ok.mp h
    obtain ⟨subs, hread, ⟨⟩⟩ := bind_eq_ok.mp h
    obtain ⟨hc, sub, hsub, hle⟩ := decodeSubTLVs_reencodes hread
    rw [length_drop] at hle
    refine ⟨⟨rfl, hc⟩, ?_⟩
    simp only [TLV.serialize, hsub, ok_bind]
    apply encodeTLV_of_le _ _ hv
    simp only [length_append, length_cons, length_octets]
    omega

/-- **TLV areas read back.** -/
theorem decodeTLVs_serialize (hc : ∀ t ∈ tlvs, t.Canonical) (h : serializeTLVs tlvs = .ok b) :
    decodeTLVs b = .ok tlvs :=
  readAll_writeAll (fun t ht => (TLV.framesBack (hc t ht)).readsBack) h (Nat.le_refl _)

/-- **TLV areas encode again**, in no more octets than they were read from. -/
theorem decodeTLVs_reencodes (h : decodeTLVs b = .ok tlvs) :
    (∀ t ∈ tlvs, t.Canonical) ∧ ∃ e, serializeTLVs tlvs = .ok e ∧ e.length ≤ b.length :=
  readAll_reencodes TLV.reencodes.reencodes h

end Goisis.Packet
