import Goisis.Packet.AuthPatch
import Goisis.Server.Circuit

/-!
# Hello padding

`padHello` (`pkg/server/hello.go`) appends Padding TLVs until the serialized hello reaches the
circuit MTU less the LLC header. Each turn serializes the hello again, and the two octets of a TLV
header are what keeps it from filling the last octet.

* `padHello_fills` — the loop ends, and the hello it leaves is the one it was given followed by
  padding, filled up to the last octet or the one before.
-/

namespace Goisis.Server

open Lib Packet List

/-- `(*CircuitConfig).padding`. -/
def CircuitConfig.pads (c : CircuitConfig) : Bool := c.padding.getD true

/-- The loop of `padHello`, with the number of times its body is entered. `none` is out of fuel. -/
def padLoop (target : Int) : Nat → PDU → Option (PDU × Nat)
  | 0, _ => none
  | fuel + 1, pdu =>
    match pdu.serialize with
    | .error _ => some (pdu, 1)
    | .ok wire =>
      let room := target - wire.length
      if room < 2 then some (pdu, 1)
      else
        (padLoop target fuel (pdu.withTLVs (pdu.tlvs ++ [.padding (min (room - 2) 255)]))).map
          fun r => (r.1, r.2 + 1)

/-- `padHello(c, pdu, tlvs)`, where `tlvs` is the TLV area of `pdu`. -/
def padHello (c : CircuitConfig) (fuel : Nat) (pdu : PDU) : Option (PDU × Nat) :=
  if c.pads then padLoop (c.mtu - 3) fuel pdu else some (pdu, 0)

/-- A hello and its encoding, which decodes back to it. -/
structure HelloWire (pdu : PDU) (wire : Bytes) : Prop where
  hello : (∃ p, pdu = .lanHello p) ∨ ∃ p, pdu = .p2pHello p
  encodes : pdu.serialize = .ok wire
  decodes : decodePDU wire = .ok pdu

variable {pdu : PDU} {wire : Bytes}

theorem tlvs_withTLVs (p : PDU) (ts : List TLV) : (p.withTLVs ts).tlvs = ts := by
  cases p <;> rfl

theorem withTLVs_tlvs (p : PDU) : p.withTLVs p.tlvs = p := by
  cases p <;> rfl

theorem withTLVs_withTLVs (p : PDU) (ts us : List TLV) :
    (p.withTLVs ts).withTLVs us = p.withTLVs us := by
  cases p <;> rfl

theorem HelloWire.area (h : HelloWire pdu wire) : ∃ area, serializeTLVs pdu.tlvs = .ok area ∧
    wire.length = headerLen pdu.pduType + area.length := by
  have hwire := h.encodes
  obtain ⟨area, harea⟩ : ∃ area, serializeTLVs pdu.tlvs = .ok area := by
    rcases h.hello with ⟨p, rfl⟩ | ⟨p, rfl⟩
    · obtain ⟨area, harea, -⟩ := bind_eq_ok.mp hwire
      exact ⟨area, harea⟩
    · obtain ⟨area, harea, -⟩ := bind_eq_ok.mp hwire
      exact ⟨area, harea⟩
  obtain ⟨raw, hraw, hlen⟩ := PDU.serialize_of_tlvs harea
  cases hwire.symm.trans hraw
  exact ⟨area, harea, hlen⟩

theorem serialize_padding {k : Nat} (hk : k ≤ 255) :
    (TLV.padding k).serialize = .ok (tlvTypePadding :: UInt8.ofNat k :: replicate k 0) := by
  have hlen : ¬ (replicate k (0 : UInt8)).length > 255 := by
    rw [length_replicate]
    omega
  rw [TLV.serialize, if_neg (by omega), Int.toNat_natCast, encodeTLV_eq_ok, frame, if_neg hlen,
    length_replicate]

/-- One more Padding TLV costs its header and its length, and the hello still decodes. -/
theorem HelloWire.pad (h : HelloWire pdu wire) {k : Nat} (hk : k ≤ 255)
    (hmax : wire.length + 2 + k ≤ 65535) :
    ∃ wire', HelloWire (pdu.withTLVs (pdu.tlvs ++ [.padding k])) wire' ∧
      wire'.length = wire.length + 2 + k := by
  obtain ⟨area, harea, hlen⟩ := h.area
  have hall : serializeTLVs (pdu.tlvs ++ [.padding k]) =
      .ok (area ++ (tlvTypePadding :: UInt8.ofNat k :: replicate k 0)) :=
    writeAll_append.mpr ⟨_, _, harea, by simp [writeAll, serialize_padding hk], rfl⟩
  rw [← tlvs_withTLVs pdu (pdu.tlvs ++ [TLV.padding k])] at hall
  obtain ⟨wire', hwire', hlen'⟩ := PDU.serialize_of_tlvs hall
  have htype : (pdu.withTLVs (pdu.tlvs ++ [.padding k])).pduType = pdu.pduType := by cases pdu <;>
    rfl
  have hadd : wire'.length = wire.length + 2 + k := by
    rw [hlen', hlen, htype, length_append, length_cons, length_cons, length_replicate]
    omega
  have hcanon : ∀ {ts : List TLV}, (∀ t ∈ ts, t.Canonical) →
      ∀ t ∈ ts ++ [TLV.padding k], t.Canonical := by
    intro ts hts t ht
    rcases mem_append.mp ht with ht | ht
    · exact hts t ht
    · rw [mem_singleton.mp ht]
      trivial
  have hc := (decodePDU_reencodes h.decodes).1
  refine ⟨wire', ?_, hadd⟩
  rcases h.hello with ⟨p, rfl⟩ | ⟨p, rfl⟩
  · exact ⟨.inl ⟨_, rfl⟩, hwire', LANHello.decodesBack ⟨hc.1, hc.2.1, hcanon hc.2.2⟩ hwire'
      (by omega)⟩
  · exact ⟨.inr ⟨_, rfl⟩, hwire', P2PHello.decodesBack ⟨hc.1, hcanon hc.2⟩ hwire' (by omega)⟩

/-- **Padding ends, and fills the hello to the MTU.** A hello that serializes to `n` octets and
decodes back is left as it is within two octets of the MTU less the LLC header, and is otherwise
followed by Padding TLVs that take it to that size or one octet less; the body of the loop is
entered at most once more than there are pairs of octets left. -/
theorem padHello_fills {c : CircuitConfig} (hpads : c.pads = true) (hmtu : c.mtu ≤ 65535)
    (h : HelloWire pdu wire) :
    ∃ pdu' passes wire', (∀ fuel, passes ≤ fuel → padHello c fuel pdu = some (pdu', passes)) ∧
      passes ≤ (c.mtu - 3 - wire.length).toNat / 2 + 1 ∧ pdu'.serialize = .ok wire' ∧
      ((wire.length : Int) > c.mtu - 5 → pdu' = pdu ∧ wire' = wire) ∧
      ((wire.length : Int) ≤ c.mtu - 5 →
        (wire'.length : Int) = c.mtu - 3 ∨ (wire'.length : Int) = c.mtu - 4) ∧
      decodePDU wire' = .ok pdu' ∧
      ∃ pads : List Int, pdu' = pdu.withTLVs (pdu.tlvs ++ pads.map .padding) := by
  simp only [padHello, if_pos hpads]
  -- a TLV takes two octets at least of the room that is left
  generalize hroom : (c.mtu - 3 - wire.length).toNat = room
  induction room using Nat.strong_induction_on generalizing pdu wire with
  | _ room ih =>
    by_cases hfull : c.mtu - 3 - wire.length < 2
    · refine ⟨pdu, 1, wire, fun fuel hfuel => ?_, by omega, h.encodes, fun _ => ⟨rfl, rfl⟩,
        fun hshort => by omega, h.decodes, [], ?_⟩
      · obtain ⟨fuel, rfl⟩ := Nat.exists_eq_add_of_le' hfuel
        simp only [padLoop, h.encodes, if_pos hfull]
      · rw [map_nil, append_nil, withTLVs_tlvs]
    · obtain ⟨k, hk⟩ : ∃ k : Nat, (k : Int) = min (c.mtu - 3 - wire.length - 2) 255 :=
        ⟨(min (c.mtu - 3 - wire.length - 2) 255).toNat, by omega⟩
      obtain ⟨next, hnext, hlen⟩ := h.pad (k := k) (by omega) (by omega)
      obtain ⟨pdu', passes, wire', hruns, hle, hwire', hsame, hfill, hdecode, pads, hpads'⟩ :=
        ih (c.mtu - 3 - next.length).toNat (by omega) hnext rfl
      refine ⟨pdu', passes + 1, wire', fun fuel hfuel => ?_, by omega, hwire',
        fun hlong => by omega, fun _ => ?_, hdecode, k :: pads, ?_⟩
      · obtain ⟨fuel, rfl⟩ := Nat.exists_eq_add_of_le' (Nat.le_of_add_left_le hfuel)
        simp only [padLoop, h.encodes, if_neg hfull, ← hk]
        rw [hruns fuel (by omega)]
        rfl
      · by_cases hlast : (next.length : Int) > c.mtu - 5
        · rw [(hsame hlast).2]
          omega
        · exact hfill (by omega)
      · rw [hpads', withTLVs_withTLVs, tlvs_withTLVs, append_assoc]
        rfl

/-- What `buildLANHello` makes for the neighbours heard, in chunks of 42. -/
def builtHello (heard : List (List SNPA)) : PDU :=
  .lanHello ⟨.level1, 1, octets6 0 0 0 0 0 1, 30, 64, ⟨octets6 0 0 0 0 0 1, 1⟩,
    .areaAddresses [[0x49]] :: .protocolsSupported [0xcc, 0x8e] :: heard.map .isNeighbors ++
      [.restart ⟨false, false, false, none, none⟩]⟩

def builtWire (heard : List (List SNPA)) : Bytes := (builtHello heard).serialize.toOption.getD []

theorem padHello_fills_ethernet :
    ∃ pdu' passes wire', (∀ fuel, passes ≤ fuel →
        padHello (ethernet "eth0" false 10) fuel (builtHello []) = some (pdu', passes)) ∧
      passes ≤ 730 ∧ pdu'.serialize = .ok wire' ∧ (wire'.length = 1497 ∨ wire'.length = 1496) := by
  have hwire : HelloWire (builtHello []) (builtWire []) :=
    ⟨.inl ⟨_, rfl⟩, by decide +kernel, by decide +kernel⟩
  obtain ⟨pdu', passes, wire', hruns, hle, hwire, -, hfills, -⟩ :=
    padHello_fills (c := ethernet "eth0" false 10) rfl (by decide) hwire
  have hlen := hfills (by decide)
  exact ⟨pdu', passes, wire', hruns, hle, hwire, hlen.imp Int.ofNat.inj Int.ofNat.inj⟩

/-- The stations of a crowded LAN. -/
def crowd (first : ℕ) : List SNPA := (range 42).map fun i => octets6 2 0 0 0 0 (.ofNat (first + i))

/-- A hello longer than the circuit takes is looked at once, though the room left is negative: 84
neighbours at the smallest MTU the server accepts. -/
theorem padHello_passes_over :
    padHello { ethernet "eth0" false 10 with mtu := 515 } 1 (builtHello [crowd 1, crowd 43]) =
        some (builtHello [crowd 1, crowd 43], 1) ∧
      HelloWire (builtHello [crowd 1, crowd 43]) (builtWire [crowd 1, crowd 43]) ∧
      ¬ ((1 : Int) ≤ (515 - 3 - (builtWire [crowd 1, crowd 43]).length) / 2 + 1) :=
  ⟨by decide +kernel, ⟨.inl ⟨_, rfl⟩, by decide +kernel, by decide +kernel⟩, by decide +kernel⟩

end Goisis.Server
