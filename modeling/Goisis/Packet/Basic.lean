import Goisis.Lib.Octets

/-!
# Identifiers, levels, addresses and codec errors

The basic types of `pkg/packet`: `Level`, `SystemID` / `NodeID` / `LSPID`, the sentinel errors of
`errors.go`, and the part of Go's `net/netip` the codec uses.

* A node ID is a system ID plus a pseudonode octet, an LSP ID a node ID plus a fragment octet, so
  the Go arrays `[7]byte` and `[8]byte` become records; `toBytes` gives the array back and
  `nodeIDAt` / `lspIDAt` read one out of a buffer.
* Errors keep their sentinel (what `errors.Is` classifies by); the context a wrapping `fmt.Errorf`
  adds to the text is left out.
* A `netip.Addr` is the zero address, four octets, or sixteen octets with or without a zone, which
  no octet on the wire stands for; a `netip.Prefix` has no zone, and with out-of-range bits it is
  invalid and reports `-1`.
-/

namespace Goisis.Packet

open Lib List

variable {i : Nat} {a : Bytes}

/-! ## Errors -/

/-- The sentinel errors of `errors.go`, and the two error returns of `auth.go`. -/
inductive CodecError where
  | truncated
  | unknownPDUType
  | tooLong
  | badDiscriminator
  | badVersion
  | badIDLength
  | badFixedHeader
  | badTLV
  | noAuthTLV
deriving DecidableEq, Repr

/-! ## Levels and identifiers -/

/-- An IS-IS level (`Level1`, `Level2`). -/
inductive Level where
  | level1
  | level2
deriving DecidableEq, Repr

/-- The two levels in increasing order. -/
def Level.all : List Level := [.level1, .level2]

theorem Level.mem_all (level : Level) : level ∈ Level.all := by
  cases level <;> simp [Level.all]

/-- A 6-octet system identifier. -/
abbrev SystemID := Octets 6

/-- A 6-octet subnetwork point of attachment (MAC address). -/
abbrev SNPA := Octets 6

/-- A system ID plus a pseudonode octet (zero for a real system). -/
structure NodeID where
  systemID : SystemID
  pseudonodeID : UInt8
deriving DecidableEq, Repr

/-- A node ID plus a fragment number. -/
structure LSPID where
  nodeID : NodeID
  fragmentID : UInt8
deriving DecidableEq, Repr

/-- The array `[7]byte` of a node ID. -/
def NodeID.toBytes (n : NodeID) : Bytes := n.systemID.val ++ [n.pseudonodeID]

/-- The array `[8]byte` of an LSP ID. -/
def LSPID.toBytes (l : LSPID) : Bytes := l.nodeID.toBytes ++ [l.fragmentID]

/-- `IsNodeLSP`: not a pseudonode LSP. -/
def LSPID.isNodeLSP (l : LSPID) : Bool := l.nodeID.pseudonodeID == 0

/-- `SystemID(b[i:i+6])`. -/
def systemIDAt (b : Bytes) (i : Nat) : SystemID := Octets.ofList 6 (b.drop i)

/-- `NodeID(b[i:i+7])`. -/
def nodeIDAt (b : Bytes) (i : Nat) : NodeID := ⟨systemIDAt b i, at8 b (i + 6)⟩

/-- `LSPID(b[i:i+8])`. -/
def lspIDAt (b : Bytes) (i : Nat) : LSPID := ⟨nodeIDAt b i, at8 b (i + 7)⟩

/-- The octets of a node ID, spelled out so that a field behind it is read by computation. -/
theorem NodeID.octets (n : NodeID) : ∃ a b c d e f k, n = ⟨octets6 a b c d e f, k⟩ := by
  obtain ⟨s, k⟩ := n
  obtain ⟨a, b, c, d, e, f, rfl⟩ := exists_octets6 s
  exact ⟨a, b, c, d, e, f, k, rfl⟩

theorem LSPID.octets (l : LSPID) : ∃ a b c d e f n k, l = ⟨⟨octets6 a b c d e f, n⟩, k⟩ := by
  obtain ⟨n, k⟩ := l
  obtain ⟨a, b, c, d, e, f, n, rfl⟩ := n.octets
  exact ⟨a, b, c, d, e, f, n, k, rfl⟩

theorem NodeID.length_toBytes (n : NodeID) : n.toBytes.length = 7 := by
  simp [NodeID.toBytes, n.systemID.property]

theorem LSPID.length_toBytes (l : LSPID) : l.toBytes.length = 8 := by
  simp [LSPID.toBytes, NodeID.length_toBytes]

/-- The array determines the LSP ID. -/
theorem LSPID.toBytes_inj {a b : LSPID} (h : a.toBytes = b.toBytes) : a = b := by
  obtain ⟨⟨sa, pa⟩, fa⟩ := a
  obtain ⟨⟨sb, pb⟩, fb⟩ := b
  simp only [LSPID.toBytes, NodeID.toBytes, append_assoc, cons_append, nil_append] at h
  have hlen : sa.val.length = sb.val.length := by rw [sa.property, sb.property]
  obtain ⟨hs, hr⟩ := append_inj h hlen
  obtain ⟨rfl, rfl⟩ := hr
  rw [Subtype.ext hs]

theorem nodeIDAt_congr {b c : Bytes} (h : ∀ k < 7, at8 b (i + k) = at8 c (i + k)) :
    nodeIDAt b i = nodeIDAt c i := by
  have hs : systemIDAt b i = systemIDAt c i := by
    apply Octets.ofList_congr
    intro k hk
    rw [at8_drop, at8_drop]
    exact h k (by omega)
  rw [nodeIDAt, nodeIDAt, hs, h 6 (by decide)]

theorem lspIDAt_congr {b c : Bytes} (h : ∀ k < 8, at8 b (i + k) = at8 c (i + k)) :
    lspIDAt b i = lspIDAt c i := by
  rw [lspIDAt, lspIDAt, nodeIDAt_congr fun k hk => h k (by omega), h 7 (by decide)]

/-! ## `net/netip` -/

/-- `netip.Addr`. -/
inductive Addr where
  | zero
  | v4 (o : Octets 4)
  | v6 (o : Octets 16)
  | v6Zone (o : Octets 16) (zone : String)
deriving DecidableEq, Repr

/-- `Addr.Is4`. -/
def Addr.is4 : Addr → Bool
  | .v4 _ => true
  | _ => false

/-- `Addr.Is6`. -/
def Addr.is6 : Addr → Bool
  | .v6 _ => true
  | .v6Zone _ _ => true
  | _ => false

/-- `Addr.WithZone("")`. -/
def Addr.withoutZone : Addr → Addr
  | .v6Zone o _ => .v6 o
  | a => a

/-- `Addr.IsValid`. -/
def Addr.isValid : Addr → Bool
  | .zero => false
  | _ => true

/-- `Addr.BitLen`. -/
def Addr.bitLen : Addr → Nat
  | .zero => 0
  | .v4 _ => 32
  | .v6 _ => 128
  | .v6Zone _ _ => 128

/-- The octets of an address. -/
def Addr.octets : Addr → Bytes
  | .zero => []
  | .v4 o => o.val
  | .v6 o => o.val
  | .v6Zone o _ => o.val

/-- `Addr.As16`: IPv4 is rendered IPv4-mapped, the zero address as zeros. -/
def Addr.as16 : Addr → Bytes
  | .zero => replicate 16 0
  | .v4 o => replicate 10 0 ++ [0xff, 0xff] ++ o.val
  | .v6 o => o.val
  | .v6Zone o _ => o.val

/-- `netip.Prefix`; `bits` is `-1` when the prefix is invalid. -/
structure Prefix where
  addr : Addr
  bits : Int
deriving DecidableEq, Repr

/-- `netip.PrefixFrom(ip, bits)`. -/
def prefixFrom (ip : Addr) (bits : Int) : Prefix :=
  if ip.isValid ∧ 0 ≤ bits ∧ bits ≤ ip.bitLen then ⟨ip.withoutZone, bits⟩ else ⟨ip.withoutZone, -1⟩

/-- `Prefix.IsValid`. -/
def Prefix.isValid (p : Prefix) : Bool := 0 ≤ p.bits

/-- The first `n` bits of an octet string, the rest cleared. -/
def maskOctets : Nat → Bytes → Bytes
  | _, [] => []
  | n, b :: bs => UInt8.ofNat (b.toNat / 2 ^ (8 - n) * 2 ^ (8 - n)) :: maskOctets (n - 8) bs

theorem length_maskOctets (n : Nat) (b : Bytes) : (maskOctets n b).length = b.length := by
  induction b generalizing n with
  | nil => rfl
  | cons b bs ih => simp [maskOctets, ih]

theorem getElem?_maskOctets (n i : Nat) (b : Bytes) : (maskOctets n b)[i]? =
    b[i]?.map fun x => UInt8.ofNat (x.toNat / 2 ^ (8 - (n - 8 * i)) * 2 ^ (8 - (n - 8 * i))) := by
  induction b generalizing n i with
  | nil => simp [maskOctets]
  | cons x b ih =>
    cases i with
    | zero => rfl
    | succ i =>
      have hsub : n - 8 - 8 * i = n - 8 * (i + 1) := by omega
      rw [maskOctets, getElem?_cons_succ, getElem?_cons_succ, ih, hsub]

/-- An address with everything beyond its first `n` bits cleared, and its zone. -/
def Addr.mask (n : Nat) : Addr → Addr
  | .zero => .zero
  | .v4 o => .v4 ⟨maskOctets n o.val, by rw [length_maskOctets, o.property]⟩
  | .v6 o => .v6 ⟨maskOctets n o.val, by rw [length_maskOctets, o.property]⟩
  | .v6Zone o _ => .v6 ⟨maskOctets n o.val, by rw [length_maskOctets, o.property]⟩

/-- `Prefix.Masked`: the zero prefix when invalid. -/
def Prefix.masked (p : Prefix) : Prefix :=
  if 0 ≤ p.bits then ⟨p.addr.mask p.bits.toNat, p.bits⟩ else ⟨.zero, -1⟩

theorem maskOctets_maskOctets (n : Nat) (b : Bytes) :
    maskOctets n (maskOctets n b) = maskOctets n b := by
  induction b generalizing n with
  | nil => rfl
  | cons b bs ih =>
    have hle : b.toNat / 2 ^ (8 - n) * 2 ^ (8 - n) ≤ b.toNat := Nat.div_mul_le_self _ _
    have hlt : b.toNat / 2 ^ (8 - n) * 2 ^ (8 - n) < UInt8.size := Nat.lt_of_le_of_lt hle b.toNat_lt
    simp only [maskOctets, ih, UInt8.toNat_ofNat_of_lt' hlt,
      Nat.mul_div_cancel _ (Nat.two_pow_pos (8 - n))]

theorem Addr.mask_mask (n : Nat) (a : Addr) : (a.mask n).mask n = a.mask n := by
  cases a with
  | zero => rfl
  | v4 o => simp only [Addr.mask, maskOctets_maskOctets]
  | v6 o => simp only [Addr.mask, maskOctets_maskOctets]
  | v6Zone o zone => simp only [Addr.mask, maskOctets_maskOctets]

theorem Prefix.masked_masked (p : Prefix) : p.masked.masked = p.masked := by
  unfold Prefix.masked
  split
  · simp only [Addr.mask_mask]
  · rfl

end Goisis.Packet
