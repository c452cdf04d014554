import Goisis.Packet.PDU

/-!
# HMAC authentication of PDUs

Model of `pkg/packet/auth.go`: the Authentication TLV placeholder (`AuthTLV`), the search for the
digest in a serialized PDU (`authDigestRange`), and `PatchAuth` / `VerifyAuth` / `FinalizeLSPAuth`.
The hash itself is a parameter: `Hmac` is an arbitrary function of the algorithm, the key and the
message, and `copy` takes as many of its octets as the digest field has room for.

`FinalizeLSPAuth` fills the digest and recomputes the Fletcher checksum in the bytes only. What it
keeps is stated by `finalizeLSPAuth_fields`; the checksum an LSP struct cached before is not part
of it.
-/

namespace Goisis.Packet

open Lib

variable {algo : AuthAlgorithm} {keyID : UInt16} {off : Nat} {pdu : Bytes}

/-- The supported algorithms (`AuthAlgorithm`). -/
inductive AuthAlgorithm where
  | md5
  | sha1
  | sha256
  | sha384
  | sha512
deriving DecidableEq, Repr

/-- HMAC: algorithm, key and message to digest. -/
abbrev Hmac := AuthAlgorithm → Bytes → Bytes → Bytes

/-- `digestLen()`. -/
def AuthAlgorithm.digestLen : AuthAlgorithm → Nat
  | .md5 => 16
  | .sha1 => 20
  | .sha256 => 32
  | .sha384 => 48
  | .sha512 => 64

/-- `authType()`: 54 for HMAC-MD5, 3 for the generic cryptographic authentication. -/
def AuthAlgorithm.authType : AuthAlgorithm → UInt8
  | .md5 => 54
  | _ => 3

/-- The value of the placeholder after the type octet: a zeroed digest, behind the key ID for the
SHA family. -/
def AuthAlgorithm.placeholder (algo : AuthAlgorithm) (keyID : UInt16) : Bytes :=
  if algo = .md5 then List.replicate algo.digestLen 0
  else be16 keyID ++ List.replicate algo.digestLen 0

/-- `AuthTLV(algo, keyID)`. -/
def authTLV (algo : AuthAlgorithm) (keyID : UInt16) : TLV :=
  .authentication algo.authType (algo.placeholder keyID)

/-- Where the digest starts inside the value of an Authentication TLV that matches the algorithm
(and, for the SHA family, the key ID). -/
def digestOffset (algo : AuthAlgorithm) (keyID : UInt16) (value : Bytes) : Option Nat :=
  if value.length < 1 ∨ at8 value 0 ≠ algo.authType then none
  else if algo = .md5 ∧ value.length = 1 + algo.digestLen then some 1
  else if algo ≠ .md5 ∧ value.length = 3 + algo.digestLen ∧ u16At value 1 = keyID then some 3
  else none

/-- The scan of `authDigestRange` over the TLV area from offset `i`: `seen` once an Authentication
TLV was met, `found` the digest range so far. A second Authentication TLV voids the result. -/
def authScan (algo : AuthAlgorithm) (keyID : UInt16) :
    Nat → Nat → Bytes → Bool → Option (Nat × Nat) → Option (Nat × Nat)
  | 0, _, _, _, found => found
  | fuel + 1, i, b, seen, found =>
    match splitFrame b with
    | none => found
    | some (typ, value, rest) =>
      let next := i + 2 + value.length
      if typ ≠ tlvTypeAuthentication then authScan algo keyID fuel next rest seen found
      else if seen then none
      else
        let found := match digestOffset algo keyID value with
          | none => found
          | some off => some (i + 2 + off, i + 2 + off + algo.digestLen)
        authScan algo keyID fuel next rest true found

/-- `authDigestRange(pdu, tlvOffset, algo, keyID)`. -/
def authDigestRange (pdu : Bytes) (tlvOffset : Nat) (algo : AuthAlgorithm) (keyID : UInt16) :
    Option (Nat × Nat) :=
  authScan algo keyID pdu.length tlvOffset (pdu.drop tlvOffset) false none

/-- `hmacOver(pdu, digestStart, digestEnd, isLSP, key, hf)`. -/
def hmacOver (hmac : Hmac) (pdu : Bytes) (digestStart digestEnd : Nat) (isLSP : Bool)
    (algo : AuthAlgorithm) (key : Bytes) : Bytes :=
  let buf := copyInto pdu digestStart digestEnd (List.replicate (digestEnd - digestStart) 0)
  let buf := if isLSP then putU16 (putU16 buf 10 0) 24 0 else buf
  hmac algo key buf

/-- `PatchAuth(pdu, tlvOffset, algo, keyID, key, isLSP)`. -/
def patchAuth (hmac : Hmac) (pdu : Bytes) (tlvOffset : Nat) (algo : AuthAlgorithm) (keyID : UInt16)
    (key : Bytes) (isLSP : Bool) : Except CodecError Bytes :=
  match authDigestRange pdu tlvOffset algo keyID with
  | none => .error .noAuthTLV
  | some (s, e) => .ok (copyInto pdu s e (hmacOver hmac pdu s e isLSP algo key))

/-- `VerifyAuth(pdu, tlvOffset, algo, keyID, key, isLSP)`. -/
def verifyAuth (hmac : Hmac) (pdu : Bytes) (tlvOffset : Nat) (algo : AuthAlgorithm) (keyID : UInt16)
    (key : Bytes) (isLSP : Bool) : Bool :=
  match authDigestRange pdu tlvOffset algo keyID with
  | none => false
  | some (s, e) => slice pdu s e == hmacOver hmac pdu s e isLSP algo key

/-- `FinalizeLSPAuth(pdu, algo, keyID, key)`. -/
def finalizeLSPAuth (hmac : Hmac) (pdu : Bytes) (algo : AuthAlgorithm) (keyID : UInt16)
    (key : Bytes) : Except CodecError Bytes :=
  match patchAuth hmac pdu lspHeaderLen algo keyID key true with
  | .error e => .error e
  | .ok pdu =>
    let pdu := putU16 pdu 24 0
    .ok (putU16 pdu 24 (fletcherChecksum (pdu.drop 12) 12))

/-! ## Where the digest is -/

theorem digestOffset_bound {value : Bytes} (h : digestOffset algo keyID value = some off) :
    off + algo.digestLen ≤ value.length := by
  unfold digestOffset at h
  split at h
  · cases h
  split at h
  · cases h
    omega
  split at h
  · cases h
    omega
  · cases h

/-- The scan returns what it had found, or a range inside the part still to scan. -/
theorem authScan_bound {fuel i : Nat} {b : Bytes} {seen : Bool} {found : Option (Nat × Nat)}
    {s e : Nat} (h : authScan algo keyID fuel i b seen found = some (s, e)) :
    found = some (s, e) ∨ (i ≤ s ∧ s ≤ e ∧ e ≤ i + b.length) := by
  induction fuel generalizing i b seen found with
  | zero => exact .inl h
  | succ fuel ih =>
    unfold authScan at h
    cases hs : splitFrame b with
    | none => rw [hs] at h; exact .inl h
    | some f =>
      obtain ⟨typ, value, rest⟩ := f
      have hlen := splitFrame_length hs
      rw [hs] at h
      simp only at h
      split at h
      · rcases ih h with h | ⟨h1, h2, h3⟩
        · exact .inl h
        · exact .inr ⟨by omega, h2, by omega⟩
      · split at h
        · cases h
        · rcases ih h with h | ⟨h1, h2, h3⟩
          · cases hd : digestOffset algo keyID value with
            | none => rw [hd] at h; exact .inl h
            | some off =>
              rw [hd] at h
              cases h
              have := digestOffset_bound hd
              exact .inr ⟨by omega, by omega, by omega⟩
          · exact .inr ⟨by omega, h2, by omega⟩

/-- The digest lies in the TLV area. -/
theorem authDigestRange_bound {s e : Nat} (hoff : off ≤ pdu.length)
    (h : authDigestRange pdu off algo keyID = some (s, e)) : off ≤ s ∧ s ≤ e ∧ e ≤ pdu.length := by
  rcases authScan_bound h with h | ⟨h1, h2, h3⟩
  · cases h
  · rw [List.length_drop] at h3
    exact ⟨h1, h2, by omega⟩

/-- **What `FinalizeLSPAuth` keeps**: the length and every octet before the checksum field stay,
and the recomputed checksum verifies. -/
theorem finalizeLSPAuth_fields {hmac : Hmac} {pdu pdu' : Bytes} {key : Bytes}
    (hlen : lspHeaderLen ≤ pdu.length) (h : finalizeLSPAuth hmac pdu algo keyID key = .ok pdu') :
    pdu'.length = pdu.length ∧ (∀ j < 24, at8 pdu' j = at8 pdu j) ∧
      lspChecksumValidRaw pdu' = true := by
  unfold finalizeLSPAuth patchAuth at h
  cases hr : authDigestRange pdu lspHeaderLen algo keyID with
  | none => rw [hr] at h; cases h
  | some r =>
    obtain ⟨s, e⟩ := r
    obtain ⟨h1, h2, h3⟩ := authDigestRange_bound hlen hr
    rw [hr] at h
    cases h
    have h27 : 27 ≤ s := h1
    have h27' : 27 ≤ pdu.length := hlen
    obtain ⟨p, hp⟩ : ∃ p, p = copyInto pdu s e (hmacOver hmac pdu s e true algo key) := ⟨_, rfl⟩
    have hplen : p.length = pdu.length := by rw [hp]; exact length_copyInto h2 h3
    have hpat : ∀ j < 24, at8 p j = at8 pdu j := by
      intro j hj
      rw [hp]
      exact at8_copyInto_lt (by omega) (by omega)
    rw [← hp]
    refine ⟨by simp [hplen], ?_, ?_⟩
    · intro j hj
      rw [at8_putU16_ne (by omega) (by omega), at8_putU16_ne (by omega) (by omega)]
      exact hpat j hj
    · apply lspChecksumValidRaw_putU16
      · rw [length_putU16, hplen]; exact hlen
      · exact at8_putU16_zero_left (by omega)
      · exact at8_putU16_zero_right (by omega)

/-- The scan reads the TLV area only. -/
theorem authDigestRange_putHeader {off i : Nat} (v : UInt16) (hi : i + 2 ≤ off) :
    authDigestRange (putU16 pdu i v) off algo keyID = authDigestRange pdu off algo keyID := by
  unfold authDigestRange
  rw [length_putU16, drop_putU16_of_le hi]

/-- **The verdict on an LSP does not depend on its remaining lifetime**: the digest lies in the TLV
area and the lifetime is zeroed before hashing. -/
theorem verifyAuth_putU16 {hmac : Hmac} (hlen : lspHeaderLen ≤ pdu.length) (algo : AuthAlgorithm)
    (keyID : UInt16) (key : Bytes) (v : UInt16) :
    verifyAuth hmac (putU16 pdu 10 v) lspHeaderLen algo keyID key true =
      verifyAuth hmac pdu lspHeaderLen algo keyID key true := by
  unfold verifyAuth
  rw [authDigestRange_putHeader v (by decide)]
  cases hr : authDigestRange pdu lspHeaderLen algo keyID with
  | none => rfl
  | some r =>
    obtain ⟨s, e⟩ := r
    obtain ⟨hs, hse, he⟩ := authDigestRange_bound hlen hr
    have h27 : 27 ≤ s := hs
    have hslice : slice (putU16 pdu 10 v) s e = slice pdu s e := by
      unfold slice
      rw [drop_putU16_of_le (by omega)]
    have hhmac : hmacOver hmac (putU16 pdu 10 v) s e true algo key =
        hmacOver hmac pdu s e true algo key := by
      unfold hmacOver
      simp only [if_true]
      rw [copyInto_putU16 (by omega) (by omega), putU16_putU16]
    simp only [hslice, hhmac]

/-! ## The placeholder is found again -/

theorem length_placeholder (algo : AuthAlgorithm) (keyID : UInt16) :
    (algo.placeholder keyID).length ≤ 66 := by
  cases algo <;> simp [AuthAlgorithm.placeholder, AuthAlgorithm.digestLen, be16]

/-- The placeholder is recognised by its own algorithm and key ID. -/
theorem digestOffset_placeholder (algo : AuthAlgorithm) (keyID : UInt16) :
    (digestOffset algo keyID (algo.authType :: algo.placeholder keyID)).isSome = true := by
  have hkey : u16 (UInt8.ofNat (keyID.toNat / 256)) keyID.toUInt8 = keyID := by
    simpa using u16_be16 keyID
  cases algo <;>
    simp [AuthAlgorithm.placeholder, AuthAlgorithm.digestLen, digestOffset,
      AuthAlgorithm.authType, at8, be16, u16At, hkey]

/-- `encodeTLV` succeeds on every value that fits the length octet. -/
theorem encodeTLV_ok (t : UInt8) {value : Bytes} (h : value.length ≤ 255) :
    ∃ b, frame t value = some b ∧ encodeTLV t value = .ok b := by
  refine ⟨t :: UInt8.ofNat value.length :: value, ?_, ?_⟩ <;>
    simp [encodeTLV, frame, show ¬ 255 < value.length by omega]

/-- In a TLV area made of one other TLV and the placeholder, the digest is found. -/
theorem authScan_isSome {other auth value : Bytes} {t : UInt8} (fuel : Nat)
    (hother : frame t value = some other) (ht : t ≠ tlvTypeAuthentication)
    (hauth : frame tlvTypeAuthentication (algo.authType :: algo.placeholder keyID) = some auth) :
    (authScan algo keyID (fuel + 2) off (other ++ auth) false none).isSome = true := by
  have hsplit := splitFrame_frame hauth []
  rw [List.append_nil] at hsplit
  obtain ⟨o, ho⟩ := Option.isSome_iff_exists.mp (digestOffset_placeholder algo keyID)
  simp only [authScan, splitFrame_frame hother auth, hsplit, if_pos ht, ho]
  cases fuel <;> simp [authScan, splitFrame]

end Goisis.Packet
