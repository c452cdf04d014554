import Goisis.Lib.Octets
import Mathlib.Data.Nat.ModEq
import Mathlib.Tactic.LinearCombination
import Mathlib.Tactic.Ring

/-!
# The Fletcher checksum of an LSP

Model of `pkg/packet/checksum.go`: `fletcherChecksum` computes the ISO 8473 checksum of a buffer
whose two checksum octets are zero, `fletcherValid` verifies a buffer with the octets in place.
The running sums are reduced every 4096 octets, as in the source; `fletcherSums_eq` shows that the
reductions do not change the result.

* `fletcherValid_putU16` — writing the computed checksum into its two octets makes the buffer
  valid, for every buffer and every offset inside it.
* `fletcher_correct` — with it, no octet written is zero, and no replaced octet and no swap of two
  neighbours passes as valid.
-/

namespace Goisis.Packet

open Lib List

variable {data m l : Bytes} {a b : UInt8}

variable {off : Nat}

/-! ## Definitions -/

/-- The loop shared by `fletcherChecksum` and `fletcherValid`, from octet index `i`, with the final
reduction modulo 255. -/
def fletcherSums : Nat → Nat → Nat → Bytes → Nat × Nat
  | _, c0, c1, [] => (c0 % 255, c1 % 255)
  | i, c0, c1, b :: bs =>
    let c0 := c0 + b.toNat
    let c1 := c1 + c0
    if i % 4096 = 4095 then fletcherSums (i + 1) (c0 % 255) (c1 % 255) bs
    else fletcherSums (i + 1) c0 c1 bs

/-- The first checksum octet: Go's `%` truncates towards zero. -/
def fletcherX (len off c0 c1 : Nat) : Int :=
  let x := (((len : Int) - off - 1) * c0 - c1).tmod 255
  if x ≤ 0 then x + 255 else x

/-- The second checksum octet. -/
def fletcherY (c0 : Nat) (x : Int) : Int :=
  let y := 510 - (c0 : Int) - x
  if y > 255 then y - 255 else y

/-- `fletcherChecksum(data, checksumOffset)`. -/
def fletcherChecksum (data : Bytes) (checksumOffset : Nat) : UInt16 :=
  let c := fletcherSums 0 0 0 data
  let x := fletcherX data.length checksumOffset c.1 c.2
  let y := fletcherY c.1 x
  UInt16.ofNat (x.toNat * 256 + y.toNat)

/-- `fletcherValid(data)`. -/
def fletcherValid (data : Bytes) : Bool := fletcherSums 0 0 0 data = (0, 0)

/-! ## The sums in closed form -/

/-- The sum of the octets. -/
def octetSum : Bytes → Nat
  | [] => 0
  | b :: bs => b.toNat + octetSum bs

/-- The sum of the octets weighted by their distance to the end of the buffer. -/
def weightedSum : Bytes → Nat
  | [] => 0
  | b :: bs => (bs.length + 1) * b.toNat + weightedSum bs

theorem octetSum_append (l m : Bytes) : octetSum (l ++ m) = octetSum l + octetSum m := by
  induction l with
  | nil => simp [octetSum]
  | cons b bs ih => simp [octetSum, ih]; omega

theorem weightedSum_append (l m : Bytes) :
    weightedSum (l ++ m) = weightedSum l + m.length * octetSum l + weightedSum m := by
  induction l with
  | nil => simp [weightedSum, octetSum]
  | cons b bs ih =>
    simp only [cons_append, weightedSum, octetSum, ih, length_append]
    ring

/-- The periodic reduction is invisible: the loop returns both sums modulo 255. -/
theorem fletcherSums_eq (i c0 c1 : Nat) (bs : Bytes) :
    fletcherSums i c0 c1 bs =
      ((c0 + octetSum bs) % 255, (c1 + bs.length * c0 + weightedSum bs) % 255) := by
  induction bs generalizing i c0 c1 with
  | nil => simp [fletcherSums, octetSum, weightedSum]
  | cons b bs ih =>
    have key : c1 + (c0 + b.toNat) + bs.length * (c0 + b.toNat) + weightedSum bs =
        c1 + (bs.length + 1) * c0 + ((bs.length + 1) * b.toNat + weightedSum bs) := by ring
    simp only [fletcherSums]
    split
    · rw [ih]
      simp only [octetSum, weightedSum, length_cons, Prod.mk.injEq, ← key]
      refine ⟨by omega, ?_⟩
      exact ((Nat.mod_modEq _ 255).add ((Nat.mod_modEq _ 255).mul_left _)).add_right _
    · rw [ih]
      simp only [octetSum, weightedSum, length_cons, Prod.mk.injEq, ← key]
      exact ⟨by omega, trivial⟩

/-! ## The computed checksum verifies -/

/-- The first octet is in `[1, 255]` and solves the checksum equation modulo 255. -/
theorem fletcherX_spec (len off c0 c1 : Nat) :
    ∃ k : Int, fletcherX len off c0 c1 = ((len : Int) - off - 1) * c0 - c1 + 255 * k ∧
      1 ≤ fletcherX len off c0 c1 ∧ fletcherX len off c0 c1 ≤ 255 := by
  generalize hz : ((len : Int) - off - 1) * c0 - c1 = z
  simp only [fletcherX, hz]
  have hdiv := Int.tmod_add_mul_tdiv z 255
  have hlt := Int.tmod_lt_of_pos z (b := 255) (by decide)
  have hgt := Int.lt_tmod_of_pos z (b := 255) (by decide)
  split
  · exact ⟨1 - z.tdiv 255, by omega, by omega, by omega⟩
  · exact ⟨-z.tdiv 255, by omega, by omega, by omega⟩

theorem fletcherY_spec {c0 : Nat} {x : Int} (hc : c0 < 255) (hx : 1 ≤ x) (hx' : x ≤ 255) :
    ∃ j : Int, fletcherY c0 x = 510 - c0 - x - 255 * j ∧ 1 ≤ fletcherY c0 x ∧
      fletcherY c0 x ≤ 255 := by
  simp only [fletcherY]
  split
  · exact ⟨1, by omega, by omega, by omega⟩
  · exact ⟨0, by omega, by omega, by omega⟩

theorem fletcherValid_iff (data : Bytes) :
    fletcherValid data = true ↔ octetSum data % 255 = 0 ∧ weightedSum data % 255 = 0 := by
  simp [fletcherValid, fletcherSums_eq]

theorem eq_append_of_zero_pair (hlen : off + 1 < data.length) (h0 : at8 data off = 0)
    (h1 : at8 data (off + 1) = 0) : ∃ l m, data = l ++ 0 :: 0 :: m ∧ l.length = off := by
  have h0' : off < data.length := by omega
  rw [at8, getD_eq_getElem?_getD, getElem?_eq_getElem h0'] at h0
  rw [at8, getD_eq_getElem?_getD, getElem?_eq_getElem hlen] at h1
  refine ⟨data.take off, data.drop (off + 2), ?_, by simp; omega⟩
  calc data = data.take off ++ data.drop off := (take_append_drop off data).symm
    _ = data.take off ++ 0 :: 0 :: data.drop (off + 2) := by
      rw [drop_eq_getElem_cons h0', drop_eq_getElem_cons hlen]
      rw [Option.getD_some] at h0 h1
      rw [h0, h1]

theorem putU16_append (v : UInt16) (h : l.length = off) :
    putU16 (l ++ a :: b :: m) off v =
      l ++ UInt8.ofNat (v.toNat / 256) :: UInt8.ofNat v.toNat :: m := by
  subst h
  simp [putU16]

/-- The two octets the checksum is made of, and the two congruences they solve: with `n` octets
after the pair, `x` weighs `n + 2` and `y` weighs `n + 1`. -/
theorem fletcherChecksum_octets (l m : Bytes) :
    ∃ x y : Nat, (1 ≤ x ∧ x ≤ 255) ∧ (1 ≤ y ∧ y ≤ 255) ∧
      (fletcherChecksum (l ++ 0 :: 0 :: m) l.length).toNat = x * 256 + y ∧
      (octetSum l + octetSum m + x + y) % 255 = 0 ∧
      (weightedSum l + (m.length + 2) * octetSum l + weightedSum m +
        (m.length + 2) * x + (m.length + 1) * y) % 255 = 0 := by
  obtain ⟨S0, hS0⟩ : ∃ n, n = octetSum l + octetSum m := ⟨_, rfl⟩
  obtain ⟨S1, hS1⟩ : ∃ n, n = weightedSum l + (m.length + 2) * octetSum l + weightedSum m :=
    ⟨_, rfl⟩
  have hsums : fletcherSums 0 0 0 (l ++ 0 :: 0 :: m) = (S0 % 255, S1 % 255) := by
    rw [fletcherSums_eq]
    simp [octetSum_append, weightedSum_append, octetSum, weightedSum, hS0, hS1]
  have hlen : ((l ++ 0 :: 0 :: m).length : Int) - l.length - 1 = m.length + 1 := by
    simp
  obtain ⟨k, hx, hx1, hx2⟩ :=
    fletcherX_spec (l ++ 0 :: 0 :: m).length l.length (S0 % 255) (S1 % 255)
  obtain ⟨x, hxx⟩ : ∃ x, x = fletcherX (l ++ 0 :: 0 :: m).length l.length (S0 % 255) (S1 % 255) :=
    ⟨_, rfl⟩
  rw [← hxx, hlen] at hx
  rw [← hxx] at hx1 hx2
  obtain ⟨j, hy, hy1, hy2⟩ := fletcherY_spec (Nat.mod_lt S0 (by decide)) hx1 hx2
  obtain ⟨y, hyy⟩ : ∃ y, y = fletcherY (S0 % 255) x := ⟨_, rfl⟩
  rw [← hyy] at hy hy1 hy2
  lift x to Nat using (by omega)
  lift y to Nat using (by omega)
  have d1 := Nat.mod_add_div S1 255
  refine ⟨x, y, ⟨by omega, by omega⟩, ⟨by omega, by omega⟩, ?_, ?_, ?_⟩
  · simp only [fletcherChecksum, hsums, ← hxx, ← hyy, UInt16.toNat_ofNat', Int.toNat_natCast]
    omega
  · omega
  · rw [← hS1]
    zify at d1 ⊢
    push_cast at hx hy
    apply Int.emod_eq_zero_of_dvd
    -- `S1 + (n+2)x + (n+1)y = S1 + x + (n+1)(x + y)`, and both parts are known modulo 255
    refine ⟨S1 / 255 + k + (m.length + 1) * (2 - j), ?_⟩
    linear_combination (-1 : Int) * d1 + hx + (m.length + 1) * hy

theorem octets_of_toNat {v : UInt16} {x y : Nat} (hx : x ≤ 255) (hy : y ≤ 255)
    (hv : v.toNat = x * 256 + y) :
    (UInt8.ofNat (v.toNat / 256)).toNat = x ∧ (UInt8.ofNat v.toNat).toNat = y := by
  rw [hv, UInt8.toNat_ofNat', UInt8.toNat_ofNat']
  omega

/-- **The checksum verifies**: with the two checksum octets zero, writing `fletcherChecksum` into
them gives a buffer `fletcherValid` accepts. -/
theorem fletcherValid_putU16 (hlen : off + 1 < data.length) (h0 : at8 data off = 0)
    (h1 : at8 data (off + 1) = 0) :
    fletcherValid (putU16 data off (fletcherChecksum data off)) = true := by
  obtain ⟨l, m, rfl, rfl⟩ := eq_append_of_zero_pair hlen h0 h1
  obtain ⟨x, y, hx, hy, hv, hsum, hwsum⟩ := fletcherChecksum_octets l m
  rw [putU16_append _ rfl, fletcherValid_iff]
  obtain ⟨hhi, hlo⟩ := octets_of_toNat hx.2 hy.2 hv
  simp only [octetSum_append, weightedSum_append, octetSum, weightedSum, length_cons, hhi, hlo]
  refine ⟨?_, ?_⟩
  · rw [← hsum]; congr 1; ring
  · rw [← hwsum]; congr 1; ring

/-- Neither octet written is zero. -/
theorem fletcherChecksum_octets_pos (hlen : off + 1 < data.length) (h0 : at8 data off = 0)
    (h1 : at8 data (off + 1) = 0) :
    1 ≤ (at8 (putU16 data off (fletcherChecksum data off)) off).toNat ∧
      1 ≤ (at8 (putU16 data off (fletcherChecksum data off)) (off + 1)).toNat ∧
      fletcherChecksum data off ≠ 0 := by
  obtain ⟨l, m, rfl, rfl⟩ := eq_append_of_zero_pair hlen h0 h1
  obtain ⟨x, y, hx, hy, hv, -, -⟩ := fletcherChecksum_octets l m
  obtain ⟨hhi, hlo⟩ := octets_of_toNat hx.2 hy.2 hv
  have hne : fletcherChecksum (l ++ 0 :: 0 :: m) l.length ≠ 0 := by
    intro h
    rw [h, UInt16.toNat_zero] at hv
    omega
  rw [putU16_append _ rfl]
  refine ⟨?_, ?_, hne⟩
  · simpa [at8, hhi] using hx.1
  · rw [← hlo] at hy
    simpa [at8] using hy.1

/-! ## What the checksum detects -/

/-- The sums of the loop with no reduction on the way. -/
def unreducedSums : Nat → Nat → Bytes → Nat × Nat
  | c0, c1, [] => (c0, c1)
  | c0, c1, b :: bs => unreducedSums (c0 + b.toNat) (c1 + (c0 + b.toNat)) bs

theorem unreducedSums_eq (c0 c1 : Nat) (bs : Bytes) :
    unreducedSums c0 c1 bs = (c0 + octetSum bs, c1 + bs.length * c0 + weightedSum bs) := by
  induction bs generalizing c0 c1 with
  | nil => simp [unreducedSums, octetSum, weightedSum]
  | cons b bs ih =>
    simp only [unreducedSums, ih, octetSum, weightedSum, length_cons, Prod.mk.injEq]
    exact ⟨by omega, by ring⟩

/-- One octet replaced moves the first sum by the difference of the two. -/
theorem fletcherValid_replaced (h : fletcherValid (l ++ a :: m) = true)
    (hab : a.toNat % 255 ≠ b.toNat % 255) : fletcherValid (l ++ b :: m) = false := by
  rw [fletcherValid_iff] at h
  rw [Bool.eq_false_iff, ne_eq, fletcherValid_iff]
  simp only [octetSum_append, octetSum] at h ⊢
  omega

/-- Two neighbours swapped leave the first sum and move the second by their difference. -/
theorem fletcherValid_swapped (h : fletcherValid (l ++ a :: b :: m) = true)
    (hab : a.toNat % 255 ≠ b.toNat % 255) : fletcherValid (l ++ b :: a :: m) = false := by
  rw [fletcherValid_iff] at h
  rw [Bool.eq_false_iff, ne_eq, fletcherValid_iff]
  simp only [weightedSum_append, weightedSum, length_cons] at h ⊢
  have hsucc : ∀ c : UInt8, (m.length + 1 + 1) * c.toNat = (m.length + 1) * c.toNat + c.toNat := by
    intro c
    ring
  rw [hsucc] at h ⊢
  omega

/-- **The Fletcher checksum is correct**, for a buffer of any length: what `fletcherChecksum`
writes into two zero octets verifies and has no zero octet, the loop's reductions agree with the
unreduced sums, and in a valid buffer neither an octet replaced nor two neighbours swapped go
unnoticed unless the octets are congruent modulo 255. -/
theorem fletcher_correct (data : Bytes) :
    (∀ off, off + 1 < data.length → at8 data off = 0 → at8 data (off + 1) = 0 →
      fletcherValid (putU16 data off (fletcherChecksum data off)) = true ∧
      1 ≤ (at8 (putU16 data off (fletcherChecksum data off)) off).toNat ∧
      1 ≤ (at8 (putU16 data off (fletcherChecksum data off)) (off + 1)).toNat ∧
      fletcherChecksum data off ≠ 0) ∧
    fletcherSums 0 0 0 data =
      ((unreducedSums 0 0 data).1 % 255, (unreducedSums 0 0 data).2 % 255) ∧
    (fletcherValid data = true → ∀ l m a b, a.toNat % 255 ≠ b.toNat % 255 →
      (data = l ++ a :: m → fletcherValid (l ++ b :: m) = false) ∧
      (data = l ++ a :: b :: m → fletcherValid (l ++ b :: a :: m) = false)) := by
  refine ⟨?_, ?_, ?_⟩
  · intro off hlen h0 h1
    exact ⟨fletcherValid_putU16 hlen h0 h1, fletcherChecksum_octets_pos hlen h0 h1⟩
  · rw [fletcherSums_eq, unreducedSums_eq]
  · intro h l m a b hab
    refine ⟨?_, ?_⟩
    · rintro rfl
      exact fletcherValid_replaced h hab
    · rintro rfl
      exact fletcherValid_swapped h hab

theorem fletcher_correct_five :
    fletcherValid (putU16 [9, 4, 0, 0, 7] 2 (fletcherChecksum [9, 4, 0, 0, 7] 2)) = true ∧
      fletcherValid [9, 4, 227, 8, 7] = true ∧ fletcherValid [8, 4, 227, 8, 7] = false ∧
      fletcherValid [4, 9, 227, 8, 7] = false := by
  have hsum : fletcherValid [9, 4, 227, 8, 7] = true := by decide
  obtain ⟨hput, -, -⟩ := fletcher_correct [9, 4, 0, 0, 7]
  obtain ⟨-, -, hedit⟩ := fletcher_correct [9, 4, 227, 8, 7]
  refine ⟨(hput 2 (by decide) rfl rfl).1, hsum, ?_, ?_⟩
  · exact (hedit hsum [] [4, 227, 8, 7] 9 8 (by decide)).1 rfl
  · exact (hedit hsum [] [227, 8, 7] 9 4 (by decide)).2 rfl

end Goisis.Packet
