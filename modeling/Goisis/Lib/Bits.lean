import Goisis.Lib.Octets

/-!
# The bits of an octet string

Bit 0 is the most significant bit of the first octet, as an address is read.

* `ext_bitAt` — an octet string is its bits;
* `bitAt_modify` — a change of one octet.
-/

namespace Goisis.Lib

/-- Bit `i` of an octet string. -/
def bitAt (b : Bytes) (i : Nat) : Bool := (at8 b (i / 8)).toNat.testBit (7 - i % 8)

theorem testBit_octet (x : UInt8) {k : Nat} (hk : 8 ≤ k) : x.toNat.testBit k = false :=
  Nat.testBit_lt_two_pow (lt_of_lt_of_le x.toNat_lt (Nat.pow_le_pow_right (by decide) hk))

theorem ext_bitAt {b d : Bytes} (hlen : b.length = d.length)
    (h : ∀ i < 8 * b.length, bitAt b i = bitAt d i) : b = d := by
  refine List.ext_getElem hlen fun j hj hj' => UInt8.toNat_inj.mp (Nat.eq_of_testBit_eq fun k => ?_)
  have hb : at8 b j = b[j] := by simp [at8, hj]
  have hd : at8 d j = d[j] := by simp [at8, hj']
  by_cases hk : k < 8
  · have hbit := h (8 * j + (7 - k)) (by omega)
    have hdiv : (8 * j + (7 - k)) / 8 = j := by omega
    have hmod : 7 - (8 * j + (7 - k)) % 8 = k := by omega
    unfold bitAt at hbit
    rwa [hdiv, hmod, hb, hd] at hbit
  · rw [testBit_octet _ (by omega), testBit_octet _ (by omega)]

theorem bitAt_modify {b : Bytes} {j : Nat} (hj : j < b.length) (f : UInt8 → UInt8) (i : Nat) :
    bitAt (b.modify j f) i =
      if i / 8 = j then (f (at8 b j)).toNat.testBit (7 - i % 8) else bitAt b i := by
  unfold bitAt at8
  by_cases h : i / 8 = j
  · simp [h, hj]
  · have h' : j ≠ i / 8 := fun heq => h heq.symm
    simp [h, h']

end Goisis.Lib
