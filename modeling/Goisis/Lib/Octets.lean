import Mathlib.Data.List.Basic
import Mathlib.Tactic.Linarith

/-!
# Octet strings: big-endian fields, fixed-width identifiers, type-length-value framing

Byte buffers are lists of octets. A Go slice expression `b[i:j]` is `slice b i j`, an in-place
`binary.BigEndian.PutUint16(b[i:], v)` is `putU16 b i v`, and a fixed-size array type `[n]byte` is
`Octets n`, a list that carries the proof of its length.

* `u16At` / `u32At` read big-endian fields; `be16` / `be32` render them, and
  `u16_be16` / `u32_be32` say the two are inverse.
* `readAll` is the loop `for len(b) > 0 { … }` of a length-prefixed decoder: one item at a time
  until the buffer is empty, structurally recursive on the buffer's length.
* `splitFrame` / `frame` are the type-length-value framing with one-octet fields.
* `le_iff_bigEndian_le`: octet strings of one length compare as the numbers they spell.
-/

namespace Goisis.Lib

open List

variable {i s e n : Nat} {b a : Bytes} {v : UInt16} {typ : UInt8}

/-- A byte buffer. -/
abbrev Bytes := List UInt8

/-! ## Fixed-width octet strings -/

/-- A Go array `[n]byte`: `n` octets. -/
abbrev Octets (n : Nat) := { l : Bytes // l.length = n }

/-- `copy(full[:], l)` into a zeroed array of `n` octets: excess octets are dropped and missing
ones are zero. -/
def Octets.ofList (n : Nat) (l : Bytes) : Octets n :=
  ⟨(l ++ replicate n 0).take n, by simp⟩

/-- The array `[4]byte{a, b, c, d}`. -/
def octets4 (a b c d : UInt8) : Octets 4 := ⟨[a, b, c, d], rfl⟩

/-- The array `[6]byte{a, b, c, d, e, f}`. -/
def octets6 (a b c d e f : UInt8) : Octets 6 := ⟨[a, b, c, d, e, f], rfl⟩

theorem exists_octets6 (o : Octets 6) : ∃ a b c d e f, o = octets6 a b c d e f := by
  obtain ⟨_ | ⟨a, _ | ⟨b, _ | ⟨c, _ | ⟨d, _ | ⟨e, _ | ⟨f, _ | ⟨g, l⟩⟩⟩⟩⟩⟩⟩, h⟩ := o
  case cons.cons.cons.cons.cons.cons.nil => exact ⟨a, b, c, d, e, f, rfl⟩
  all_goals simp at h

/-- The zero array. -/
def Octets.zero (n : Nat) : Octets n := ⟨replicate n 0, by simp⟩

theorem Octets.ofList_append (o : Octets n) (l : Bytes) : Octets.ofList n (o.val ++ l) = o := by
  apply Subtype.ext
  have h : n = o.val.length := o.property.symm
  unfold Octets.ofList
  simp only [append_assoc]
  rw [take_append_of_le_length (by omega), take_of_length_le (by omega)]

theorem Octets.ofList_val (o : Octets n) : Octets.ofList n o.val = o := by
  have h := Octets.ofList_append o []
  rwa [append_nil] at h

/-! ## Big-endian fields -/

/-- The two octets of a 16-bit field, most significant first. -/
def be16 (v : UInt16) : Bytes := [UInt8.ofNat (v.toNat / 256), UInt8.ofNat v.toNat]

/-- The three low octets of a 32-bit value, most significant first. -/
def be24 (v : UInt32) : Bytes :=
  [UInt8.ofNat (v.toNat / 65536), UInt8.ofNat (v.toNat / 256), UInt8.ofNat v.toNat]

/-- The four octets of a 32-bit field, most significant first. -/
def be32 (v : UInt32) : Bytes :=
  [UInt8.ofNat (v.toNat / 16777216), UInt8.ofNat (v.toNat / 65536), UInt8.ofNat (v.toNat / 256),
    UInt8.ofNat v.toNat]

/-- `uint16(a)<<8 | uint16(b)`. -/
def u16 (a b : UInt8) : UInt16 := UInt16.ofNat (a.toNat * 256 + b.toNat)

/-- `uint32(a)<<16 | uint32(b)<<8 | uint32(c)`. -/
def u24 (a b c : UInt8) : UInt32 := UInt32.ofNat (a.toNat * 65536 + b.toNat * 256 + c.toNat)

/-- `uint32(a)<<24 | uint32(b)<<16 | uint32(c)<<8 | uint32(d)`. -/
def u32 (a b c d : UInt8) : UInt32 :=
  UInt32.ofNat (a.toNat * 16777216 + b.toNat * 65536 + c.toNat * 256 + d.toNat)

/-- `b[i]`, zero out of range (every caller checks the length first). -/
def at8 (b : Bytes) (i : Nat) : UInt8 := b.getD i 0

/-- `binary.BigEndian.Uint16(b[i:])`. -/
def u16At (b : Bytes) (i : Nat) : UInt16 := u16 (at8 b i) (at8 b (i + 1))

/-- `binary.BigEndian.Uint32(b[i:])`. -/
def u32At (b : Bytes) (i : Nat) : UInt32 :=
  u32 (at8 b i) (at8 b (i + 1)) (at8 b (i + 2)) (at8 b (i + 3))

/-- `b[i:j]`. -/
def slice (b : Bytes) (i j : Nat) : Bytes := (b.drop i).take (j - i)

/-- `binary.BigEndian.PutUint16(b[i:], v)`. -/
def putU16 (b : Bytes) (i : Nat) (v : UInt16) : Bytes :=
  (b.set i (UInt8.ofNat (v.toNat / 256))).set (i + 1) (UInt8.ofNat v.toNat)

/-- `copy(b[s:e], src)`: as many octets as both sides have. -/
def copyInto (b : Bytes) (s e : Nat) (src : Bytes) : Bytes :=
  b.take s ++ (src.take (e - s) ++ b.drop (s + min (e - s) src.length))

theorem at8_take {n j : Nat} (h : j < n) : at8 (b.take n) j = at8 b j := by
  simp only [at8, getD_eq_getElem?_getD]
  rw [getElem?_take_of_lt h]

theorem at8_drop (b : Bytes) (i j : Nat) : at8 (b.drop i) j = at8 b (i + j) := by
  simp only [at8, getD_eq_getElem?_getD, getElem?_drop]

/-- An array read out of a buffer depends on its own octets only. -/
theorem Octets.ofList_congr {l m : Bytes} (h : ∀ k < n, at8 l k = at8 m k) :
    Octets.ofList n l = Octets.ofList n m := by
  have key : ∀ (l : Bytes) (k : Nat), k < n → (l ++ replicate n 0)[k]? = some (at8 l k) := by
    intro l k hk
    simp only [at8, getD_eq_getElem?_getD]
    by_cases hl : k < l.length
    · rw [getElem?_append_left hl, getElem?_eq_getElem hl, Option.getD_some]
    · rw [getElem?_append_right (by omega), getElem?_replicate, if_pos (by omega),
        getElem?_eq_none (by omega), Option.getD_none]
  apply Subtype.ext
  apply ext_getElem?
  intro k
  by_cases hk : k < n
  · simp only [Octets.ofList]
    rw [getElem?_take_of_lt hk, getElem?_take_of_lt hk, key l k hk, key m k hk, h k hk]
  have hlen : ∀ o : Octets n, o.val[k]? = none := fun o =>
    getElem?_eq_none (by rw [o.property]; omega)
  rw [hlen, hlen]

theorem u16At_congr {b c : Bytes} (h : ∀ k < 2, at8 b (i + k) = at8 c (i + k)) :
    u16At b i = u16At c i := by
  have h0 := h 0 (by decide)
  have h1 := h 1 (by decide)
  rw [Nat.add_zero] at h0
  simp only [u16At, h0, h1]

theorem u32At_congr {b c : Bytes} (h : ∀ k < 4, at8 b (i + k) = at8 c (i + k)) :
    u32At b i = u32At c i := by
  have h0 := h 0 (by decide)
  have h1 := h 1 (by decide)
  have h2 := h 2 (by decide)
  have h3 := h 3 (by decide)
  rw [Nat.add_zero] at h0
  simp only [u32At, h0, h1, h2, h3]

theorem u16_be16 (v : UInt16) : u16 (UInt8.ofNat (v.toNat / 256)) (UInt8.ofNat v.toNat) = v := by
  apply UInt16.toNat_inj.mp
  have hv : v.toNat < 65536 := v.toNat_lt
  simp only [u16, UInt16.toNat_ofNat', UInt8.toNat_ofNat']
  omega

theorem u32_be32 (v : UInt32) :
    u32 (UInt8.ofNat (v.toNat / 16777216)) (UInt8.ofNat (v.toNat / 65536))
      (UInt8.ofNat (v.toNat / 256)) (UInt8.ofNat v.toNat) = v := by
  apply UInt32.toNat_inj.mp
  have hv : v.toNat < 4294967296 := v.toNat_lt
  simp only [u32, UInt32.toNat_ofNat', UInt8.toNat_ofNat']
  omega

theorem at8_append_right (h : a.length = i) (b : Bytes) (k : Nat) :
    at8 (a ++ b) (i + k) = at8 b k := by
  simp only [at8, getD_eq_getElem?_getD]
  rw [getElem?_append_right (by omega)]
  congr 2
  omega

@[simp] theorem length_putU16 (b : Bytes) (i : Nat) (v : UInt16) :
    (putU16 b i v).length = b.length := by
  simp [putU16]

theorem at8_putU16_ne {i j : Nat} (h0 : j ≠ i) (h1 : j ≠ i + 1) :
    at8 (putU16 b i v) j = at8 b j := by
  simp only [at8, putU16, getD_eq_getElem?_getD]
  rw [getElem?_set_ne (by omega), getElem?_set_ne (by omega)]

theorem u16At_putU16_self (h : i + 1 < b.length) : u16At (putU16 b i v) i = v := by
  have h0 : i < b.length := by omega
  simp only [u16At, at8, putU16, getD_eq_getElem?_getD]
  rw [getElem?_set_ne (by omega), getElem?_set_self h0, getElem?_set_self (by simpa using h)]
  exact u16_be16 v

theorem length_copyInto {b src : Bytes} (hse : s ≤ e) (he : e ≤ b.length) :
    (copyInto b s e src).length = b.length := by
  simp only [copyInto, length_append, length_take, length_drop]
  omega

theorem at8_copyInto_lt {b src : Bytes} {s e j : Nat} (hs : s ≤ b.length) (hj : j < s) :
    at8 (copyInto b s e src) j = at8 b j := by
  have hlen : j < (b.take s).length := by rw [length_take]; omega
  simp only [at8, copyInto, getD_eq_getElem?_getD]
  rw [getElem?_append_left hlen, getElem?_take_of_lt hj]

theorem at8_putU16_zero_left (h : i < b.length) : at8 (putU16 b i 0) i = 0 := by
  simp only [at8, putU16, getD_eq_getElem?_getD]
  rw [getElem?_set_ne (by omega), getElem?_set_self h]
  rfl

theorem at8_putU16_zero_right (h : i + 1 < b.length) : at8 (putU16 b i 0) (i + 1) = 0 := by
  simp only [at8, putU16, getD_eq_getElem?_getD]
  rw [getElem?_set_self (by simpa using h)]
  rfl

theorem putU16_putU16 (b : Bytes) (i : Nat) (v w : UInt16) :
    putU16 (putU16 b i v) i w = putU16 b i w := by
  unfold putU16
  rw [set_comm _ _ (by omega : i + 1 ≠ i), set_set, set_set]

theorem drop_putU16_of_le (h : i + 2 ≤ n) : (putU16 b i v).drop n = b.drop n := by
  unfold putU16
  rw [drop_set_of_lt (by omega), drop_set_of_lt (by omega)]

theorem take_putU16 (b : Bytes) (i n : Nat) (v : UInt16) :
    (putU16 b i v).take n = putU16 (b.take n) i v := by
  unfold putU16
  rw [take_set, take_set]

/-- A field in front of the copied part may be put before or after the copy. -/
theorem copyInto_putU16 {b src : Bytes} (h : i + 2 ≤ s) (hs : s ≤ b.length) :
    copyInto (putU16 b i v) s e src = putU16 (copyInto b s e src) i v := by
  have hlen : (b.take s).length = s := by rw [length_take]; omega
  unfold copyInto
  rw [take_putU16, drop_putU16_of_le (by omega)]
  unfold putU16
  rw [set_append_left _ _ (by omega), set_append_left _ _ (by rw [length_set]; omega)]

theorem copyInto_append_right (a b src : Bytes) (s e : Nat) :
    copyInto (a ++ b) (a.length + s) (a.length + e) src = a ++ copyInto b s e src := by
  have hwidth : a.length + e - (a.length + s) = e - s := by omega
  unfold copyInto
  rw [hwidth, take_length_add_append, Nat.add_assoc, drop_length_add_append, append_assoc]

theorem drop_copyInto {k : Nat} (hk : k ≤ b.length) (s e : Nat) (src : Bytes) :
    (copyInto b (k + s) (k + e) src).drop k = copyInto (b.drop k) s e src := by
  have hlen : (b.take k).length = k := by rw [length_take]; omega
  have hsplit := copyInto_append_right (b.take k) (b.drop k) src s e
  rw [take_append_drop, hlen] at hsplit
  rw [hsplit, drop_left' hlen]

theorem copyInto_append_left (b src : Bytes) (hse : s ≤ e) (he : e ≤ a.length) :
    copyInto (a ++ b) s e src = copyInto a s e src ++ b := by
  unfold copyInto
  rw [take_append_of_le_length (by omega), drop_append_of_le_length (by omega)]
  simp only [append_assoc]

section ReadAll

variable {ε α : Type}

/-- The loop `for len(b) > 0 { item … }`. Each item consumes at least one octet, so `b.length`
rounds are enough; the second equation is never reached from there. -/
def readAll (item : Bytes → Except ε (α × Bytes)) : Nat → Bytes → Except ε (List α)
  | _, [] => .ok []
  | 0, _ :: _ => .ok []
  | n + 1, b :: bs =>
    match item (b :: bs) with
    | .error e => .error e
    | .ok (a, rest) =>
      match readAll item n rest with
      | .error e => .error e
      | .ok as => .ok (a :: as)

/-- Renders a list item by item; the first item that does not encode fails the whole. -/
def writeAll (item : α → Except ε Bytes) : List α → Except ε Bytes
  | [] => .ok []
  | a :: as =>
    match item a with
    | .error e => .error e
    | .ok b =>
      match writeAll item as with
      | .error e => .error e
      | .ok bs => .ok (b ++ bs)

end ReadAll

/-! ## Type-length-value framing -/

/-- Splits one framed item off the front: the type octet, its value and the rest; `none` when the
buffer is shorter than the header or than the length octet promises. -/
def splitFrame : Bytes → Option (UInt8 × Bytes × Bytes)
  | typ :: len :: rest =>
    if rest.length < len.toNat then none
    else some (typ, rest.take len.toNat, rest.drop len.toNat)
  | _ => none

/-- Wraps a value in a type and a length octet; `none` when it does not fit. -/
def frame (typ : UInt8) (value : Bytes) : Option Bytes :=
  if value.length > 255 then none else some (typ :: UInt8.ofNat value.length :: value)

/-- A framed value splits off the front of whatever follows it. -/
theorem splitFrame_frame {value b : Bytes} (h : frame typ value = some b) (rest : Bytes) :
    splitFrame (b ++ rest) = some (typ, value, rest) := by
  unfold frame at h
  split at h
  · cases h
  cases h
  have hnat : (UInt8.ofNat value.length).toNat = value.length := by
    rw [UInt8.toNat_ofNat']; omega
  simp only [cons_append, splitFrame, hnat]
  rw [if_neg (by rw [length_append]; omega), take_left, drop_left]

theorem length_frame {value b : Bytes} (h : frame typ value = some b) :
    b.length = value.length + 2 := by
  unfold frame at h
  split at h
  · cases h
  · cases h; simp

/-- What splits off is a prefix: two header octets, the value, then the rest. -/
theorem splitFrame_length {b value rest : Bytes} (h : splitFrame b = some (typ, value, rest)) :
    b.length = 2 + value.length + rest.length := by
  unfold splitFrame at h
  split at h
  · split at h
    · cases h
    · cases h
      simp only [length_cons, length_take, length_drop]
      omega
  · cases h

/-- What splits off the front, octet by octet. -/
theorem splitFrame_eq_some {b value rest : Bytes} :
    splitFrame b = some (typ, value, rest) ↔
      ∃ len : UInt8, b = [typ, len] ++ (value ++ rest) ∧ len.toNat = value.length := by
  constructor
  · intro h
    unfold splitFrame at h
    split at h
    · rename_i t len body
      split at h
      · cases h
      cases h
      refine ⟨len, by simp, ?_⟩
      rw [length_take]
      omega
    · cases h
  · rintro ⟨len, rfl, hlen⟩
    simp only [cons_append, nil_append, splitFrame, hlen, length_append]
    rw [if_neg (by omega), take_left, drop_left]

/-! ## Octet strings as numbers -/

/-- The unsigned big-endian number an octet string spells. -/
def bigEndian : Bytes → ℕ
  | [] => 0
  | b :: bs => b.toNat * 256 ^ bs.length + bigEndian bs

theorem bigEndian_lt (l : Bytes) : bigEndian l < 256 ^ l.length := by
  induction l with
  | nil => exact Nat.one_pos
  | cons b bs ih =>
    have hb : b.toNat < 256 := b.toNat_lt
    calc b.toNat * 256 ^ bs.length + bigEndian bs
        < b.toNat * 256 ^ bs.length + 256 ^ bs.length := by omega
      _ = (b.toNat + 1) * 256 ^ bs.length := (Nat.succ_mul _ _).symm
      _ ≤ 256 * 256 ^ bs.length := Nat.mul_le_mul_right _ hb
      _ = 256 ^ bs.length * 256 := Nat.mul_comm _ _

/-- Octet strings of one length compare as the numbers they spell. -/
theorem le_iff_bigEndian_le {l m : Bytes} (h : l.length = m.length) :
    l ≤ m ↔ bigEndian l ≤ bigEndian m := by
  induction l generalizing m with
  | nil =>
    cases m with
    | nil => simp
    | cons _ _ => cases h
  | cons a as ih =>
    cases m with
    | nil => cases h
    | cons b bs =>
      have hlen : as.length = bs.length := Nat.succ.inj h
      rw [cons_le_cons_iff, ih hlen, bigEndian, bigEndian, hlen]
      have has : bigEndian as < 256 ^ bs.length := hlen ▸ bigEndian_lt as
      have hbs := bigEndian_lt bs
      rcases Nat.lt_trichotomy a.toNat b.toNat with hab | hab | hab
      · have hstep : (a.toNat + 1) * 256 ^ bs.length ≤ b.toNat * 256 ^ bs.length :=
          Nat.mul_le_mul_right _ hab
        rw [Nat.add_mul, Nat.one_mul] at hstep
        exact ⟨fun _ => by omega, fun _ => .inl (UInt8.lt_iff_toNat_lt.mpr hab)⟩
      · have heq : a = b := UInt8.toNat_inj.mp hab
        subst heq
        simp
      · have hstep : (b.toNat + 1) * 256 ^ bs.length ≤ a.toNat * 256 ^ bs.length :=
          Nat.mul_le_mul_right _ hab
        rw [Nat.add_mul, Nat.one_mul] at hstep
        constructor
        · rintro (hlt | ⟨rfl, -⟩)
          · exact absurd (UInt8.lt_iff_toNat_lt.mp hlt) (by omega)
          · exact absurd hab (Nat.lt_irrefl _)
        · intro hle
          omega

section Arrays

variable {n : Nat} {a b : Octets n}

/-- Arrays compare as the numbers they spell. -/
theorem Octets.lt_iff_bigEndian_lt : a.val < b.val ↔ bigEndian a.val < bigEndian b.val := by
  rw [← List.not_le, ← Nat.not_le, le_iff_bigEndian_le (b.property.trans a.property.symm)]

/-- An array is told by the number it spells. -/
theorem Octets.eq_of_bigEndian_eq (h : bigEndian a.val = bigEndian b.val) : a = b := by
  have hlen : a.val.length = b.val.length := a.property.trans b.property.symm
  exact Subtype.ext (List.le_antisymm ((le_iff_bigEndian_le hlen).mpr h.le)
    ((le_iff_bigEndian_le hlen.symm).mpr h.ge))

end Arrays

end Goisis.Lib
