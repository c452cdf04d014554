import Goisis.Lib.Octets

/-!
# Codecs: encoders and decoders that agree

An encoder renders a value or refuses it; an item decoder reads one value off the front of a buffer
and returns the rest. Two facts relate them, and both lift from one item to a buffer of items:

* `ReadsBack` — what the encoder writes is read back, whatever follows it; `readAll_writeAll` is the
  same for a whole list.
* `Reencodes` — what the decoder accepts satisfies a predicate (its canonical form) and encodes
  again in no more octets than were read; `readAll_reencodes` is the same for a whole buffer.

The rest is the arithmetic of reading a field out of a rendered buffer: octets consed or appended
in front are skipped, and the field itself is read back.
-/

namespace Goisis.Lib

open List

variable {ε α β : Type} {x : Except ε α} {a : α} {b l : Bytes} {i : Nat} {as bs : List α}

variable {n k : Nat}

/-! ## Fallible steps -/

theorem bind_eq_ok {f : α → Except ε β} {r : β} :
    (x >>= f) = .ok r ↔ ∃ a, x = .ok a ∧ f a = .ok r := by
  cases x with
  | error e => simp [bind, Except.bind]
  | ok a => simp [bind, Except.bind]

theorem ite_error_eq_ok {c : Prop} [Decidable c] {x : ε} {r : Except ε α} :
    (if c then .error x else r) = .ok a ↔ ¬c ∧ r = .ok a := by
  split <;> simp [*]

theorem toOption_eq_some : x.toOption = some a ↔ x = .ok a := by
  cases x <;> simp [Except.toOption]

theorem ok_bind (a : α) (f : α → Except ε β) : (Except.ok a >>= f) = f a := rfl

/-! ## Reading a field out of a rendered buffer -/

theorem at8_cons_zero (x : UInt8) (l : Bytes) : at8 (x :: l) 0 = x := rfl

theorem at8_cons_succ (x : UInt8) (l : Bytes) (k : Nat) : at8 (x :: l) (k + 1) = at8 l k := rfl

theorem at8_append_left {a : Bytes} (h : k < a.length) : at8 (a ++ b) k = at8 a k := by
  simp only [at8, getD_eq_getElem?_getD]
  rw [getElem?_append_left h]

/-- An array in front of a buffer is skipped. -/
theorem at8_octets (o : Octets n) (l : Bytes) (h : n ≤ k) : at8 (o.val ++ l) k = at8 l (k - n) := by
  have hk := at8_append_right o.property l (k - n)
  rwa [Nat.add_sub_cancel' h] at hk

theorem drop_octets (o : Octets n) (l : Bytes) (h : n ≤ k) :
    (o.val ++ l).drop k = l.drop (k - n) := by
  rw [drop_append, o.property, drop_eq_nil_of_le (by rw [o.property]; exact h), nil_append]

theorem length_octets (o : Octets n) : o.val.length = n := o.property

/-- The first octets of an array filled from a shorter buffer are that buffer. -/
theorem Octets.take_ofList (hl : l.length = k) (hk : k ≤ n) :
    (Octets.ofList n l).val.take k = l := by
  simp only [Octets.ofList]
  rw [take_take, Nat.min_eq_left hk, take_left' hl]

/-- A shorter buffer is padded with zeros. -/
theorem Octets.ofList_take {o : Octets n} (hz : o.val.drop k = replicate (n - k) 0) (hk : k ≤ n) :
    Octets.ofList n (o.val.take k) = o := by
  apply Subtype.ext
  have ho := o.property
  have hlen : (o.val.take k).length = k := by rw [length_take]; omega
  simp only [Octets.ofList]
  rw [take_append, hlen, take_of_length_le (by omega), take_replicate,
    Nat.min_eq_left (by omega), ← hz, take_append_drop]

theorem Octets.drop_ofList (hl : l.length = k) (hk : k ≤ n) :
    (Octets.ofList n l).val.drop k = replicate (n - k) 0 := by
  simp only [Octets.ofList]
  rw [drop_take, drop_left' hl, take_replicate, Nat.min_eq_left (by omega)]

theorem length_slice {j : Nat} (h : j ≤ b.length) : (slice b i j).length = j - i := by
  simp only [slice, length_take, length_drop]
  omega

theorem slice_append (pre mid post : Bytes) {j : Nat} (hi : pre.length = i)
    (hj : j = i + mid.length) : slice (pre ++ (mid ++ post)) i j = mid := by
  rw [slice, drop_left' hi]
  exact take_left' (by omega)

theorem toNat_ofNat_of_le (h : n ≤ 255) : (UInt8.ofNat n).toNat = n := by
  rw [UInt8.toNat_ofNat']
  omega

theorem toNat_ofNat16 (h : n ≤ 65535) : (UInt16.ofNat n).toNat = n := by
  rw [UInt16.toNat_ofNat']
  omega

/-- An area behind a one-octet count: where it starts, what the count says and what follows. -/
theorem counted_area {front area rest value : Bytes} (hf : front.length = i)
    (h255 : area.length ≤ 255) (hv : value = front ++ UInt8.ofNat area.length :: (area ++ rest)) :
    value.length = i + 1 + area.length + rest.length ∧ (at8 value i).toNat = area.length ∧
      slice value (i + 1) (i + 1 + area.length) = area ∧
      value.drop (i + 1 + area.length) = rest := by
  subst hv
  have hpre : (front ++ [UInt8.ofNat area.length]).length = i + 1 := by
    rw [length_append, hf, length_singleton]
  have hassoc : front ++ UInt8.ofNat area.length :: (area ++ rest) =
      (front ++ [UInt8.ofNat area.length]) ++ (area ++ rest) := by simp
  refine ⟨?_, ?_, ?_, ?_⟩
  · simp only [length_append, length_cons, hf]
    omega
  · have hat := at8_append_right hf (UInt8.ofNat area.length :: (area ++ rest)) 0
    rw [Nat.add_zero] at hat
    rw [hat, at8_cons_zero, toNat_ofNat_of_le h255]
  · rw [hassoc]
    exact slice_append _ area rest hpre rfl
  · rw [hassoc, ← append_assoc]
    exact drop_left' (by rw [length_append, hpre])

theorem u24_be24 {v : UInt32} (h : v.toNat ≤ 0xffffff) :
    u24 (UInt8.ofNat (v.toNat / 65536)) (UInt8.ofNat (v.toNat / 256))
      (UInt8.ofNat v.toNat) = v := by
  apply UInt32.toNat_inj.mp
  simp only [u24, UInt32.toNat_ofNat', UInt8.toNat_ofNat']
  omega

theorem u24_le (a b c : UInt8) : (u24 a b c).toNat ≤ 0xffffff := by
  have ha : a.toNat < 256 := a.toNat_lt
  have hb : b.toNat < 256 := b.toNat_lt
  have hc : c.toNat < 256 := c.toNat_lt
  simp only [u24, UInt32.toNat_ofNat']
  omega

/-! ## Items -/

section Items

variable {item : Bytes → Except ε (α × Bytes)} {enc : α → Except ε Bytes} {P : α → Prop}

/-- What `enc` writes for `a` is not empty and `item` reads it back, whatever follows it. -/
def ReadsBack (item : Bytes → Except ε (α × Bytes)) (enc : α → Except ε Bytes) (a : α) : Prop :=
  ∀ e, enc a = .ok e → e ≠ [] ∧ ∀ rest, item (e ++ rest) = .ok (a, rest)

/-- What `item` reads satisfies `P` and encodes again, in no more octets than were read. -/
def Reencodes (item : Bytes → Except ε (α × Bytes)) (enc : α → Except ε Bytes) (P : α → Prop) :
    Prop :=
  ∀ b a rest, item b = .ok (a, rest) → P a ∧ ∃ e, enc a = .ok e ∧ e.length + rest.length ≤ b.length

theorem writeAll_cons :
    writeAll enc (a :: as) = .ok b ↔
      ∃ e es, enc a = .ok e ∧ writeAll enc as = .ok es ∧ b = e ++ es := by
  cases he : enc a with
  | error x => simp [writeAll, he]
  | ok e =>
    cases hes : writeAll enc as with
    | error x => simp [writeAll, he, hes]
    | ok es => simp [writeAll, he, hes, eq_comm]

/-- A list of items is read back item by item. -/
theorem readAll_writeAll (hback : ∀ a ∈ as, ReadsBack item enc a) (hw : writeAll enc as = .ok b)
    (hn : b.length ≤ n) : readAll item n b = .ok as := by
  induction as generalizing b n with
  | nil =>
    cases hw
    cases n <;> rfl
  | cons a as ih =>
    obtain ⟨e, es, he, hes, rfl⟩ := writeAll_cons.mp hw
    obtain ⟨hne, hitem⟩ := hback a (by simp) e he
    obtain ⟨x, l, rfl⟩ := exists_cons_of_ne_nil hne
    rw [length_append, length_cons] at hn
    obtain ⟨m, rfl⟩ : ∃ m, n = m + 1 := ⟨n - 1, by omega⟩
    have hread := hitem es
    rw [cons_append] at hread ⊢
    simp only [readAll, hread, ih (fun a ha => hback a (mem_cons_of_mem _ ha)) hes
      (by omega : es.length ≤ m)]

/-- What a buffer of items decodes to encodes again, in no more octets. -/
theorem readAll_reencodes (hre : Reencodes item enc P) (h : readAll item n b = .ok as) :
    (∀ a ∈ as, P a) ∧ ∃ e, writeAll enc as = .ok e ∧ e.length ≤ b.length := by
  induction n generalizing b as with
  | zero =>
    cases b <;> (simp only [readAll, Except.ok.injEq] at h; subst h; simp [writeAll])
  | succ n ih =>
    cases b with
    | nil =>
      simp only [readAll, Except.ok.injEq] at h
      subst h
      simp [writeAll]
    | cons x l =>
      simp only [readAll] at h
      split at h
      · cases h
      rename_i a rest hitem
      split at h
      · cases h
      rename_i as' hrest
      cases h
      obtain ⟨hP, e, he, hlen⟩ := hre _ _ _ hitem
      obtain ⟨hPs, es, hes, hlens⟩ := ih hrest
      refine ⟨forall_mem_cons.mpr ⟨hP, hPs⟩, e ++ es, writeAll_cons.mpr ⟨e, es, he, hes, rfl⟩, ?_⟩
      rw [length_append]
      omega

theorem writeAll_total (f : α → Bytes) (as : List α) :
    writeAll (fun a => .ok (f a)) as = (.ok (as.flatMap f) : Except ε Bytes) := by
  induction as with
  | nil => rfl
  | cons a as ih => simp [writeAll, ih]

theorem length_writeAll {w : Nat} (hw : ∀ a e, enc a = .ok e → e.length = w)
    (h : writeAll enc as = .ok b) : b.length = as.length * w := by
  induction as generalizing b with
  | nil =>
    cases h
    simp
  | cons a as ih =>
    obtain ⟨e, es, he, hes, rfl⟩ := writeAll_cons.mp h
    rw [length_append, hw a e he, ih hes, length_cons, Nat.succ_mul, Nat.add_comm]

theorem writeAll_append :
    writeAll enc (as ++ bs) = .ok b ↔
      ∃ e es, writeAll enc as = .ok e ∧ writeAll enc bs = .ok es ∧ b = e ++ es := by
  induction as generalizing b with
  | nil => simp [writeAll]
  | cons a as ih =>
    simp only [cons_append, writeAll_cons, ih]
    constructor
    · rintro ⟨e, _, he, ⟨e', es, he', hes, rfl⟩, rfl⟩
      exact ⟨e ++ e', es, ⟨e, e', he, he', rfl⟩, hes, by simp⟩
    · rintro ⟨_, es, ⟨e, e', he, he', rfl⟩, hes, rfl⟩
      exact ⟨e, e' ++ es, he, ⟨e', es, he', hes, rfl⟩, by simp⟩

theorem writeAll_map (f : β → α) (bs : List β) :
    writeAll enc (bs.map f) = writeAll (fun b => enc (f b)) bs := by
  induction bs with
  | nil => rfl
  | cons b bs ih => simp only [map_cons, writeAll, ih]

/-- The order of the items does not matter for whether they encode, nor for how many octets. -/
theorem writeAll_perm (hp : as.Perm bs) (h : writeAll enc as = .ok b) :
    ∃ b', writeAll enc bs = .ok b' ∧ b'.length = b.length := by
  induction hp generalizing b with
  | nil => exact ⟨b, h, rfl⟩
  | cons a _ ih =>
    obtain ⟨e, es, he, hes, rfl⟩ := writeAll_cons.mp h
    obtain ⟨es', hes', hlen⟩ := ih hes
    exact ⟨e ++ es', writeAll_cons.mpr ⟨e, es', he, hes', rfl⟩, by simp [hlen]⟩
  | swap x y l =>
    obtain ⟨e, es, he, hes, rfl⟩ := writeAll_cons.mp h
    obtain ⟨e', es', he', hes', rfl⟩ := writeAll_cons.mp hes
    refine ⟨e' ++ (e ++ es'), writeAll_cons.mpr ⟨e', _, he', writeAll_cons.mpr
      ⟨e, es', he, hes', rfl⟩, rfl⟩, ?_⟩
    simp only [length_append]
    omega
  | trans _ _ ih ih' =>
    obtain ⟨b₁, h₁, hlen₁⟩ := ih h
    obtain ⟨b₂, h₂, hlen₂⟩ := ih' h₁
    exact ⟨b₂, h₂, hlen₂.trans hlen₁⟩

end Items

end Goisis.Lib
