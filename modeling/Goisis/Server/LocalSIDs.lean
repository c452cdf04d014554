import Goisis.Lib.Bits
import Goisis.Server.NodeRun

/-!
# The SIDs of a node

A locator gives out addresses: its own, the End SID, and one for every adjacency that gets an End.X
SID from it, which is the locator's address with a function value in the bits right after the
prefix. Whatever happens to adjacencies, circuits and LSPs, the table of End.X SIDs changes only in
`syncEndXSIDs`, and the locators only by calls (`SIDRun`).

* `bitAt_locatorSID` — where a function value stands in a SID;
* `wellAllocated` — the table in every state of every run;
* `endX_sids` — End.X SIDs are stable, well formed, and given out while there are any;
* `localSIDs_nodup` — with locators that do not overlap every local SID has one owner.
-/

namespace Goisis.Server

open Lib Packet List SRv6LocatorConfig Option NodeServer Managed

variable {loc : Prefix} {lc : SRv6LocatorConfig} {fn fn' : Nat} {k : EndXKey} {m m' : Managed}

/-! ## SIDs bit by bit -/

theorem bitAt_setBit {b : Bytes} {p : Nat} (hp : p < 8 * b.length) (i : Nat) :
    bitAt (setBit b p) i = (decide (i = p) || bitAt b i) := by
  have hdiv : ((p : Int).tdiv 8).toNat = p / 8 := by
    rw [Int.tdiv_eq_ediv_of_nonneg (by omega)]
    omega
  have hmod : (7 - (p : Int).tmod 8).toNat = 7 - p % 8 := by
    rw [Int.tmod_eq_emod_of_nonneg (by omega)]
    omega
  unfold setBit
  rw [hdiv, hmod, bitAt_modify (by omega)]
  have hpow : 2 ^ (7 - p % 8) < 256 :=
    lt_of_lt_of_le (Nat.pow_lt_pow_right (by decide) (by omega : 7 - p % 8 < 8)) (by decide)
  have hbit : (UInt8.ofNat (2 ^ (7 - p % 8))).toNat = 2 ^ (7 - p % 8) :=
    UInt8.toNat_ofNat_of_lt' hpow
  by_cases h : i / 8 = p / 8
  · have hsame : (7 - p % 8 = 7 - i % 8) ↔ i = p := by omega
    rw [if_pos h, UInt8.toNat_or, Nat.testBit_or, hbit, Nat.testBit_two_pow, ← h, Bool.or_comm]
    simp only [hsame]
    rfl
  · have hne : i ≠ p := fun heq => h (by rw [heq])
    rw [if_neg h, decide_eq_false hne, Bool.false_or]

theorem bitAt_maskOctets (n : Nat) (b : Bytes) (i : Nat) :
    bitAt (maskOctets n b) i = (decide (i < n) && bitAt b i) := by
  have hoctet : (at8 (maskOctets n b) (i / 8)).toNat =
      (at8 b (i / 8)).toNat / 2 ^ (8 - (n - 8 * (i / 8))) * 2 ^ (8 - (n - 8 * (i / 8))) := by
    unfold at8
    rw [getD_eq_getElem?_getD, getD_eq_getElem?_getD, getElem?_maskOctets]
    cases b[i / 8]? with
    | none => simp
    | some x =>
      have hle : x.toNat / 2 ^ (8 - (n - 8 * (i / 8))) * 2 ^ (8 - (n - 8 * (i / 8))) ≤ x.toNat :=
        Nat.div_mul_le_self _ _
      exact UInt8.toNat_ofNat_of_lt' (lt_of_le_of_lt hle x.toNat_lt)
  unfold bitAt
  rw [hoctet, Nat.testBit_mul_two_pow, Nat.testBit_div_two_pow]
  by_cases h : i < n
  · rw [decide_eq_true h, decide_eq_true (by omega : 8 - (n - 8 * (i / 8)) ≤ 7 - i % 8)]
    congr 2
    omega
  · rw [decide_eq_false h, decide_eq_false (by omega : ¬ 8 - (n - 8 * (i / 8)) ≤ 7 - i % 8)]
    rfl

theorem length_as16 (a : Addr) : a.as16.length = 16 := by
  cases a with
  | zero => rfl
  | v4 o => simp [Addr.as16, o.property]
  | v6 o => exact o.property
  | v6Zone o zone => exact o.property

/-- **Where a function value stands**: in the bits right after the prefix. -/
theorem bitAt_locatorSID {n k : Nat} (hn : loc.bits = n) (hfit : n + k ≤ 128) (fn i : Nat) :
    bitAt (locatorSID loc k fn).octets i =
      (bitAt loc.addr.as16 i || (decide (n ≤ i ∧ i < n + k) && fn.testBit (k - 1 - (i - n)))) := by
  -- the loop has placed the first `j` bits of the function
  have hloop : ∀ j ≤ k, ∀ b, b = (range j).foldl
      (fun b i => if fn.testBit (k - 1 - i) then setBit b (loc.bits + i) else b) loc.addr.as16 →
      b.length = 16 ∧ bitAt b i =
        (bitAt loc.addr.as16 i ||
          (decide (n ≤ i ∧ i < n + j) && fn.testBit (k - 1 - (i - n)))) := by
    intro j
    induction j with
    | zero =>
      rintro - b rfl
      refine ⟨length_as16 _, ?_⟩
      rw [decide_eq_false (by omega), Bool.false_and, Bool.or_false]
      rfl
    | succ j ih =>
      intro hj b hb
      rw [range_succ, foldl_append] at hb
      generalize hb' : (range j).foldl
        (fun b i => if fn.testBit (k - 1 - i) then setBit b (loc.bits + i) else b) loc.addr.as16 =
          b' at hb
      obtain ⟨hlen, hbits⟩ := ih (by omega) b' hb'.symm
      simp only [foldl_cons, foldl_nil] at hb
      have hpos : loc.bits + (j : Int) = ((n + j : Nat) : Int) := by
        rw [hn]
        rfl
      rw [hb, hpos]
      by_cases hi : i = n + j
      · have hsub : k - 1 - (i - n) = k - 1 - j := by omega
        rw [decide_eq_true (by omega : n ≤ i ∧ i < n + (j + 1)), Bool.true_and, hsub]
        rw [decide_eq_false (by omega), Bool.false_and, Bool.or_false] at hbits
        cases hbit : fn.testBit (k - 1 - j) with
        | true =>
          rw [if_pos rfl, bitAt_setBit (by omega), decide_eq_true hi]
          refine ⟨by rw [setBit, length_modify, hlen], ?_⟩
          rw [Bool.true_or, Bool.or_true]
        | false => exact ⟨hlen, by rw [if_neg Bool.false_ne_true, hbits, Bool.or_false]⟩
      · have hrange : (n ≤ i ∧ i < n + (j + 1)) ↔ (n ≤ i ∧ i < n + j) := by omega
        simp only [hrange]
        split
        · rw [bitAt_setBit (by omega), decide_eq_false hi, Bool.false_or]
          exact ⟨by rw [setBit, length_modify, hlen], hbits⟩
        · exact ⟨hlen, hbits⟩
  obtain ⟨hlen, hbits⟩ := hloop k (Nat.le_refl k) _ rfl
  have hsid : (locatorSID loc k fn).octets = (range k).foldl
      (fun b i => if fn.testBit (k - 1 - i) then setBit b (loc.bits + i) else b) loc.addr.as16 := by
    have hval := Octets.ofList_val (⟨_, hlen⟩ : Octets 16)
    exact congrArg Subtype.val hval
  rw [hsid, hbits]

/-! ## Locators -/

/-- `sidStructure().Function` of a locator prefix. -/
def functionLength (loc : Prefix) : Nat := (mk loc 0).sidStructure.function.toNat

/-- A locator the node accepts, of a prefix as `netip.Prefix` holds one: the length is that of a
prefix of its address, or -1. -/
structure SRv6LocatorConfig.Accepted (lc : SRv6LocatorConfig) : Prop where
  ipv6 : lc.pfx.addr.is6 = true
  length : lc.pfx.bits = -1 ∨ 0 ≤ lc.pfx.bits ∧ lc.pfx.bits ≤ 128

/-- A valid locator prefix: an address of sixteen octets, with nothing beyond its length. -/
structure ValidLocator (loc : Prefix) (o : Octets 16) (n : Nat) : Prop where
  addr : loc.addr = .v6 o
  bits : loc.bits = n
  le : n ≤ 128
  clear : ∀ i, n ≤ i → bitAt o.val i = false

section Locators

variable {o : Octets 16} {n : Nat}

theorem SRv6LocatorConfig.Accepted.functionLength_eq (h : lc.Accepted) :
    lc.sidStructure.function.toNat = functionLength lc.pfx.masked := by
  have hbits : lc.pfx.masked.bits = lc.pfx.bits := by
    unfold Prefix.masked
    rcases h.length with h | h
    · rw [if_neg (by omega), h]
    · rw [if_pos h.1]
  unfold functionLength sidStructure functionBits
  simp only [hbits]

theorem isValid_masked (p : Prefix) : p.masked.isValid = p.isValid := by
  unfold Prefix.masked Prefix.isValid
  split <;> simp_all

theorem SRv6LocatorConfig.Accepted.valid (h : lc.Accepted) (hvalid : lc.pfx.isValid = true) :
    ∃ o n, ValidLocator lc.pfx.masked o n := by
  have hbits : 0 ≤ lc.pfx.bits := of_decide_eq_true hvalid
  have hle : lc.pfx.bits ≤ 128 := by
    rcases h.length with h | h
    · omega
    · exact h.2
  have hclear : ∀ o : Octets 16, ∀ i, lc.pfx.bits.toNat ≤ i →
      bitAt (maskOctets lc.pfx.bits.toNat o.val) i = false := by
    intro o i hi
    rw [bitAt_maskOctets, decide_eq_false (by omega), Bool.false_and]
  unfold Prefix.masked
  rw [if_pos hbits]
  have hv6 := h.ipv6
  cases haddr : lc.pfx.addr with
  | zero | v4 => rw [haddr] at hv6; cases hv6
  | v6 o | v6Zone o zone =>
    exact ⟨_, lc.pfx.bits.toNat, rfl, (Int.toNat_of_nonneg hbits).symm, by omega, hclear o⟩

variable (h : ValidLocator loc o n)

include h

theorem ValidLocator.fits : n + functionLength loc ≤ 128 := by
  have hle := h.le
  have hlen : functionLength loc = if n + 16 > 128 then 128 - n else 16 := by
    unfold functionLength sidStructure functionBits toUInt8
    simp only [h.bits]
    split
    · rw [if_pos (by omega)]
      simp only [UInt8.toNat_ofNat']
      omega
    · rw [if_neg (by omega)]
      rfl
  rw [hlen]
  split <;> omega

/-- A SID of a valid locator, bit by bit. -/
theorem ValidLocator.bitAt_sid (fn i : Nat) :
    bitAt (locatorSID loc (functionLength loc) fn).octets i =
      if i < n then bitAt o.val i
      else decide (i < n + functionLength loc) &&
      fn.testBit (functionLength loc - 1 - (i - n)) := by
  rw [bitAt_locatorSID h.bits h.fits, h.addr]
  show (bitAt o.val i || _) = _
  split
  · rw [decide_eq_false (by omega), Bool.false_and, Bool.or_false]
  rw [h.clear i (by omega), Bool.false_or]
  congr 1
  exact decide_eq_decide.mpr ⟨fun h => h.2, fun h => ⟨by omega, h⟩⟩

/-- The bits of a SID give its function back. -/
theorem ValidLocator.function_of_sid {gn : Nat} (hfn : fn < 2 ^ functionLength loc)
    (hgn : gn < 2 ^ functionLength loc)
    (heq : locatorSID loc (functionLength loc) fn = locatorSID loc (functionLength loc) gn) :
    fn = gn := by
  refine Nat.eq_of_testBit_eq fun j => ?_
  by_cases hj : j < functionLength loc
  · have hbit := congrArg (fun a : Addr => bitAt a.octets (n + (functionLength loc - 1 - j))) heq
    simp only [h.bitAt_sid] at hbit
    have hsub : functionLength loc - 1 - (n + (functionLength loc - 1 - j) - n) = j := by omega
    rwa [if_neg (by omega), if_neg (by omega), decide_eq_true (by omega), Bool.true_and,
      Bool.true_and, hsub] at hbit
  · have hzero : ∀ {x}, x < 2 ^ functionLength loc → x.testBit j = false := fun hx =>
      Nat.testBit_lt_two_pow (lt_of_lt_of_le hx (Nat.pow_le_pow_right (by decide) (by omega)))
    rw [hzero hfn, hzero hgn]

/-- Function 0 is the End SID. -/
theorem ValidLocator.endSID_eq : loc.addr = locatorSID loc (functionLength loc) 0 := by
  have hoctets : o.val = (locatorSID loc (functionLength loc) 0).octets := by
    refine ext_bitAt (by rw [o.property]; exact (length_octets _).symm) fun i _ => ?_
    rw [h.bitAt_sid, Nat.zero_testBit, Bool.and_false]
    split
    · rfl
    · exact h.clear i (by omega)
  rw [h.addr]
  exact congrArg Addr.v6 (Subtype.ext hoctets)

/-- What a valid locator contains: the addresses that begin with its prefix. -/
theorem ValidLocator.contains_iff (a : Octets 16) :
    containsAddr loc (.v6 a) = true ↔ ∀ i < n, bitAt a.val i = bitAt o.val i := by
  have hvalid : loc.isValid = true := by
    unfold Prefix.isValid
    rw [h.bits]
    exact decide_eq_true (by omega)
  have hmask : containsAddr loc (.v6 a) = true ↔ maskOctets n o.val = maskOctets n a.val := by
    unfold containsAddr
    rw [hvalid, h.bits, Int.toNat_natCast, h.addr]
    simp [Addr.withoutZone, Addr.bitLen, Addr.mask]
  rw [hmask]
  refine ⟨fun heq i hi => ?_, fun hbits => ext_bitAt ?_ fun i _ => ?_⟩
  · have hbit := congrArg (bitAt · i) heq
    simpa [bitAt_maskOctets, hi] using hbit.symm
  · rw [length_maskOctets, length_maskOctets, o.property, a.property]
  · rw [bitAt_maskOctets, bitAt_maskOctets]
    by_cases hi : i < n
    · rw [hbits i hi]
    · rw [decide_eq_false hi, Bool.false_and, Bool.false_and]

theorem ValidLocator.contains_sid (fn : Nat) :
    containsAddr loc (locatorSID loc (functionLength loc) fn) = true := by
  refine (h.contains_iff _).mpr fun i hi => ?_
  have hbit := h.bitAt_sid fn i
  rwa [if_pos hi] at hbit

/-- **Locators that give out one address overlap**: the longer one begins with the shorter. -/
theorem ValidLocator.overlap {loc' : Prefix} {o' : Octets 16} {n' : Nat}
    (h' : ValidLocator loc' o' n')
    (heq : locatorSID loc (functionLength loc) fn = locatorSID loc' (functionLength loc') fn') :
    containsAddr loc loc'.addr = true ∨ containsAddr loc' loc.addr = true := by
  have hbits : ∀ i, i < n → i < n' → bitAt o'.val i = bitAt o.val i := by
    intro i hi hi'
    have hbit := congrArg (fun a : Addr => bitAt a.octets i) heq
    simp only [h.bitAt_sid, h'.bitAt_sid] at hbit
    rw [if_pos hi, if_pos hi'] at hbit
    exact hbit.symm
  rcases Nat.le_total n n' with hle | hle
  · refine .inl ?_
    rw [h'.addr, h.contains_iff]
    exact fun i hi => hbits i hi (by omega)
  · refine .inr ?_
    rw [h.addr, h'.contains_iff]
    exact fun i hi => (hbits i (by omega) hi).symm

end Locators

/-! ## The table -/

/-- An End.X SID of a locator: a function value of its own, and the address it stands in. -/
structure AllocatedSID.From (e : AllocatedSID) (loc : Prefix) : Prop where
  pos : 1 ≤ e.function
  lt : e.function < 2 ^ functionLength loc
  sid : e.sid = locatorSID loc (functionLength loc) e.function

/-- What `syncEndXSIDs` keeps of its table. -/
structure WellAllocated (sids : Map EndXKey AllocatedSID) : Prop where
  apart : ∀ k k' e e', sids.lookup k = some e → sids.lookup k' = some e' → k.locator = k'.locator →
    e.function = e'.function → k = k'
  held : ∀ k e, sids.lookup k = some e → e.From k.locator
  locators : ∀ k e, sids.lookup k = some e → ∃ lc : SRv6LocatorConfig, lc.Accepted ∧
    k.locator = lc.pfx.masked

section Table

variable {sids : Map EndXKey AllocatedSID} {w : WantedSID} {s t : NodeServer} {now : Int}
  {e : AllocatedSID}

theorem freeFunction_eq_some (h : freeFunction sids lc = some fn) :
    1 ≤ fn ∧ fn < 2 ^ lc.sidStructure.function.toNat ∧ fn ∉ usedFunctions sids lc.pfx.masked := by
  have hmem := mem_range'_1.mp (mem_of_find?_eq_some h)
  have hfree := find?_some h
  simp only [Bool.not_eq_true', contains_eq_mem, decide_eq_false_iff_not] at hfree
  exact ⟨hmem.1, by omega, hfree⟩

/-- What the allocation gives to a key: the SID it had, or a function nobody holds. -/
theorem lookup_assignSID (h : (assignSID sids w).lookup k = some e) :
    (∃ e₀, sids.lookup k = some e₀ ∧ e.sid = e₀.sid ∧ e.function = e₀.function) ∨
      k = w.key ∧ ∃ fn, freeFunction sids w.locator = some fn ∧ e.function = fn ∧
        e.sid = locatorSID w.locator.pfx.masked w.locator.sidStructure.function.toNat fn := by
  have hid := identity_assignSID sids w k
  rw [h, map_some] at hid
  have hkept : ∀ e₀ : AllocatedSID, some e.identity = some e₀.identity →
      e.sid = e₀.sid ∧ e.function = e₀.function := by
    intro e₀ heq
    have heq := some.inj heq
    exact ⟨congrArg Prod.fst heq, congrArg Prod.snd heq⟩
  split at hid
  · rename_i hk
    cases hold : sids.lookup k with
    | some e₀ =>
      rw [hold] at hid
      exact .inl ⟨e₀, rfl, hkept e₀ hid⟩
    | none =>
      rw [hold, Option.none_or, allocEndXSID, Option.map_map] at hid
      obtain ⟨fn, hfn, heq⟩ := map_eq_some_iff.mp hid.symm
      exact .inr ⟨hk, fn, hfn, (congrArg Prod.snd heq).symm, (congrArg Prod.fst heq).symm⟩
  · obtain ⟨e₀, hold, heq⟩ := map_eq_some_iff.mp hid.symm
    exact .inl ⟨e₀, hold, hkept e₀ (congrArg some heq.symm)⟩

/-- **One wanted SID** leaves the table well allocated. -/
theorem WellAllocated.assignSID (h : WellAllocated sids) (hw : w.locator.Accepted)
    (hkey : w.key.locator = w.locator.pfx.masked) : WellAllocated (assignSID sids w) := by
  have hfresh : ∀ {fn : Nat} {k' : EndXKey} {e' : AllocatedSID}, freeFunction sids w.locator =
      some fn →
      sids.lookup k' = some e' → w.key.locator = k'.locator → fn ≠ e'.function := by
    rintro fn k' e' hfree hk' hloc rfl
    refine (freeFunction_eq_some hfree).2.2 (mem_usedFunctions.mpr ⟨k', e'.identity, ?_, ?_, rfl⟩)
    · rw [hk', map_some]
    · rw [← hloc, hkey]
  refine ⟨fun k k' e e' hk hk' hloc hfn => ?_, fun k e hk => ?_, fun k e hk => ?_⟩
  · rcases lookup_assignSID hk with ⟨e₀, hold, -, hf⟩ | ⟨rfl, fn, hfree, hf, -⟩
    · rcases lookup_assignSID hk' with ⟨e₀', hold', -, hf'⟩ | ⟨rfl, fn, hfree, hf', -⟩
      · exact h.apart k k' e₀ e₀' hold hold' hloc (by rw [← hf, ← hf', hfn])
      · exact absurd (by rw [← hf', ← hfn, hf]) (hfresh hfree hold hloc.symm)
    · rcases lookup_assignSID hk' with ⟨e₀', hold', -, hf'⟩ | ⟨rfl, -⟩
      · exact absurd (by rw [← hf, hfn, hf']) (hfresh hfree hold' hloc)
      · rfl
  · rcases lookup_assignSID hk with ⟨e₀, hold, hsid, hf⟩ | ⟨rfl, fn, hfree, hf, hsid⟩
    · obtain ⟨hpos, hlt, hat⟩ := h.held k e₀ hold
      exact ⟨hf ▸ hpos, hf ▸ hlt, by rw [hsid, hat, hf]⟩
    · obtain ⟨hpos, hlt, -⟩ := freeFunction_eq_some hfree
      rw [hw.functionLength_eq, ← hkey] at hlt hsid
      exact ⟨hf ▸ hpos, hf ▸ hlt, by rw [hsid, hf]⟩
  · rcases lookup_assignSID hk with ⟨e₀, hold, -⟩ | ⟨rfl, -⟩
    · exact h.locators k e₀ hold
    · exact ⟨w.locator, hw, hkey⟩

theorem locator_of_mem_wantedSIDs (hw : w ∈ t.wantedSIDs now) :
    w.locator ∈ t.locators ∧ w.key.locator = w.locator.pfx.masked := by
  obtain ⟨ea, -, hw⟩ := mem_flatMap.mp hw
  obtain ⟨nh, -, hw⟩ := mem_flatMap.mp hw
  obtain ⟨lc, hlc, rfl⟩ := mem_map.mp hw
  exact ⟨mem_of_mem_filter hlc, rfl⟩

/-- **A reconciliation** leaves the table well allocated. -/
theorem WellAllocated.syncedSIDs (h : WellAllocated t.endXSIDs)
    (hloc : ∀ lc ∈ t.locators, lc.Accepted) : WellAllocated (t.syncedSIDs now) := by
  have hreleased : ∀ {k e}, (releaseSIDs t.endXSIDs (t.wantedSIDs now)).lookup k = some e →
      t.endXSIDs.lookup k = some e := by
    intro k e hk
    rw [lookup_releaseSIDs] at hk
    split at hk
    · exact hk
    · cases hk
  have hrelease : WellAllocated (releaseSIDs t.endXSIDs (t.wantedSIDs now)) :=
    ⟨fun k k' e e' hk hk' => h.apart k k' e e' (hreleased hk) (hreleased hk'),
      fun k e hk => h.held k e (hreleased hk), fun k e hk => h.locators k e (hreleased hk)⟩
  refine foldlRecOn (motive := WellAllocated) _ _ hrelease fun sids hsids w hw => ?_
  obtain ⟨hmem, hkey⟩ := locator_of_mem_wantedSIDs hw
  exact hsids.assignSID (hloc _ hmem) hkey

/-! ## Runs -/

/-- The node as far as its SIDs go: it starts, calls change its configuration, and whatever else has
changed (adjacencies, circuits, LSPs, addresses), a regeneration reconciles the table with it. -/
inductive SIDRun : NodeServer → Prop where
  | start {o : NodeOptions} {s : NodeServer} (h : newNodeServer o = .ok s)
      (hlen : ∀ lc ∈ o.locators, lc.pfx.bits = -1 ∨ 0 ≤ lc.pfx.bits ∧ lc.pfx.bits ≤ 128) : SIDRun s
  | call {s : NodeServer} {m : Managed} (call : ConfigCall) (hs : SIDRun s)
      (hlen : ∀ lc, call = .addLocator lc → lc.pfx.bits = -1 ∨ 0 ≤ lc.pfx.bits ∧ lc.pfx.bits ≤ 128)
      (hm : call.apply s.managed = .ok m) : SIDRun (s.configure (.ok m))
  | sync {s t : NodeServer} (now : Int) (hs : SIDRun s) (hloc : t.locators = s.locators)
      (hsids : t.endXSIDs = s.endXSIDs) : SIDRun (t.syncEndXSIDs now)

theorem locators_addLocator {cfg : SRv6LocatorConfig} (h : m.addLocator cfg = .ok m') :
    cfg.pfx.addr.is6 = true ∧ m'.locators = m.locators ++ [cfg] := by
  unfold addLocator at h
  split at h
  · cases h
  rename_i hv6
  simp only [Bool.or_eq_true, Bool.not_eq_true', not_or, Bool.not_eq_false] at hv6
  split at h
  · cases h
  split at h
  · split at h <;> cases h
  · cases h
    exact ⟨hv6.1, rfl⟩

/-- A call leaves the locators, adds one that is IPv6, or takes one out. -/
theorem locators_apply {call : ConfigCall} (h : call.apply m = .ok m') (hlc : lc ∈ m'.locators) :
    lc ∈ m.locators ∨ call = .addLocator lc ∧ lc.pfx.addr.is6 = true := by
  cases call with
  | addLocator cfg =>
    obtain ⟨hv6, hlocs⟩ := locators_addLocator h
    rw [hlocs] at hlc
    rcases mem_append.mp hlc with hlc | hlc
    · exact .inl hlc
    · rw [mem_singleton.mp hlc]
      exact .inr ⟨rfl, hv6⟩
  | deleteLocator p =>
    simp only [ConfigCall.apply, deleteLocator] at h
    split at h
    · cases h
      exact .inl (mem_of_mem_eraseP hlc)
    · cases h
  | addFlexAlgo cfg | deleteFlexAlgo algo | addPrefix cfg | deletePrefix p =>
    refine .inl ?_
    simp only [ConfigCall.apply, addFlexAlgo, deleteFlexAlgo, addPrefix, deletePrefix] at h
    repeat' split at h
    all_goals first
      | cases h; exact hlc
      | cases h

theorem SIDRun.accepted (h : SIDRun s) : ∀ lc ∈ s.locators, lc.Accepted := by
  induction h with
  | @start o s h hlen =>
    obtain ⟨hvalid, hloc, -⟩ := managed_newNodeServer h
    intro lc hlc
    have hlc : lc ∈ o.locators := hloc ▸ hlc
    have hcheck := hvalid.locators lc hlc
    unfold checkLocator at hcheck
    split at hcheck
    · cases hcheck
    · rename_i hv6
      simp only [Bool.or_eq_true, Bool.not_eq_true', not_or, Bool.not_eq_false] at hv6
      exact ⟨hv6.1, hlen lc hlc⟩
  | call call hs hlen hm ih =>
    intro lc hlc
    rcases locators_apply hm hlc with hlc | ⟨heq, hv6⟩
    · exact ih lc hlc
    · exact ⟨hv6, hlen lc heq⟩
  | sync now hs hloc hsids ih => exact fun lc hlc => ih lc (hloc ▸ hlc)

/-- **The table in every state of every run.** -/
theorem SIDRun.wellAllocated (h : SIDRun s) : WellAllocated s.endXSIDs := by
  induction h with
  | start h =>
    obtain ⟨-, -, heq⟩ := newNodeServer_base h
    rw [heq]
    have hnone : ∀ (k : EndXKey) (e : AllocatedSID),
        (∅ : Map EndXKey AllocatedSID).lookup k ≠ some e :=
      fun _ _ h => nomatch h
    exact ⟨fun k _ e _ hk => absurd hk (hnone k e), fun k e hk => absurd hk (hnone k e),
      fun k e hk => absurd hk (hnone k e)⟩
  | call call hs hlen hm ih => exact ih
  | sync now hs hloc hsids ih =>
    exact (hsids.symm ▸ ih : WellAllocated _).syncedSIDs fun lc hlc => hs.accepted lc (hloc ▸ hlc)

/-- A key that is wanted keeps its SID. -/
theorem syncedSIDs_keeps (hw : w ∈ t.wantedSIDs now) (he : t.endXSIDs.lookup w.key = some e) :
    ∃ e', (t.syncedSIDs now).lookup w.key = some e' ∧ e'.sid = e.sid ∧
      e'.function = e.function := by
  have hreleased : (releaseSIDs t.endXSIDs (t.wantedSIDs now)).lookup w.key = some e := by
    rw [lookup_releaseSIDs, if_pos (mem_map_of_mem hw)]
    exact he
  have hkept :=
    keeps_foldl_assignSID (t.wantedSIDs now) (releaseSIDs t.endXSIDs (t.wantedSIDs now)) w.key
    e.identity (by rw [hreleased, map_some])
  obtain ⟨e', he', heq⟩ := map_eq_some_iff.mp hkept
  exact ⟨e', he', congrArg Prod.fst heq, congrArg Prod.snd heq⟩

/-- The keys of the table are wanted. -/
theorem key_of_syncedSIDs (h : (t.syncedSIDs now).lookup k = some e) :
    ∃ w ∈ t.wantedSIDs now, w.key = k := by
  refine mem_map.mp (key_of_foldl_assignSID (fun _ h => h) (fun k' hk' => ?_) k (by
    rw [← syncedSIDs, h]
    rfl))
  rw [lookup_releaseSIDs] at hk'
  by_contra hnot
  rw [if_neg hnot] at hk'
  cases hk'

/-- **End.X SIDs are stable and well formed.** In every state of every run the keys of a locator
have function values of their own, in the range of its function bits, and the SID is the locator's
address with the value in the bits after the prefix: inside the locator, not its End SID, and
telling which value it is. Whatever the next reconciliation finds, a key that is still wanted keeps
its SID, and one that is wanted goes without only when other wanted keys hold all functions of the
locator. -/
theorem endX_sids (h : SIDRun s) :
    (∀ k k' e e', s.endXSIDs.lookup k = some e → s.endXSIDs.lookup k' = some e' →
      k.locator = k'.locator → k ≠ k' → e.function ≠ e'.function) ∧
    (∀ k e, s.endXSIDs.lookup k = some e → 1 ≤ e.function ∧
      e.function < 2 ^ functionLength k.locator ∧
      e.sid = locatorSID k.locator (functionLength k.locator) e.function ∧
      (k.locator.isValid = true → (∀ i < 128, bitAt e.sid.octets i =
          if (i : Int) < k.locator.bits then bitAt k.locator.addr.octets i
          else decide ((i : Int) < k.locator.bits + functionLength k.locator) &&
            e.function.testBit (functionLength k.locator - 1 - (i - k.locator.bits.toNat))) ∧
        containsAddr k.locator e.sid = true ∧ e.sid ≠ k.locator.addr ∧
        ∀ fn < 2 ^ functionLength k.locator,
          locatorSID k.locator (functionLength k.locator) fn = e.sid → fn = e.function)) ∧
    ∀ (t : NodeServer) (now : Int), t.endXSIDs = s.endXSIDs → (∀ lc ∈ t.locators, lc.Accepted) →
      ∀ w ∈ t.wantedSIDs now, (∀ e, s.endXSIDs.lookup w.key = some e →
        ∃ e', (t.syncedSIDs now).lookup w.key = some e' ∧ e'.sid = e.sid ∧
          e'.function = e.function) ∧
      ((t.syncedSIDs now).lookup w.key = none → ∀ fn, 1 ≤ fn →
        fn < 2 ^ functionLength w.key.locator →
        ∃ w' ∈ t.wantedSIDs now, w'.key ≠ w.key ∧ w'.key.locator = w.key.locator ∧
          ∃ e', (t.syncedSIDs now).lookup w'.key = some e' ∧ e'.function = fn) := by
  have hs := h.wellAllocated
  refine ⟨fun k k' e e' hk hk' hloc hne heq => hne (hs.apart k k' e e' hk hk' hloc heq),
    fun k e hk => ?_, fun t now hsids hlocs w hw => ⟨fun e he => ?_, fun hnone fn hpos hlt => ?_⟩⟩
  · obtain ⟨hpos, hlt, hsid⟩ := hs.held k e hk
    refine ⟨hpos, hlt, hsid, fun hvalid => ?_⟩
    obtain ⟨lc, hlc, hkey⟩ := hs.locators k e hk
    obtain ⟨o, n, hloc⟩ : ∃ o n, ValidLocator k.locator o n :=
      hkey ▸ hlc.valid (isValid_masked lc.pfx ▸ hkey ▸ hvalid)
    refine ⟨fun i _ => ?_, ?_, fun heq => ?_, fun fn hfn heq => ?_⟩
    · rw [hsid, hloc.bitAt_sid, hloc.bits, hloc.addr, Int.toNat_natCast]
      have hcast : ((i : Int) < n + functionLength k.locator) ↔
          i < n + functionLength k.locator := by omega
      simp only [Int.ofNat_lt, hcast]
      rfl
    · rw [hsid]
      exact hloc.contains_sid _
    · rw [hsid, hloc.endSID_eq] at heq
      have hzero := hloc.function_of_sid hlt (Nat.two_pow_pos _) heq
      omega
    · rw [hsid] at heq
      exact hloc.function_of_sid hfn hlt heq
  · exact syncedSIDs_keeps hw (hsids ▸ he)
  · obtain ⟨hmem, hkey⟩ := locator_of_mem_wantedSIDs hw
    -- its locator has no function left
    have hfree : freeFunction (t.syncedSIDs now) w.locator = none := by
      refine (settled_foldl_assignSID _ hw).resolve_left fun hsome => ?_
      rw [← syncedSIDs, hnone] at hsome
      cases hsome
    have hused : fn ∈ usedFunctions (t.syncedSIDs now) w.locator.pfx.masked := by
      rw [hkey, ← (hlocs _ hmem).functionLength_eq] at hlt
      have hall := find?_eq_none.mp hfree fn (mem_range'_1.mpr ⟨hpos, by omega⟩)
      simpa using hall
    obtain ⟨k, i, hk, hloc, hi⟩ := mem_usedFunctions.mp hused
    obtain ⟨e', he', rfl⟩ := map_eq_some_iff.mp hk
    obtain ⟨w', hw', rfl⟩ := key_of_syncedSIDs he'
    refine ⟨w', hw', fun heq => ?_, hloc.trans hkey.symm, e', he', hi⟩
    rw [heq, hnone] at he'
    cases he'

/-- A neighbour that is Up and has an address on the link. -/
def endXNeighbor : Adjacency where
  systemID := octets6 0 0 0 0 0 2
  snpa := Octets.zero 6
  state := .up
  neighborIPv6 := [.v6 (Octets.ofList 16 [0x20, 0x01, 0x0d, 0xb8])]

/-- The node after it came Up. -/
def NodeServer.withNeighbor (s : NodeServer) : NodeServer :=
  { s with
    circuits := s.circuits.map fun c => { c with p2pAdj := some endXNeighbor }
    optionConnected := [⟨.v6 (Octets.ofList 16 [0x20, 0x01]), 16⟩] }

/-- The options of a node with one locator, fd00::/48. -/
def locatorNode : NodeOptions :=
  { plainNode [ethernet "eth0" true 10] with
    locators := [⟨⟨.v6 (Octets.ofList 16 [0xfd]), 48⟩, 0⟩] }

theorem endX_sids_neighbor :
    ∃ s k e, SIDRun s ∧ s.endXSIDs.lookup k = some e ∧ e.function < 2 ^ 16 ∧
    e.sid ≠ k.locator.addr := by
  have hrun : (newNodeServer locatorNode).toOption.any (fun s =>
      (s.withNeighbor.syncedSIDs 0).entries.any fun e => e.1.locator.isValid &&
        (s.withNeighbor.syncedSIDs 0).lookup e.1 = some e.2 && functionLength e.1.locator = 16) =
        true := by
    decide +kernel
  obtain ⟨s, hs, hrun⟩ := (any_eq_true _ _).mp hrun
  obtain ⟨e, -, hrun⟩ := List.any_eq_true.mp hrun
  simp only [Bool.and_eq_true, decide_eq_true_eq] at hrun
  obtain ⟨⟨hvalid, hk⟩, hlen⟩ := hrun
  have hsync : SIDRun (s.withNeighbor.syncEndXSIDs 0) :=
    .sync 0 (.start (toOption_eq_some.mp hs) (by decide)) rfl rfl
  obtain ⟨-, hlt, -, hplaced⟩ := (endX_sids hsync).2.1 e.1 e.2 hk
  rw [hlen] at hlt
  exact ⟨_, e.1, e.2, hsync, hk, hlt, (hplaced hvalid).2.2.1⟩

/-! ## Owners -/

/-- `localSIDs()`. -/
def NodeServer.localSIDs (s : NodeServer) : List Addr :=
  s.locators.map (·.endSID) ++ s.endXSIDs.entries.map (·.2.sid)

/-- Neither of two locators contains the address of the other. -/
def SRv6LocatorConfig.Apart (a b : SRv6LocatorConfig) : Prop :=
  containsAddr a.pfx.masked b.endSID = false ∧ containsAddr b.pfx.masked a.endSID = false

instance : Std.Symm SRv6LocatorConfig.Apart := ⟨fun _ _ h => h.symm⟩

/-- Valid prefixes that do not overlap. -/
def LocatorsApart (lcs : List SRv6LocatorConfig) : Prop :=
  (∀ lc ∈ lcs, lc.pfx.isValid = true) ∧ lcs.Pairwise SRv6LocatorConfig.Apart

/-- Locators that are apart share no SID. -/
theorem LocatorsApart.eq_of_sid {lcs : List SRv6LocatorConfig} (h : LocatorsApart lcs)
    (hacc : ∀ lc ∈ lcs, lc.Accepted) {lc' : SRv6LocatorConfig} (hlc : lc ∈ lcs) (hlc' : lc' ∈ lcs)
    (heq : locatorSID lc.pfx.masked (functionLength lc.pfx.masked) fn =
      locatorSID lc'.pfx.masked (functionLength lc'.pfx.masked) fn') : lc = lc' := by
  by_contra hne
  obtain ⟨o, n, hloc⟩ := (hacc lc hlc).valid (h.1 lc hlc)
  obtain ⟨o', n', hloc'⟩ := (hacc lc' hlc').valid (h.1 lc' hlc')
  obtain ⟨hout, hout'⟩ := h.2.forall hlc hlc' hne
  rcases hloc.overlap hloc' heq with hin | hin
  · exact Bool.false_ne_true (hout.symm.trans hin)
  · exact Bool.false_ne_true (hout'.symm.trans hin)

/-- **Every local SID has one owner**, in every state of every run in which the locators are
apart. -/
theorem localSIDs_nodup {force : Bool} {jitter : Level → LSPID → Int} (h : SIDRun s)
    (hloc : t.locators = s.locators) (hsids : t.endXSIDs = s.endXSIDs)
    (hapart : LocatorsApart t.locators) : (t.regenerateLSPs force now jitter).localSIDs.Nodup := by
  have hacc : ∀ lc ∈ t.locators, lc.Accepted := fun lc hlc => h.accepted lc (hloc ▸ hlc)
  have htable : WellAllocated (t.syncedSIDs now) :=
    (hsids.symm ▸ h.wellAllocated : WellAllocated t.endXSIDs).syncedSIDs hacc
  have hend : ∀ lc ∈ t.locators,
      lc.endSID = locatorSID lc.pfx.masked (functionLength lc.pfx.masked) 0 := by
    intro lc hlc
    obtain ⟨o, n, hvalid⟩ := (hacc lc hlc).valid (hapart.1 lc hlc)
    exact hvalid.endSID_eq
  have hfrom : ∀ x ∈ (t.syncedSIDs now).entries, x.2.From x.1.locator ∧
      ∃ lc ∈ t.locators, x.1.locator = lc.pfx.masked := by
    intro x hx
    have hlook := AList.mem_lookup_iff.mpr hx
    obtain ⟨w, hw, hkey⟩ := key_of_syncedSIDs hlook
    obtain ⟨hmem, hmasked⟩ := locator_of_mem_wantedSIDs hw
    exact ⟨htable.held _ _ hlook, w.locator, hmem, hkey ▸ hmasked⟩
  have hlocal : (t.regenerateLSPs force now jitter).localSIDs =
      t.locators.map (·.endSID) ++ (t.syncedSIDs now).entries.map (·.2.sid) :=
    foldl_keeps (π := localSIDs) (f := fun s level => s.regenerateLevel force now jitter level)
      (fun _ _ => rfl) _ (t.syncEndXSIDs now)
  rw [hlocal, nodup_append]
  refine ⟨?_, Nodup.map_on (fun x hx y hy hsid => ?_) (t.syncedSIDs now).nodupKeys.nodup, ?_⟩
  · refine pairwise_map.mpr (hapart.2.imp_of_mem fun {lc lc'} hlc hlc' hout hsid => ?_)
    rw [hend lc hlc, hend lc' hlc'] at hsid
    cases hapart.eq_of_sid hacc hlc hlc' hsid
    obtain ⟨o, n, hvalid⟩ := (hacc lc hlc).valid (hapart.1 lc hlc)
    have hin := hvalid.contains_sid 0
    rw [← hvalid.endSID_eq] at hin
    exact Bool.false_ne_true (hout.1.symm.trans hin)
  · obtain ⟨hx', lc, hlc, hxloc⟩ := hfrom x hx
    obtain ⟨hy', lc', hlc', hyloc⟩ := hfrom y hy
    rw [hx'.sid, hy'.sid, hxloc, hyloc] at hsid
    cases hapart.eq_of_sid hacc hlc hlc' hsid
    obtain ⟨o, n, hvalid⟩ := (hacc lc hlc).valid (hapart.1 lc hlc)
    have hfn := hvalid.function_of_sid (hxloc ▸ hx'.lt) (hyloc ▸ hy'.lt) hsid
    have hxe := AList.mem_lookup_iff.mpr hx
    have hye := AList.mem_lookup_iff.mpr hy
    obtain ⟨k, e⟩ := x
    obtain ⟨k', e'⟩ := y
    cases htable.apart k k' e e' hxe hye (hxloc.trans hyloc.symm) hfn
    cases hxe.symm.trans hye
    rfl
  · intro a ha b hb hsid
    obtain ⟨lc, hlc, rfl⟩ := mem_map.mp ha
    obtain ⟨x, hx, rfl⟩ := mem_map.mp hb
    obtain ⟨hx', lc', hlc', hxloc⟩ := hfrom x hx
    rw [hend lc hlc, hx'.sid, hxloc] at hsid
    cases hapart.eq_of_sid hacc hlc hlc' hsid
    obtain ⟨o, n, hvalid⟩ := (hacc lc hlc).valid (hapart.1 lc hlc)
    have hfn := hvalid.function_of_sid (Nat.two_pow_pos _) (hxloc ▸ hx'.lt) hsid
    have hpos := hx'.pos
    omega

/-- The same node with a second locator, fc00::/48. -/
def twoLocatorNode : NodeOptions :=
  { locatorNode with
    locators :=
    [⟨⟨.v6 (Octets.ofList 16 [0xfd]), 48⟩, 0⟩, ⟨⟨.v6 (Octets.ofList 16 [0xfc]), 48⟩, 0⟩] }

/-- It has two End SIDs and, with a neighbour, two End.X SIDs. -/
theorem localSIDs_nodup_neighbor : ∃ s, newNodeServer twoLocatorNode = .ok s ∧
    (s.withNeighbor.regenerateLSPs false 0 fun _ _ => 0).localSIDs.length = 4 ∧
    (s.withNeighbor.regenerateLSPs false 0 fun _ _ => 0).localSIDs.Nodup := by
  have hrun : (newNodeServer twoLocatorNode).toOption.any (fun s =>
      (s.withNeighbor.regenerateLSPs false 0 fun _ _ => 0).localSIDs.length = 4) = true := by
    decide +kernel
  obtain ⟨s, hs, hlen⟩ := (any_eq_true _ _).mp hrun
  have hs := toOption_eq_some.mp hs
  have hloc : s.locators = twoLocatorNode.locators := (managed_newNodeServer hs).2.1
  have hapart : LocatorsApart twoLocatorNode.locators :=
    ⟨by decide, pairwise_pair.mpr ⟨by decide, by decide⟩⟩
  exact ⟨s, hs, of_decide_eq_true hlen,
    localSIDs_nodup (.start hs (by decide)) rfl rfl ((congrArg LocatorsApart hloc).mpr hapart)⟩

/-- Two calls that succeed, for 2001:db8::/32 and for 2001:db8::/48. -/
def overlapping (m : Managed) : Except MutateError Managed := do
  let m ← m.addLocator ⟨⟨.v6 (Octets.ofList 16 [0x20, 0x01, 0x0d, 0xb8]), 32⟩, 0⟩
  m.addLocator ⟨⟨.v6 (Octets.ofList 16 [0x20, 0x01, 0x0d, 0xb8]), 48⟩, 0⟩

/-- Nested prefixes with one address are two locators with one End SID. -/
theorem nested_locators_share_sid : ∃ s m, newNodeServer (plainNode []) = .ok s ∧
    overlapping s.managed = .ok m ∧
    ¬((s.configure (.ok m)).regenerateLSPs false 0 fun _ _ => 0).localSIDs.Nodup := by
  have hrun :
      (newNodeServer (plainNode [])).toOption.any (fun s => (overlapping s.managed).toOption.any
      fun m => !decide ((s.configure (.ok m)).regenerateLSPs false 0 fun _ _ =>
        0).localSIDs.Nodup) =
        true := by
    decide +kernel
  obtain ⟨s, hs, hrun⟩ := (any_eq_true _ _).mp hrun
  obtain ⟨m, hm, hrun⟩ := (any_eq_true _ _).mp hrun
  exact ⟨s, m, toOption_eq_some.mp hs, toOption_eq_some.mp hm, by simpa using hrun⟩

end Table

end Goisis.Server
