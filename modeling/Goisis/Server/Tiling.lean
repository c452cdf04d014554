import Mathlib.Data.List.Induction
import Goisis.Server.SnpOrder

/-!
# A burst of CSNPs covers every LSP ID once

`sendCSNP` cuts the database into PDUs whose ranges follow each other from `00…00` to `ff…ff`. LSP
IDs are octet strings of one length, so they are ordered as the numbers they spell (`lspNum`), and a
range is an interval of numbers.

* `tiles_sendCSNP` — the ranges of a burst are consecutive and together all of the LSP IDs, and
  every PDU lists entries of its own range only;
* `flags_burst_listed`, `flags_burst_unlisted` — what a whole burst makes of the flags of one LSP:
  as if the one PDU that covers it had come alone.
-/

namespace Goisis.Server

open Lib Packet IsisServer List

variable {id start : LSPID} {n : ℕ} {ps : List CSNP} {level : Level} {chunks : List (List LSPEntry)}
  {tlvs : List TLV} {size : Int} {last : LSPID} {chunk : List LSPEntry} {c₀ : Circuit}

/-! ## LSP IDs as numbers -/

/-- The number an LSP ID spells. -/
def lspNum (id : LSPID) : ℕ := bigEndian id.toBytes

theorem lspNum_lt (id : LSPID) : lspNum id < 256 ^ 8 := by
  have h := bigEndian_lt id.toBytes
  rwa [id.length_toBytes] at h

theorem toBytes_le_iff {a b : LSPID} : a.toBytes ≤ b.toBytes ↔ lspNum a ≤ lspNum b :=
  le_iff_bigEndian_le (a.length_toBytes.trans b.length_toBytes.symm)

theorem lspNum_injective : Function.Injective lspNum := by
  intro a b h
  have hab : a.toBytes ≤ b.toBytes := toBytes_le_iff.mpr h.le
  have hba : b.toBytes ≤ a.toBytes := toBytes_le_iff.mpr h.ge
  exact LSPID.toBytes_inj (List.le_antisymm hab hba)

theorem inRange_iff {stop : LSPID} :
    inRange id start stop = true ↔ lspNum start ≤ lspNum id ∧ lspNum id ≤ lspNum stop := by
  simp only [inRange, decide_eq_true_eq, toBytes_le_iff]

/-- Counting up by one wraps when every octet is `ff`. -/
theorem bigEndian_incrementOctets (l : Bytes) :
    (incrementOctets l).1.length = l.length ∧
      if (incrementOctets l).2 then
        bigEndian l + 1 = 256 ^ l.length ∧ bigEndian (incrementOctets l).1 = 0
      else bigEndian (incrementOctets l).1 = bigEndian l + 1 := by
  induction l with
  | nil => exact ⟨rfl, rfl, rfl⟩
  | cons b bs ih =>
    obtain ⟨hlen, hval⟩ := ih
    simp only [incrementOctets]
    by_cases hcarry : (incrementOctets bs).2 = true
    case neg =>
      rw [if_neg hcarry] at hval
      simp only [if_neg hcarry, Bool.false_eq_true, if_false]
      exact ⟨by simp [hlen], by rw [bigEndian, bigEndian, hval, hlen, Nat.add_assoc]⟩
    case pos =>
      rw [if_pos hcarry] at hval
      simp only [if_pos hcarry]
      refine ⟨by simp [hlen], ?_⟩
      obtain ⟨hfull, hzero⟩ := hval
      have hb : b.toNat < 256 := b.toNat_lt
      have hsucc : (b + 1).toNat = (b.toNat + 1) % 256 := UInt8.toNat_add b 1
      by_cases hlast : b.toNat = 255
      · have hwrap : b + 1 = 0 := UInt8.toNat_inj.mp (by rw [hsucc, hlast]; rfl)
        simp only [hwrap, beq_self_eq_true, if_true, bigEndian, hlast, hzero, length_cons,
          Nat.pow_succ]
        exact ⟨by omega, by simp⟩
      · have hnat : (b + 1).toNat = b.toNat + 1 := by
          rw [hsucc]
          exact Nat.mod_eq_of_lt (by omega)
        have hne : ((b + 1) == 0) = false := by
          rw [beq_eq_false_iff_ne]
          intro heq
          rw [heq] at hnat
          exact absurd hnat (Nat.succ_ne_zero _).symm
        simp only [hne, Bool.false_eq_true, if_false, bigEndian, hnat, hzero, hlen, Nat.succ_mul]
        omega

theorem lspNum_lspIDAt {l : Bytes} (h : l.length = 8) : lspNum (lspIDAt l 0) = bigEndian l := by
  have hbytes : (lspIDAt l 0).toBytes = l := by
    match l, h with
    | [a, b, c, d, e, f, g, i], _ => rfl
  rw [lspNum, hbytes]

/-- The ID after one that is not the last. -/
theorem lspNum_nextLSPID (h : lspNum id + 1 < 256 ^ 8) : lspNum (nextLSPID id) = lspNum id + 1 := by
  obtain ⟨hlen, hval⟩ := bigEndian_incrementOctets id.toBytes
  rw [nextLSPID, lspNum_lspIDAt (hlen.trans id.length_toBytes)]
  split at hval
  · rw [id.length_toBytes] at hval
    exact absurd hval.1 (Nat.ne_of_lt h)
  · exact hval

theorem lspNum_firstLSPID : lspNum firstLSPID = 0 := by decide

theorem lspNum_le_lastLSPID (id : LSPID) : lspNum id ≤ lspNum lastLSPID := by
  have hlast : lspNum lastLSPID = 256 ^ 8 - 1 := by decide
  have h := lspNum_lt id
  omega

/-! ## The ranges of a burst -/

/-- Every entry the PDU lists lies in its range. -/
def ListsOwnRange (p : CSNP) : Prop :=
  ∀ x ∈ listedEntries p.tlvs, inRange x.lspID p.startLSP p.endLSP = true

/-- The ranges of the PDUs follow each other, from `n` to the last LSP ID. -/
inductive Tiles : ℕ → List CSNP → Prop where
  | last {n : ℕ} {p : CSNP} (hstart : lspNum p.startLSP = n) (hend : p.endLSP = lastLSPID)
      (hlists : ListsOwnRange p) : Tiles n [p]
  | cons {n : ℕ} {p : CSNP} {ps : List CSNP} (hstart : lspNum p.startLSP = n)
      (hle : n ≤ lspNum p.endLSP) (hlists : ListsOwnRange p)
      (hrest : Tiles (lspNum p.endLSP + 1) ps) : Tiles n (p :: ps)

/-- The PDU covers the LSP ID. -/
def CSNP.covers (p : CSNP) (id : LSPID) : Bool := inRange id p.startLSP p.endLSP

theorem Tiles.not_covers (h : Tiles n ps) (hid : lspNum id < n) :
    ∀ p ∈ ps, CSNP.covers p id = false := by
  induction h with
  | last hstart hend hlists =>
    intro p hp
    rw [mem_singleton] at hp
    subst hp
    rw [CSNP.covers, ← Bool.not_eq_true, inRange_iff]
    omega
  | cons hstart hle hlists hrest ih =>
    intro p hp
    rcases mem_cons.mp hp with rfl | hp
    · rw [CSNP.covers, ← Bool.not_eq_true, inRange_iff]
      omega
    · exact ih (by omega) p hp

theorem Tiles.listsOwnRange (h : Tiles n ps) : ∀ p ∈ ps, ListsOwnRange p := by
  induction h with
  | last _ _ hlists =>
    intro q hq
    rwa [mem_singleton.mp hq]
  | cons _ _ hlists _ ih =>
    intro q hq
    rcases mem_cons.mp hq with rfl | hq
    · exact hlists
    · exact ih q hq

/-- **One PDU covers an LSP ID, and no other does.** -/
theorem Tiles.exists_unique (h : Tiles n ps) (hid : n ≤ lspNum id) :
    ∃ before p after, ps = before ++ p :: after ∧ CSNP.covers p id = true ∧
      ListsOwnRange p ∧ ∀ q ∈ before ++ after, CSNP.covers q id = false ∧ ListsOwnRange q := by
  induction h with
  | @last n p hstart hend hlists =>
    refine ⟨[], p, [], rfl, ?_, hlists, by simp⟩
    rw [CSNP.covers, inRange_iff, hstart, hend]
    exact ⟨hid, lspNum_le_lastLSPID id⟩
  | @cons n p ps hstart hle hlists hrest ih =>
    by_cases hhere : lspNum id ≤ lspNum p.endLSP
    · refine ⟨[], p, ps, rfl, ?_, hlists, fun q hq => ?_⟩
      · rw [CSNP.covers, inRange_iff, hstart]
        exact ⟨hid, hhere⟩
      · exact ⟨hrest.not_covers (Nat.lt_succ_of_le hhere) q hq, hrest.listsOwnRange q hq⟩
    · obtain ⟨before, q, after, rfl, hcov, hown, hothers⟩ := ih (by omega)
      refine ⟨p :: before, q, after, rfl, hcov, hown, fun r hr => ?_⟩
      rcases mem_cons.mp hr with rfl | hr
      · refine ⟨?_, hlists⟩
        rw [CSNP.covers, ← Bool.not_eq_true, inRange_iff]
        omega
      · exact hothers r hr

/-! ## What `sendCSNP` packs -/

section Pack

variable {source : NodeID} {budget : Int}

/-- The entries of a list in strictly increasing order of their LSP IDs. -/
def Ascending (es : List LSPEntry) : Prop :=
  es.Pairwise fun a b => lspNum a.lspID < lspNum b.lspID

/-- The packing loop puts every entry into one PDU, in order. -/
theorem listed_packCSNPs :
    (packCSNPs level source budget chunks tlvs size start last).flatMap (listedEntries ·.tlvs) =
      listedEntries tlvs ++ chunks.flatten := by
  induction chunks generalizing tlvs size start last with
  | nil => simp [packCSNPs]
  | cons chunk rest ih =>
    simp only [packCSNPs]
    split
    · rw [flatMap_cons, ih, listedEntries_lspEntries, flatten_cons]
    · rw [ih, listedEntries_append, listedEntries_lspEntries, flatten_cons, append_assoc]

/-- What waits in the packing loop lies between the start of the range and the last ID packed. -/
structure Waiting (tlvs : List TLV) (start last : LSPID) : Prop where
  range : ∀ x ∈ listedEntries tlvs, lspNum start ≤ lspNum x.lspID ∧ lspNum x.lspID ≤ lspNum last
  nonempty : tlvs ≠ [] → lspNum start ≤ lspNum last

theorem Waiting.nil : Waiting [] start last :=
  ⟨nofun, fun h => absurd rfl h⟩

/-- The last ID of an ascending chunk bounds the others. -/
theorem le_getLast (last : LSPID) (hasc : Ascending chunk) {x : LSPEntry} (hx : x ∈ chunk) :
    lspNum x.lspID ≤ lspNum (((chunk.getLast?).map (·.lspID)).getD last) := by
  induction chunk using reverseRecOn with
  | nil => cases hx
  | append_singleton chunk y _ =>
    rw [getLast?_concat, Option.map_some, Option.getD_some]
    rcases mem_append.mp hx with hx | hx
    · exact ((pairwise_append.mp hasc).2.2 x hx y mem_cons_self).le
    · rw [mem_singleton.mp hx]

theorem Waiting.append (h : Waiting tlvs start last) (hasc : Ascending chunk) (hne : chunk ≠ [])
    (hstart : ∀ x ∈ chunk, lspNum start ≤ lspNum x.lspID)
    (hlast : tlvs ≠ [] → ∀ x ∈ chunk, lspNum last < lspNum x.lspID) :
    Waiting (tlvs ++ [.lspEntries chunk]) start (((chunk.getLast?).map (·.lspID)).getD last) where
  range x hx := by
    rw [listedEntries_append, listedEntries_lspEntries] at hx
    rcases mem_append.mp hx with hx | hx
    · have htlvs : tlvs ≠ [] := by
        rintro rfl
        cases hx
      obtain ⟨y, hy⟩ := exists_mem_of_ne_nil chunk hne
      have hlasty := (hlast htlvs y hy).le.trans (le_getLast last hasc hy)
      exact ⟨(h.range x hx).1, (h.range x hx).2.trans hlasty⟩
    · exact ⟨hstart x hx, le_getLast last hasc hx⟩
  nonempty _ := by
    obtain ⟨x, hx⟩ := exists_mem_of_ne_nil chunk hne
    exact (hstart x hx).trans (le_getLast last hasc hx)

/-- **The packing loop tiles.** -/
theorem tiles_packCSNPs (hasc : Ascending chunks.flatten) (hne : ∀ chunk ∈ chunks, chunk ≠ [])
    (hstart : ∀ x ∈ chunks.flatten, lspNum start ≤ lspNum x.lspID)
    (hlast : tlvs ≠ [] → ∀ x ∈ chunks.flatten, lspNum last < lspNum x.lspID)
    (hwait : Waiting tlvs start last) :
    Tiles (lspNum start) (packCSNPs level source budget chunks tlvs size start last) := by
  induction chunks generalizing tlvs size start last with
  | nil =>
    refine .last rfl rfl fun x hx => ?_
    rw [inRange_iff]
    exact ⟨(hwait.range x hx).1, lspNum_le_lastLSPID _⟩
  | cons chunk rest ih =>
    obtain ⟨hchunk, hrest, hbetween⟩ := pairwise_append.mp hasc
    have hchunkne := hne chunk mem_cons_self
    have hrestne : ∀ ch ∈ rest, ch ≠ [] := fun ch hch => hne ch (mem_cons_of_mem _ hch)
    have hin : ∀ x ∈ chunk, x ∈ chunk ++ rest.flatten := fun x hx => mem_append_left _ hx
    -- the last ID of the chunk is below everything that follows
    have hafter : ∀ x ∈ rest.flatten,
        lspNum (((chunk.getLast?).map (·.lspID)).getD last) < lspNum x.lspID := by
      intro x hx
      obtain ⟨ys, y, rfl⟩ := eq_nil_or_concat' chunk |>.resolve_left hchunkne
      rw [getLast?_concat, Option.map_some, Option.getD_some]
      exact hbetween y (mem_append_right _ mem_cons_self) x hx
    simp only [packCSNPs]
    split
    · rename_i hflush
      obtain ⟨y, hy⟩ := exists_mem_of_ne_nil chunk hchunkne
      have hroom : lspNum last + 1 < 256 ^ 8 :=
        Nat.lt_of_le_of_lt (hlast hflush.2 y (hin y hy)) (lspNum_lt y.lspID)
      have hnext := lspNum_nextLSPID hroom
      have hmore : ∀ x ∈ chunk ++ rest.flatten, lspNum (nextLSPID last) ≤ lspNum x.lspID := by
        intro x hx
        rw [hnext]
        exact hlast hflush.2 x hx
      refine .cons rfl (hwait.nonempty hflush.2) (fun x hx => ?_) ?_
      · rw [inRange_iff]
        exact hwait.range x hx
      · rw [← hnext]
        exact ih hrest hrestne (fun x hx => hmore x (mem_append_right _ hx))
          (fun _ => hafter) (Waiting.nil.append hchunk hchunkne (fun x hx => hmore x (hin x hx))
            fun h => (h rfl).elim)
    · exact ih hrest hrestne (fun x hx => hstart x (mem_append_right _ hx)) (fun _ => hafter)
        (hwait.append hchunk hchunkne (fun x hx => hstart x (hin x hx))
          fun htlvs x hx => hlast htlvs x (hin x hx))

theorem flatten_chunkEntries {es : List LSPEntry} (h : es.length ≤ n) :
    (chunkEntries n es).flatten = es ∧ ∀ chunk ∈ chunkEntries n es, chunk ≠ [] := by
  induction n generalizing es with
  | zero =>
    have hnil := length_eq_zero_iff.mp (Nat.le_zero.mp h)
    subst hnil
    exact ⟨rfl, nofun⟩
  | succ n ih =>
    cases es with
    | nil => exact ⟨rfl, nofun⟩
    | cons e es =>
      have hmax : 0 < maxLSPEntriesPerTLV := by decide
      have hdrop : ((e :: es).drop maxLSPEntriesPerTLV).length ≤ n := by
        rw [length_drop, length_cons]
        rw [length_cons] at h
        omega
      obtain ⟨hflat, hne⟩ := ih hdrop
      refine ⟨?_, ?_⟩
      · rw [chunkEntries, flatten_cons, hflat, take_append_drop]
        exact nofun
      · intro chunk hchunk
        rcases mem_cons.mp hchunk with rfl | hchunk
        · simp [take_eq_nil_iff, hmax.ne']
        · exact hne chunk hchunk

end Pack

/-! ## Bursts -/

section Burst

variable {s : IsisServer} {c : Circuit} {now : Int}

instance : IsTrans LSPEntry fun a b => a.lspID.toBytes ≤ b.lspID.toBytes :=
  ⟨fun _ _ _ hab hbc => toBytes_le_iff.mpr ((toBytes_le_iff.mp hab).trans (toBytes_le_iff.mp hbc))⟩

instance : Std.Total fun a b : LSPEntry => a.lspID.toBytes ≤ b.lspID.toBytes :=
  ⟨fun _ _ => (le_total _ _).imp toBytes_le_iff.mpr toBytes_le_iff.mpr⟩

theorem describe_mem_describeDatabase {e : LspEntry} (h : s.entryAt level id = some e) :
    describe id e now ∈ s.describeDatabase level now := by
  unfold entryAt at h
  unfold describeDatabase
  cases hdb : s.dbs level with
  | none => rw [hdb] at h; cases h
  | some db =>
    rw [hdb] at h
    rw [mem_insertionSort, mem_map]
    exact ⟨⟨id, e⟩, AList.mem_lookup_iff.mp h, rfl⟩

/-- The database is described in strictly increasing order. -/
theorem ascending_describeDatabase : Ascending (s.describeDatabase level now) := by
  unfold describeDatabase
  split
  · exact .nil
  rename_i db hdb
  have hperm := perm_insertionSort (fun a b : LSPEntry => a.lspID.toBytes ≤ b.lspID.toBytes)
    (db.entries.map fun e => describe e.1 e.2 now)
  have hsorted := pairwise_insertionSort (fun a b : LSPEntry => a.lspID.toBytes ≤ b.lspID.toBytes)
    (db.entries.map fun e => describe e.1 e.2 now)
  have hids : (db.entries.map fun e => describe e.1 e.2 now).Pairwise
      fun a b => a.lspID ≠ b.lspID := by
    rw [pairwise_map]
    exact pairwise_map.mp db.nodupKeys
  have hdistinct := hids.perm hperm.symm fun h => Ne.symm h
  refine (hsorted.and hdistinct).imp fun hab => ?_
  refine lt_of_le_of_ne (toBytes_le_iff.mp hab.1) fun heq => hab.2 (lspNum_injective heq)

/-- **A burst covers every LSP ID once and lists the whole database.** -/
theorem tiles_sendCSNP (s : IsisServer) (c : Circuit) (level : Level) (now : Int) :
    Tiles 0 (s.sendCSNP c level now) := by
  obtain ⟨hflat, hne⟩ := flatten_chunkEntries (Nat.le_refl (s.describeDatabase level now).length)
  have hstart : ∀ x : LSPEntry, lspNum firstLSPID ≤ lspNum x.lspID := fun x => by
    exact Nat.zero_le _
  refine tiles_packCSNPs ?_ hne (fun x _ => hstart x) (fun h => absurd rfl h) .nil
  rw [hflat]
  exact ascending_describeDatabase

theorem listed_sendCSNP (s : IsisServer) (c : Circuit) (level : Level) (now : Int) :
    (s.sendCSNP c level now).flatMap (listedEntries ·.tlvs) =
    s.describeDatabase level now := by
  rw [sendCSNP, listed_packCSNPs, (flatten_chunkEntries le_rfl).1]
  rfl

/-- The circuit after a burst of CSNPs, one `processCSNP` after the other. -/
def burstCircuit (db : LSDB) (ps : List CSNP) (now : Int) (c : Circuit) : Circuit :=
  ps.foldl (fun c p => csnpCircuit db p now c) c

variable {db : LSDB}

theorem FlagsOnly.self (h : FlagsOnly c₀ level c) : FlagsOnly c level c :=
  .refl h.srm h.ssn

theorem FlagsOnly.trans {c' : Circuit} (h : FlagsOnly c₀ level c) (h' : FlagsOnly c level c') :
    FlagsOnly c₀ level c' where
  srm := h'.srm
  ssn := h'.ssn
  rest := by
    have hrest := h'.rest
    rw [← h.rest, ← hrest]

theorem burstCircuit_flagsOnly (db : LSDB) (now : Int) (hlevel : ∀ p ∈ ps, p.level = level)
    (h : FlagsOnly c level c) : FlagsOnly c level (burstCircuit db ps now c) := by
  induction ps generalizing c with
  | nil => exact h
  | cons p ps ih =>
    have hp : p.level = level := hlevel p mem_cons_self
    have hfirst : FlagsOnly c level (csnpCircuit db p now c) := by
      subst hp
      exact csnpCircuit_flagsOnly h
    exact hfirst.trans (ih (fun q hq => hlevel q (mem_cons_of_mem p hq)) hfirst.self)

/-- PDUs that do not cover an LSP ID do nothing to its flags. -/
theorem flags_burst_uncovered (hlevel : ∀ p ∈ ps, p.level = level) (h : FlagsOnly c level c)
    (hcov : ∀ p ∈ ps, CSNP.covers p id = false ∧ ListsOwnRange p) :
    (burstCircuit db ps now c).flags (level, id) = c.flags (level, id) := by
  induction ps generalizing c with
  | nil => rfl
  | cons p ps ih =>
    obtain ⟨hpcov, hlists⟩ := hcov p mem_cons_self
    have hp : p.level = level := hlevel p mem_cons_self
    subst hp
    have hunlisted : ∀ e ∈ listedEntries p.tlvs, e.lspID ≠ id := by
      rintro e he rfl
      have hin := hlists e he
      unfold CSNP.covers at hpcov
      rw [hpcov] at hin
      cases hin
    have hfirst : (csnpCircuit db p now c).flags (p.level, id) = c.flags (p.level, id) := by
      have hout : inRange id p.startLSP p.endLSP = false := hpcov
      rw [flags_unlisted db now h hunlisted, hout]
      simp
    rw [← hfirst]
    exact ih (fun q hq => hlevel q (mem_cons_of_mem p hq)) (csnpCircuit_flagsOnly h).self
      fun q hq => hcov q (mem_cons_of_mem p hq)

/-- A burst acts on the flags of an LSP as the one PDU of it that covers the LSP. -/
theorem flags_burst (s : IsisServer) (cd : Circuit) (db : LSDB) (now : Int)
    (h : FlagsOnly c level c) (id : LSPID) :
    ∃ p ∈ s.sendCSNP cd level now, CSNP.covers p id = true ∧
      (∀ q ∈ s.sendCSNP cd level now, CSNP.covers q id = true → q = p) ∧
      ∃ c', FlagsOnly c' level c' ∧ c'.flags (level, id) = c.flags (level, id) ∧
      (burstCircuit db (s.sendCSNP cd level now) now c).flags (level, id) =
        (csnpCircuit db p now c').flags (level, id) := by
  have hlevel : ∀ p ∈ s.sendCSNP cd level now, p.level = level := fun p hp =>
    (sendCSNP_listed hp).1
  obtain ⟨before, p, after, hps, hcov, -, hothers⟩ :=
    (tiles_sendCSNP s cd level now).exists_unique (Nat.zero_le (lspNum id))
  rw [hps] at hlevel ⊢
  have hbefore : ∀ q ∈ before, q.level = level := fun q hq =>
    hlevel q (mem_append_left _ hq)
  have hp : p.level = level := hlevel p (mem_append_right _ mem_cons_self)
  subst hp
  have hmid := burstCircuit_flagsOnly db now hbefore h
  refine ⟨p, mem_append_right _ mem_cons_self, hcov, fun q hq hqcov => ?_,
    burstCircuit db before now c, hmid.self, flags_burst_uncovered hbefore h fun q hq =>
    hothers q (mem_append_left _ hq), ?_⟩
  · by_contra hne
    have hother : q ∈ before ++ after := by
      rcases mem_append.mp hq with hq | hq
      · exact mem_append_left _ hq
      · exact mem_append_right _ ((mem_cons.mp hq).resolve_left hne)
    rw [(hothers q hother).1] at hqcov
    cases hqcov
  have hsplit : burstCircuit db (before ++ p :: after) now c =
      burstCircuit db after now (csnpCircuit db p now (burstCircuit db before now c)) := by
    unfold burstCircuit
    rw [foldl_append, foldl_cons]
  rw [hsplit]
  exact flags_burst_uncovered (fun q hq => hlevel q (mem_append_right _ (mem_cons_of_mem p hq)))
    (csnpCircuit_flagsOnly hmid.self).self fun q hq => hothers q (mem_append_right _ hq)

theorem nodup_listed {p : CSNP} (s : IsisServer) (cd : Circuit) (hp : p ∈ s.sendCSNP cd level now) :
    ((listedEntries p.tlvs).map (·.lspID)).Nodup := by
  have hsub : (listedEntries p.tlvs).Sublist (s.describeDatabase level now) := by
    rw [← listed_sendCSNP s cd, flatMap_def]
    exact sublist_flatten_of_mem (mem_map_of_mem hp)
  rw [nodup_iff_pairwise_ne, pairwise_map]
  refine (ascending_describeDatabase.sublist hsub).imp fun hlt heq => ?_
  rw [heq] at hlt
  exact Nat.lt_irrefl _ hlt

/-- **A burst on an LSP the sender holds.** -/
theorem flags_burst_listed (s : IsisServer) (cd : Circuit) (db : LSDB) (h : FlagsOnly c level c)
    {e : LSPEntry} (he : e ∈ s.describeDatabase level now) :
    (burstCircuit db (s.sendCSNP cd level now) now c).flags (level, e.lspID) =
      csnpFlags db.lookup now e (c.flags (level, e.lspID)) := by
  obtain ⟨p, hp, -, hunique, c', hc', hsame, hburst⟩ := flags_burst s cd db now h e.lspID
  have hlevel : p.level = level := (sendCSNP_listed hp).1
  subst hlevel
  -- the entry is listed somewhere, hence in the PDU that covers it
  have hmem : e ∈ listedEntries p.tlvs := by
    rw [← listed_sendCSNP s cd, mem_flatMap] at he
    obtain ⟨q, hq, heq⟩ := he
    rwa [← hunique q hq ((tiles_sendCSNP s cd _ now).listsOwnRange q hq e heq)]
  rw [hburst, flags_listed db now hc' (nodup_listed s cd hp) hmem, hsame]

/-- **A burst on an LSP the sender lacks.** -/
theorem flags_burst_unlisted (s : IsisServer) (cd : Circuit) (db : LSDB) (h : FlagsOnly c level c)
    (hid : ∀ e ∈ s.describeDatabase level now, e.lspID ≠ id) :
    (burstCircuit db (s.sendCSNP cd level now) now c).flags (level, id) =
      if (db.lookup id).isSome then (some now, (c.flags (level, id)).2) else
      c.flags (level, id) := by
  obtain ⟨p, hp, hcov, -, c', hc', hsame, hburst⟩ := flags_burst s cd db now h id
  have hlevel : p.level = level := (sendCSNP_listed hp).1
  subst hlevel
  have hunlisted : ∀ e ∈ listedEntries p.tlvs, e.lspID ≠ id := fun e he => by
    refine hid e ?_
    rw [← listed_sendCSNP s cd]
    exact mem_flatMap.mpr ⟨p, hp, he⟩
  have hin : inRange id p.startLSP p.endLSP = true := hcov
  rw [hburst, flags_unlisted db now hc' hunlisted, hsame, hin]
  simp

end Burst

end Goisis.Server
