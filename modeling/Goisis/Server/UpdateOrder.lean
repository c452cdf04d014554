import Goisis.Server.OwnLsp
import Goisis.Server.WireImage

/-!
# A received LSP never sets the database back

Copies of an LSP are ordered by sequence number, and at equal sequence numbers a purge or an expired
copy stands above a live one. `processLSP` has nine ways to end, most of them in helper functions
that store something else than what was received; all of them respect this order.

* `reoriginateOwn_above` — what re-origination leaves behind is above everything seen on the wire;
* `update_monotone` — one received LSP changes one entry at most, never sets it back, never grows a
  full database, and leaves a copy at least as new as the received one unless the LSP was dropped.
-/

namespace Goisis.Server

open Lib Packet IsisServer LspEntry

/-! ## The order on copies -/

/-- A purge, or a copy that ran out. -/
def LspEntry.dead (e : LspEntry) (now : Int) : Bool := e.purgedAt.isSome || e.remaining now == 0

/-- The entry is at least as new as a copy with sequence number `seq`, dead or live. -/
def LspEntry.AtLeast (e : LspEntry) (now : Int) (seq : UInt32) (dead : Bool) : Prop :=
  seq < e.lsp.sequenceNumber ∨ seq = e.lsp.sequenceNumber ∧ (dead = true → e.dead now = true)

section Order

variable {e e' : LspEntry} {now : Int} {seq : UInt32} {dead : Bool}

theorem LspEntry.AtLeast.refl (e : LspEntry) (now : Int) :
    e.AtLeast now e.lsp.sequenceNumber (e.dead now) :=
  .inr ⟨rfl, id⟩

/-- A dead copy is at least as new as every copy with its sequence number or a lower one. -/
theorem LspEntry.atLeast_of_dead (hseq : seq ≤ e.lsp.sequenceNumber) (hdead : e.dead now = true) :
    e.AtLeast now seq dead := by
  rcases UInt32.lt_or_eq_of_le hseq with hlt | heq
  · exact .inl hlt
  · exact .inr ⟨heq, fun _ => hdead⟩

theorem LspEntry.dead_of_purgedAt {t : Int} (h : e.purgedAt = some t) : e.dead now = true := by
  simp [dead, h]

theorem LspEntry.AtLeast.of_true (h : e.AtLeast now seq true) : e.AtLeast now seq dead :=
  h.imp_right fun ⟨heq, hdead⟩ => ⟨heq, fun _ => hdead rfl⟩

/-- What is at least as new as a copy that is newer than `e'` is at least as new as `e'`. -/
theorem LspEntry.AtLeast.of_newer {rem : UInt16} (h : e.AtLeast now seq (rem == 0))
    (hnewer : newer seq rem (some e') now = true) :
    e.AtLeast now e'.lsp.sequenceNumber (e'.dead now) := by
  rcases newer_some_iff.mp hnewer with hlt | ⟨rfl, rfl, -⟩
  · rcases h with hlt' | ⟨rfl, -⟩
    · exact .inl (UInt32.lt_trans hlt hlt')
    · exact .inl hlt
  · exact h.of_true

/-- A received copy that is not newer finds one at least as new. -/
theorem LspEntry.atLeast_of_not_newer {rem : UInt16} (h : newer seq rem (some e) now = false) :
    e.AtLeast now seq (rem == 0) := by
  rcases newer_some_eq_false h with hlt | ⟨heq, himp⟩
  · exact .inl hlt
  · refine .inr ⟨heq, fun hrem => ?_⟩
    simp [dead, himp (by simpa using hrem)]

end Order

/-! ## What the helpers store -/

section Helpers

variable {s : IsisServer} {level : Level} {id : LSPID} {now jitter : Int} {ex : LspEntry}

/-- An exhausted ID is left with a purge at the highest sequence number. -/
theorem exhaustSeq_above (s : IsisServer) (level : Level) (id : LSPID) (now : Int) (seq : UInt32) :
    ∃ e, (s.exhaustSeq level id now).dbs = (s.putEntry level id e).dbs ∧
      e.AtLeast now seq true := by
  obtain ⟨raw, lsp, hser, heq⟩ := exhaustSeq_eq s level id now
  refine ⟨ownPurge lsp raw now, by rw [heq]; rfl, ?_⟩
  refine atLeast_of_dead ?_ (dead_of_purgedAt rfl)
  have hmax : lsp.sequenceNumber = maxLSPSeq := sequenceNumber_serialized hser
  rw [ownPurge, hmax]
  rcases lt_maxLSPSeq_or_eq seq with hlt | heq
  · exact UInt32.le_of_lt hlt
  · exact UInt32.le_of_eq heq

/-- **Re-origination ends above everything seen**: one above the sequence number, or with the purge
of an exhausted ID. An LSP of ours serialized before, so it does again. -/
theorem reoriginateOwn_above (hs : EntriesAgree s) (hex : s.entryAt level id = some ex)
    (hown : ex.own = true) (seen : UInt32) :
    ∃ e, (s.reoriginateOwn level id seen now jitter).dbs = (s.putEntry level id e).dbs ∧
      e.AtLeast now seen true := by
  unfold reoriginateOwn
  simp only [hex]
  split
  · exact exhaustSeq_above s level id now seen
  rename_i hmax
  obtain ⟨⟨raw, lsp⟩, hser⟩ := serializeLSP_ok_congr (p := ex.lsp)
    (q := { ex.lsp with sequenceNumber := seen + 1, remainingTime := maxAgeSeconds }) rfl rfl rfl
    (hs.serializes level id ex hex hown)
  simp only [hser]
  refine ⟨_, rfl, .inl ?_⟩
  have hseq : lsp.sequenceNumber = seen + 1 := sequenceNumber_serialized hser
  rw [ownLive, hseq]
  exact lt_succ_of_ne_max hmax

/-- Expiring an entry keeps its sequence number. -/
theorem expirePurge_above (s : IsisServer) (level : Level) (id : LSPID) (ex : LspEntry)
    (now : Int) :
    ∃ e, (s.expirePurge level id ex now).dbs = (s.putEntry level id e).dbs ∧
      e.AtLeast now ex.lsp.sequenceNumber true := by
  obtain ⟨raw, lsp, hser⟩ := s.makePurge_ok level id ex.lsp.sequenceNumber
  unfold expirePurge
  simp only [hser]
  refine ⟨_, rfl, atLeast_of_dead ?_ (dead_of_purgedAt rfl)⟩
  exact UInt32.le_of_eq (sequenceNumber_serialized hser).symm

theorem receivedEntry_atLeast (raw : Bytes) (lsp : LSP) (now : Int) :
    (receivedEntry raw lsp now).AtLeast now lsp.sequenceNumber (lsp.remainingTime == 0) := by
  refine .inr ⟨rfl, fun hrem => ?_⟩
  have hpurge : lsp.remainingTime = 0 := by simpa using hrem
  exact dead_of_purgedAt (if_pos hpurge)

end Helpers

/-! ## One received LSP -/

/-- What a received LSP may do to the database. -/
structure UpdateMonotone (s s' : IsisServer) (raw : Bytes) (lsp : LSP) (now : Int) : Prop where
  /-- Only the entry under the received ID at the received level changes. -/
  frame : ∀ l i, ¬ (l = lsp.level ∧ i = lsp.lspID) → s'.entryAt l i = s.entryAt l i
  /-- A database at its limit does not grow. -/
  bounded : s.AtEntryLimit lsp.level → ∀ db, s.dbs lsp.level = some db →
    ∃ db', s'.dbs lsp.level = some db' ∧ db'.entries.length ≤ db.entries.length
  /-- An entry stays, and no older one takes its place. -/
  notOlder : ∀ ex, s.entryAt lsp.level lsp.lspID = some ex →
    ∃ e, s'.entryAt lsp.level lsp.lspID = some e ∧ e.AtLeast now ex.lsp.sequenceNumber (ex.dead now)
  /-- Unless the LSP was dropped, the entry is at least as new as it. -/
  received : (lsp.remainingTime ≠ 0 → lspChecksumValidRaw raw = true) →
    (s.entryAt lsp.level lsp.lspID = none → lsp.remainingTime ≠ 0 ∧ ¬ s.AtEntryLimit lsp.level) →
    ∃ e, s'.entryAt lsp.level lsp.lspID = some e ∧
      e.AtLeast now lsp.sequenceNumber (lsp.remainingTime == 0)


section Received

variable {s s' : IsisServer} {cn : String} {c : Circuit} {raw : Bytes} {lsp : LSP}
  {now jitter : Int}

/-- The entry under the received ID after an outcome: the one before, with the reason why, or one at
least as new as the received copy and as the one before. -/
inductive EntryAfter (s s' : IsisServer) (lsp : LSP) (now : Int) : Prop where
  | kept (heq : s'.dbs = s.dbs) (hwhy : (∃ ex, s.entryAt lsp.level lsp.lspID = some ex ∧
          newer lsp.sequenceNumber lsp.remainingTime (some ex) now = false) ∨
        (s.entryAt lsp.level lsp.lspID = none ∧ (lsp.remainingTime = 0 ∨ s.AtEntryLimit lsp.level)))
  | replaced (e : LspEntry) (heq : s'.dbs = (s.putEntry lsp.level lsp.lspID e).dbs)
      (hroom : s.entryAt lsp.level lsp.lspID = none → ¬ s.AtEntryLimit lsp.level)
      (hlsp : e.AtLeast now lsp.sequenceNumber (lsp.remainingTime == 0))
      (hex : ∀ ex, s.entryAt lsp.level lsp.lspID = some ex →
        e.AtLeast now ex.lsp.sequenceNumber (ex.dead now))

/-- A copy at the received sequence number that the order puts above every other. -/
theorem EntryAfter.of_above {ex e : LspEntry} (hentry : s.entryAt lsp.level lsp.lspID = some ex)
    (hle : ex.lsp.sequenceNumber ≤ lsp.sequenceNumber)
    (heq : s'.dbs = (s.putEntry lsp.level lsp.lspID e).dbs)
    (h : e.AtLeast now lsp.sequenceNumber true) : EntryAfter s s' lsp now := by
  refine .replaced e heq (fun hnone => ?_) h.of_true fun ex' hex' => ?_
  · rw [hentry] at hnone
    cases hnone
  · obtain rfl := Option.some.inj (hentry.symm.trans hex')
    rcases UInt32.lt_or_eq_of_le hle with hlt | hsame
    · rcases h with habove | ⟨hseq, -⟩
      · exact .inl (UInt32.lt_trans hlt habove)
      · exact .inl (hseq ▸ hlt)
    · rw [hsame]
      exact h.of_true

/-- **Every outcome respects the order.** -/
theorem entryAfter_of_outcome (hs : EntriesAgree s)
    (h : IsisServer.LspOutcome s c raw lsp now jitter s') : EntryAfter s s' lsp now := by
  cases h with
  | ignored hwhy => exact .kept rfl hwhy
  | sendOurs ex hex hnewer _ => exact .kept rfl (.inl ⟨ex, hex, hnewer⟩)
  | acknowledge ex hex hnewer _ _ => exact .kept rfl (.inl ⟨ex, hex, hnewer⟩)
  | unknownPurge hex hrem _ => exact .kept rfl (.inr ⟨hex, .inl hrem⟩)
  | conflict ex hex hseq _ _ _ _ =>
    obtain ⟨e, hdbs, habove⟩ := expirePurge_above s lsp.level lsp.lspID ex now
    rw [← hseq] at habove
    exact .of_above hex (UInt32.le_of_eq hseq.symm) hdbs habove
  | conflictOwn ex hex hseq _ _ _ hown =>
    obtain ⟨e, hdbs, habove⟩ :=
      @reoriginateOwn_above s _ _ now jitter ex hs hex hown lsp.sequenceNumber
    exact .of_above hex (UInt32.le_of_eq hseq.symm) hdbs habove
  | reclaim ex hex hnewer _ _ hown _ =>
    obtain ⟨e, hdbs, habove⟩ :=
      @reoriginateOwn_above s _ _ now jitter ex hs hex hown lsp.sequenceNumber
    refine .of_above hex ?_ hdbs habove
    rcases newer_some_iff.mp hnewer with hlt | ⟨heq, -, -⟩
    · exact UInt32.le_of_lt hlt
    · exact UInt32.le_of_eq heq.symm
  | stranger hnewer _ hrem hroom =>
    obtain ⟨e, hdbs, habove⟩ := expirePurge_above
      (s.putEntry lsp.level lsp.lspID ⟨lsp, [], 0, 0, false, none, 0⟩) lsp.level lsp.lspID
      ⟨lsp, [], 0, 0, false, none, 0⟩ now
    rw [putEntry_putEntry] at hdbs
    have hlsp : e.AtLeast now lsp.sequenceNumber (lsp.remainingTime == 0) := habove.of_true
    refine .replaced e hdbs hroom hlsp fun ex hex => hlsp.of_newer ?_
    rw [← hex]
    exact hnewer
  | install hnewer _ hknown =>
    have hlsp := receivedEntry_atLeast raw lsp now
    refine .replaced _ (dbs_installLSP s c raw lsp now) (fun hnone => (hknown hnone).2) hlsp
      fun ex hex => hlsp.of_newer ?_
    rw [← hex]
    exact hnewer

/-- Replacing an entry does not grow the database. -/
theorem length_insert_of_lookup {db : LSDB} {id : LSPID} {ex e : LspEntry}
    (h : db.lookup id = some ex) : (db.insert id e).entries.length = db.entries.length := by
  have hmem : id ∈ db.keys := AList.mem_keys.mp (AList.lookup_isSome.mp (by rw [h]; rfl))
  have hkeys : (db.insert id e).keys.length = db.keys.length := by
    rw [AList.keys_insert, List.length_cons, List.length_erase_of_mem hmem]
    have := List.length_pos_of_mem hmem
    omega
  simpa [AList.keys, List.keys] using hkeys

theorem EntryAfter.bounded (h : EntryAfter s s' lsp now) (hfull : s.AtEntryLimit lsp.level)
    {db : LSDB} (hdb : s.dbs lsp.level = some db) :
    ∃ db', s'.dbs lsp.level = some db' ∧ db'.entries.length ≤ db.entries.length := by
  cases h with
  | kept heq _ => exact ⟨db, by rw [heq]; exact hdb, Nat.le_refl _⟩
  | replaced e heq hroom _ _ =>
    cases hex : s.entryAt lsp.level lsp.lspID with
    | none => exact absurd hfull (hroom hex)
    | some ex =>
      have hlookup : db.lookup lsp.lspID = some ex := by
        simpa [entryAt, hdb] using hex
      refine ⟨db.insert lsp.lspID e, ?_, Nat.le_of_eq (length_insert_of_lookup hlookup)⟩
      rw [heq]
      simp [putEntry, onLevel, hdb]

theorem EntryAfter.updateMonotone (hdb : (s.dbs lsp.level).isSome = true)
    (h : EntryAfter s s' lsp now) : UpdateMonotone s s' raw lsp now := by
  have hread {l : Level} {i : LSPID} {s₁ : IsisServer} (heq : s'.dbs = s₁.dbs) :
      s'.entryAt l i = s₁.entryAt l i := by
    unfold entryAt
    rw [heq]
  refine ⟨fun l i hne => ?_, fun hfull db hdb => h.bounded hfull hdb, fun ex hex => ?_,
    fun _ hknown => ?_⟩
  · cases h with
    | kept heq _ => exact hread heq
    | replaced e heq _ _ _ =>
      rw [hread heq, entryAt_putEntry, if_neg fun hc => hne ⟨hc.1, hc.2.1⟩]
  · cases h with
    | kept heq _ => exact ⟨ex, by rw [hread heq, hex], .refl ex now⟩
    | replaced e heq _ _ habove =>
      exact ⟨e, by rw [hread heq, entryAt_putEntry, if_pos ⟨rfl, rfl, hdb⟩], habove ex hex⟩
  · cases h with
    | kept heq hwhy =>
      rcases hwhy with ⟨ex, hex, hnewer⟩ | ⟨hnone, hdrop⟩
      · exact ⟨ex, by rw [hread heq, hex], atLeast_of_not_newer hnewer⟩
      · obtain ⟨hlive, hroom⟩ := hknown hnone
        exact (hdrop.elim hlive hroom).elim
    | replaced e heq _ hlsp _ =>
      exact ⟨e, by rw [hread heq, entryAt_putEntry, if_pos ⟨rfl, rfl, hdb⟩], hlsp⟩

/-- **The update process is monotone**: in every reachable state, whatever LSP arrives on a circuit
at a level with a database. -/
theorem update_monotone {o : Options} {t : Int} (h : Reachable o (t, s))
    (hc : s.circuitNamed cn = some c) (hdb : (s.dbs lsp.level).isSome = true) (raw : Bytes)
    (now jitter : Int) : UpdateMonotone s (s.processLSP cn raw lsp now jitter) raw lsp now := by
  by_cases hvalid : lsp.remainingTime ≠ 0 → lspChecksumValidRaw raw = true
  · exact (entryAfter_of_outcome (entries_agree h)
      (IsisServer.processLSP_outcome_of_valid hc hdb hvalid)).updateMonotone hdb
  -- a bad checksum: nothing happens
  have hsame : s.processLSP cn raw lsp now jitter = s := by
    rcases s.processLSP_outcome cn raw lsp now jitter with heq | ⟨_, -, -, hok, -⟩
    · exact heq
    · exact absurd hok hvalid
  rw [hsame]
  exact ⟨fun _ _ _ => rfl, fun _ db hdb => ⟨db, hdb, Nat.le_refl _⟩,
    fun ex hex => ⟨ex, hex, .refl ex now⟩, fun hok => absurd hok hvalid⟩

/-- Our own LSP comes back: the entry is at least as new as it, and nothing else changed. -/
theorem update_monotone_echo :
    Reachable (oneCircuit []) (0, firstLSP.exec 0 (fresh [])) ∧
      ((firstLSP.exec 0 (fresh [])).circuitNamed "eth0").isSome = true ∧
      ((firstLSP.exec 0 (fresh [])).dbs plainEntry.lsp.level).isSome = true ∧
      UpdateMonotone (firstLSP.exec 0 (fresh []))
        ((firstLSP.exec 0 (fresh [])).processLSP "eth0" plainEntry.raw plainEntry.lsp 0 0)
        plainEntry.raw plainEntry.lsp 0 := by
  have hreach : Reachable (oneCircuit []) (0, firstLSP.exec 0 (fresh [])) :=
    ReachableVia.first (newIsisServer_oneCircuit []) 0 firstLSP trivial
  have hsome : ((firstLSP.exec 0 (fresh [])).circuitNamed "eth0").isSome = true := by decide
  have hdb : ((firstLSP.exec 0 (fresh [])).dbs plainEntry.lsp.level).isSome = true := by decide
  obtain ⟨c, hc⟩ := Option.isSome_iff_exists.mp hsome
  exact ⟨hreach, hsome, hdb, update_monotone hreach hc hdb plainEntry.raw 0 0⟩

end Received

end Goisis.Server
