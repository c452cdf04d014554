import Goisis.Server.State

/-!
# Transmission and sequence numbers PDUs

Model of the transmitting half of `pkg/server/flooding.go` (`transmitSRM`, `transmitPSNP`,
`sendCSNP`, `syncCircuitLevel`) and of `processCSNP` / `processPSNP`.

A transmission returns the new state and what it hands to the transport: LSPs as the bytes of
`wire(now)`, sequence numbers PDUs as the PDUs `sendSNP` then serializes. Ranging over the flag maps
takes the order as an argument, and so does whether the transport takes each frame.

Only the flags of the one circuit change, so each function is a change of that circuit computed from
the database of its level (`csnpCircuit`, `psnpCircuit`).
-/

namespace Goisis.Server

open Lib Packet List

/-- `minLSPTransmissionInterval`. -/
def minLSPTransmissionInterval : Int := 5 * second

/-- `maxLSPSendPerTick`. -/
def maxLSPSendPerTick : Nat := 100

/-- `syncHoldDown`. -/
def syncHoldDown : Int := 5 * second

/-- `tlvLen(t)`. -/
def tlvLen (t : TLV) : Nat :=
  match t.serialize with
  | .error _ => 1492
  | .ok b => b.length

/-- The entries a sequence numbers PDU lists, over all its LSP Entries TLVs. -/
def listedEntries (tlvs : List TLV) : List LSPEntry :=
  tlvs.flatMap fun
    | .lspEntries es => es
    | _ => []

/-- How `sendCSNP` and `transmitPSNP` describe a copy the database holds. -/
def describe (id : LSPID) (e : LspEntry) (now : Int) : LSPEntry :=
  ⟨e.remaining now, id, e.lsp.sequenceNumber, e.lsp.checksum⟩

/-- `chunkEntries(entries)`, over the number of entries left. -/
def chunkEntries : Nat → List LSPEntry → List (List LSPEntry)
  | _, [] => []
  | 0, _ => []
  | n + 1, es => es.take maxLSPEntriesPerTLV :: chunkEntries n (es.drop maxLSPEntriesPerTLV)

/-- `inRange(id, start, end)`: LSP IDs compare as octet strings. -/
def inRange (id start stop : LSPID) : Bool :=
  start.toBytes ≤ id.toBytes ∧ id.toBytes ≤ stop.toBytes

/-- The octets of an unsigned big-endian number plus one, and whether it overflowed. -/
def incrementOctets : Bytes → Bytes × Bool
  | [] => ([], true)
  | b :: bs =>
    let (bs, carry) := incrementOctets bs
    if carry then ((b + 1) :: bs, b + 1 == 0) else (b :: bs, false)

/-- `nextLSPID(id)`. -/
def nextLSPID (id : LSPID) : LSPID := lspIDAt (incrementOctets id.toBytes).1 0

/-- The LSP IDs `00…00` and `ff…ff`. -/
def firstLSPID : LSPID := lspIDAt (replicate 8 0) 0

def lastLSPID : LSPID := lspIDAt (replicate 8 0xff) 0

/-! ## Transmission -/

/-- The loop of `transmitSRM` over the flagged IDs in the order of the range; `n` frames have been
sent and `takes` says whether the transport takes a frame. -/
def transmitLoop (db : LSPID → Option LspEntry) (level : Level) (now : Int) (takes : LSPID → Bool) :
    List LSPID → Nat → Circuit → Circuit × List Bytes
  | [], _, c => (c, [])
  | id :: ids, n, c =>
    if n ≥ maxLSPSendPerTick then (c, [])
    else
      match c.srmAt level id with
      | none => transmitLoop db level now takes ids n c
      | some t =>
        if now < t then transmitLoop db level now takes ids n c
        else
          match db id with
          | none => transmitLoop db level now takes ids n (c.clearSRM level id)
          | some e =>
            -- an LSP that overruns the circuit can never be sent here: the flag is dropped
            if ((e.wire now).length : Int) > c.cfg.mtu - 3 then
              transmitLoop db level now takes ids n (c.clearSRM level id)
            else if !takes id then transmitLoop db level now takes ids (n + 1) c
            else
              let c :=
                if c.cfg.p2p then c.setSRM level id (now + minLSPTransmissionInterval)
                else c.clearSRM level id
              let (c, sent) := transmitLoop db level now takes ids (n + 1) c
              (c, e.wire now :: sent)

/-- The PSNP entry of an SSN flag: the stored copy, else the header to acknowledge verbatim, else a
request for an LSP we lack (sequence number zero). -/
def psnpEntry (db : LSPID → Option LspEntry) (level : Level) (now : Int) (c : Circuit)
    (id : LSPID) : LSPEntry :=
  match db id with
  | some e => describe id e now
  | none =>
    match c.ssnAckAt level id with
    | some ack => ack
    | none => ⟨0, id, 0, 0⟩

namespace IsisServer

/-- `transmitSRM(c, level, now)`. -/
def transmitSRM (s : IsisServer) (cn : String) (level : Level) (now : Int) (order : List LSPID)
    (takes : LSPID → Bool) : IsisServer × List Bytes :=
  match s.circuitNamed cn with
  | none => (s, [])
  | some c =>
    if !c.floodReady level then (s, [])
    else
      (s.onCircuit cn fun c => (transmitLoop (s.entryAt level) level now takes order 0 c).1,
        (transmitLoop (s.entryAt level) level now takes order 0 c).2)

/-- `transmitPSNP(c, level, now)`, ranging over the flagged IDs in a given order. -/
def transmitPSNP (s : IsisServer) (cn : String) (level : Level) (now : Int) (order : List LSPID) :
    IsisServer × List PSNP :=
  match s.circuitNamed cn with
  | none => (s, [])
  | some c =>
    let flagged := order.filter (c.ssnAt level)
    if flagged.isEmpty ∨ !c.floodReady level then (s, [])
    else
      let entries := flagged.map (psnpEntry (s.entryAt level) level now c)
      (s.onCircuit cn fun c => flagged.foldl (fun c id => c.clearSSN level id) c,
        (chunkEntries entries.length entries).map fun chunk =>
          ⟨level, ⟨s.systemID, 0⟩, [.lspEntries chunk]⟩)

end IsisServer

/-- The packing loop of `sendCSNP`: `tlvs` (of `size` octets) are waiting, `start` begins the
current range and `last` is the last ID packed. -/
def packCSNPs (level : Level) (source : NodeID) (budget : Int) :
    List (List LSPEntry) → List TLV → Int → LSPID → LSPID → List CSNP
  | [], tlvs, _, start, _ => [⟨level, source, start, lastLSPID, tlvs⟩]
  | chunk :: rest, tlvs, size, start, last =>
    let tlv := TLV.lspEntries chunk
    let n : Int := tlvLen tlv
    let last' := ((chunk.getLast?).map (·.lspID)).getD last
    if size + n > budget ∧ tlvs ≠ [] then
      ⟨level, source, start, last, tlvs⟩ ::
        packCSNPs level source budget rest [tlv] n (nextLSPID last) last'
    else packCSNPs level source budget rest (tlvs ++ [tlv]) (size + n) start last'

namespace IsisServer

/-- The whole database of a level in the order of `sendCSNP`: sorted by LSP ID as octet strings. -/
def describeDatabase (s : IsisServer) (level : Level) (now : Int) : List LSPEntry :=
  match s.dbs level with
  | none => []
  | some db =>
    (db.entries.map fun e => describe e.1 e.2 now).insertionSort
      fun a b => a.lspID.toBytes ≤ b.lspID.toBytes

/-- `sendCSNP(c, level, now)`: consecutive ranges that each fit one PDU and together cover every
LSP ID. -/
def sendCSNP (s : IsisServer) (c : Circuit) (level : Level) (now : Int) : List CSNP :=
  let entries := s.describeDatabase level now
  let budget := min 1492 (c.cfg.mtu - 3) - csnpHeaderLen -
    (if (s.authKey level).on then (tlvLen (authTLVPlaceholder (s.authKey level)) : Int) else 0)
  packCSNPs level ⟨s.systemID, c.pseudonodeID⟩ budget (chunkEntries entries.length entries) [] 0
    firstLSPID firstLSPID

/-- `now.Before(c.syncHold[level])`: a resync of the level is being held down. -/
def syncHeld (c : Circuit) (level : Level) (now : Int) : Bool :=
  match c.syncHold level with
  | none => false
  | some t => now < t

/-- `syncCircuitLevel(c, level, now)`: SRM for the whole database and a CSNP describing it, unless
the hold-down defers it. -/
def syncCircuitLevel (s : IsisServer) (cn : String) (level : Level) (now : Int) :
    IsisServer × List CSNP :=
  match s.circuitNamed cn with
  | none => (s, [])
  | some c =>
    if syncHeld c level now then
      (s.onCircuit cn fun c => { c with syncDeferred := Function.update c.syncDeferred level true },
        [])
    else
      let keys := match s.dbs level with
        | none => []
        | some db => db.keys
      let s := s.onCircuit cn fun c =>
        keys.foldl (fun c id => c.setSRM level id now)
          { c with
            syncHold := Function.update c.syncHold level (some (now + syncHoldDown))
            syncDeferred := Function.update c.syncDeferred level false }
      (s, s.sendCSNP c level now)

end IsisServer

/-! ## What a transmitted sequence numbers PDU lists -/

section Listed

variable {level : Level} {source : NodeID} {budget now : Int} {x : LSPEntry} {s : IsisServer}

theorem listedEntries_append (a b : List TLV) :
    listedEntries (a ++ b) = listedEntries a ++ listedEntries b :=
  flatMap_append

theorem listedEntries_lspEntries (es : List LSPEntry) : listedEntries [.lspEntries es] = es := by
  simp [listedEntries]

/-- Chunking loses and invents no entry. -/
theorem mem_of_mem_chunkEntries {n : Nat} {es chunk : List LSPEntry} (h : chunk ∈ chunkEntries n es)
    (hx : x ∈ chunk) : x ∈ es := by
  induction n generalizing es with
  | zero => cases es <;> cases h
  | succ n ih =>
    cases es with
    | nil => cases h
    | cons e es =>
      rcases mem_cons.mp h with rfl | h
      · exact mem_of_mem_take hx
      · exact mem_of_mem_drop (ih h)

/-- Every CSNP of a pack lists entries that were waiting or in a chunk, at the level of the pack. -/
theorem mem_packCSNPs {chunks : List (List LSPEntry)} {tlvs : List TLV} {size : Int}
    {start last : LSPID} {csnp : CSNP}
    (h : csnp ∈ packCSNPs level source budget chunks tlvs size start last) :
    csnp.level = level ∧ ∀ x ∈ listedEntries csnp.tlvs,
      x ∈ listedEntries tlvs ∨ ∃ chunk ∈ chunks, x ∈ chunk := by
  induction chunks generalizing tlvs size start last with
  | nil =>
    rw [packCSNPs, mem_singleton] at h
    subst h
    exact ⟨rfl, fun x hx => .inl hx⟩
  | cons chunk rest ih =>
    simp only [packCSNPs] at h
    split at h
    · rcases mem_cons.mp h with rfl | h
      · exact ⟨rfl, fun x hx => .inl hx⟩
      · obtain ⟨hlevel, hmem⟩ := ih h
        refine ⟨hlevel, fun x hx => ?_⟩
        rcases hmem x hx with hx | ⟨ch, hch, hx⟩
        · rw [listedEntries_lspEntries] at hx
          exact .inr ⟨chunk, mem_cons_self, hx⟩
        · exact .inr ⟨ch, mem_cons_of_mem _ hch, hx⟩
    · obtain ⟨hlevel, hmem⟩ := ih h
      refine ⟨hlevel, fun x hx => ?_⟩
      rcases hmem x hx with hx | ⟨ch, hch, hx⟩
      · rw [listedEntries_append, listedEntries_lspEntries] at hx
        rcases mem_append.mp hx with hx | hx
        · exact .inl hx
        · exact .inr ⟨chunk, mem_cons_self, hx⟩
      · exact .inr ⟨ch, mem_cons_of_mem _ hch, hx⟩

theorem IsisServer.mem_describeDatabase (h : x ∈ s.describeDatabase level now) :
    ∃ e, s.entryAt level x.lspID = some e ∧ x = describe x.lspID e now := by
  unfold describeDatabase at h
  split at h
  · cases h
  rename_i db hdb
  rw [mem_insertionSort, mem_map] at h
  obtain ⟨⟨id, e⟩, hmem, rfl⟩ := h
  refine ⟨e, ?_, rfl⟩
  have hlook : db.lookup id = some e := AList.mem_lookup_iff.mpr hmem
  simp only [entryAt, hdb, Option.bind_some, describe]
  exact hlook

/-- **What `sendCSNP` lists**: each listed entry describes the copy the database holds. -/
theorem IsisServer.sendCSNP_listed {c : Circuit} {csnp : CSNP} (h : csnp ∈ s.sendCSNP c level now) :
    csnp.level = level ∧ ∀ x ∈ listedEntries csnp.tlvs,
      ∃ e, s.entryAt level x.lspID = some e ∧ x = describe x.lspID e now := by
  obtain ⟨hlevel, hmem⟩ := mem_packCSNPs h
  refine ⟨hlevel, fun x hx => ?_⟩
  rcases hmem x hx with hx | ⟨chunk, hchunk, hx⟩
  · cases hx
  · exact mem_describeDatabase (mem_of_mem_chunkEntries hchunk hx)

/-- **What `transmitPSNP` lists**: each listed entry answers one SSN flag of the circuit. -/
theorem IsisServer.transmitPSNP_listed {cn : String} {order : List LSPID} {psnp : PSNP}
    (h : psnp ∈ (s.transmitPSNP cn level now order).2) :
    psnp.level = level ∧ ∃ c, s.circuitNamed cn = some c ∧ ∀ x ∈ listedEntries psnp.tlvs,
      ∃ id, c.ssnAt level id = true ∧ x = psnpEntry (s.entryAt level) level now c id := by
  unfold transmitPSNP at h
  split at h
  · cases h
  rename_i c hc
  simp only at h
  split at h
  · cases h
  obtain ⟨chunk, hchunk, rfl⟩ := mem_map.mp h
  refine ⟨rfl, c, hc, fun x hx => ?_⟩
  rw [listedEntries_lspEntries] at hx
  obtain ⟨id, hid, rfl⟩ := mem_map.mp (mem_of_mem_chunkEntries hchunk hx)
  exact ⟨id, (mem_filter.mp hid).2, rfl⟩

end Listed

/-! ## Reception -/

/-- One listed entry of `processCSNP`. -/
def csnpListed (db : LSPID → Option LspEntry) (level : Level) (now : Int) (c : Circuit)
    (e : LSPEntry) : Circuit :=
  match db e.lspID with
  | none => c.setSSN level e.lspID
  | some loc =>
    if newer e.sequenceNumber e.remainingTime (some loc) now then c.setSSN level e.lspID
    else if loc.lsp.sequenceNumber > e.sequenceNumber then c.setSRM level e.lspID now
    else if loc.lsp.sequenceNumber = e.sequenceNumber ∧ loc.remaining now ≠ 0 ∧
        e.remainingTime ≠ 0 ∧ loc.lsp.checksum ≠ e.checksum then
      c.setSRM level e.lspID now
    else c.clearSRM level e.lspID

/-- The circuit after `processCSNP`, from the database of its level: first every listed entry, then
every ID the database holds in the range that was not listed. -/
def csnpCircuit (db : LSDB) (csnp : CSNP) (now : Int) (c : Circuit) : Circuit :=
  let listed := listedEntries csnp.tlvs
  let c := listed.foldl (csnpListed db.lookup csnp.level now) c
  db.keys.foldl (fun c id =>
    if !(listed.any (·.lspID = id)) && inRange id csnp.startLSP csnp.endLSP then
      c.setSRM csnp.level id now
    else c) c

/-- One listed entry of `processPSNP`: an acknowledgement on p2p, a request on a LAN. -/
def psnpListed (db : LSPID → Option LspEntry) (level : Level) (now : Int) (c : Circuit)
    (e : LSPEntry) : Circuit :=
  match db e.lspID with
  | none => c
  | some loc =>
    if c.cfg.p2p then
      if e.sequenceNumber ≥ loc.lsp.sequenceNumber then c.clearSRM level e.lspID else c
    else if loc.lsp.sequenceNumber > e.sequenceNumber ∨
        (loc.lsp.sequenceNumber = e.sequenceNumber ∧ loc.remaining now ≠ 0 ∧
          e.remainingTime ≠ 0 ∧ loc.lsp.checksum ≠ e.checksum) then
      c.setSRM level e.lspID now
    else c

/-- The circuit after `processPSNP`. -/
def psnpCircuit (db : LSDB) (psnp : PSNP) (now : Int) (c : Circuit) : Circuit :=
  (listedEntries psnp.tlvs).foldl (psnpListed db.lookup psnp.level now) c

namespace IsisServer

/-- `processCSNP(c, csnp, now)`. -/
def processCSNP (s : IsisServer) (cn : String) (csnp : CSNP) (now : Int) : IsisServer :=
  match s.dbs csnp.level with
  | none => s
  | some db => s.onCircuit cn (csnpCircuit db csnp now)

/-- `processPSNP(c, psnp, now)`: on a LAN only the DIS acts on it. -/
def processPSNP (s : IsisServer) (cn : String) (psnp : PSNP) (now : Int) : IsisServer :=
  match s.circuitNamed cn, s.dbs psnp.level with
  | some c, some db =>
    if !c.cfg.p2p && !c.isDIS psnp.level s.systemID then s
    else s.onCircuit cn (psnpCircuit db psnp now)
  | _, _ => s

end IsisServer

/-! ## Configuration is not touched -/

section Config

variable {db : LSPID → Option LspEntry} {level : Level} {now : Int}

theorem cfg_csnpListed (c : Circuit) (e : LSPEntry) :
    (csnpListed db level now c e).cfg = c.cfg := by
  unfold csnpListed
  split
  · rfl
  split
  · rfl
  split
  · rfl
  · split <;> rfl

theorem cfg_psnpListed (c : Circuit) (e : LSPEntry) :
    (psnpListed db level now c e).cfg = c.cfg := by
  unfold psnpListed
  split
  · rfl
  split
  · split <;> rfl
  · split <;> rfl

theorem cfg_transmitLoop (takes : LSPID → Bool) (order : List LSPID) (n : Nat) (c : Circuit) :
    (transmitLoop db level now takes order n c).1.cfg = c.cfg := by
  induction order generalizing n c with
  | nil => rfl
  | cons i order ih =>
    simp only [transmitLoop]
    split
    · rfl
    split
    · exact ih n c
    split
    · exact ih n c
    split
    · rw [ih]
      rfl
    split
    · rw [ih]
      rfl
    split
    · exact ih (n + 1) c
    · simp only [ih]
      split <;> rfl

theorem cfg_foldl {E : Type} {f : Circuit → E → Circuit} (hf : ∀ c e, (f c e).cfg = c.cfg)
    (es : List E) (c : Circuit) : (es.foldl f c).cfg = c.cfg :=
  foldl_keeps hf es c

theorem cfg_csnpCircuit (db : LSDB) (csnp : CSNP) (now : Int) (c : Circuit) :
    (csnpCircuit db csnp now c).cfg = c.cfg := by
  unfold csnpCircuit
  rw [cfg_foldl, cfg_foldl cfg_csnpListed]
  intro c id
  split <;> rfl

theorem cfg_psnpCircuit (db : LSDB) (psnp : PSNP) (now : Int) (c : Circuit) :
    (psnpCircuit db psnp now c).cfg = c.cfg :=
  cfg_foldl cfg_psnpListed _ c

end Config

end Goisis.Server
