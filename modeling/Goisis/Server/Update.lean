import Goisis.Server.State

/-!
# The update process: originating, purging, ageing and receiving LSPs

Model of `pkg/server/lifetime.go`, the originating half of `pkg/server/origination.go` and
`processLSP` / `handleOwnSystemID` / `reoriginateOwn` of `pkg/server/flooding.go`. Every function
takes the state and returns the new one; errors the source only logs leave the state as it was.

The random draw of `refreshDeadline` is an argument (`jitter`), and what the adjacency argument of
`processLSP` is read for drives a metric only, so it is left out. A function that ranges over a
database takes the order of the range as an argument.

* `processLSP_outcome` — the one case analysis of `processLSP`: what a received LSP can do to the
  server, each outcome with the tests that lead to it. Every invariant of the update process is
  proved from it.
-/

namespace Goisis.Server

open Lib Packet

/-- `refreshDeadline(now)`, with the random draw as an argument. -/
def refreshDeadline (now jitter : Int) : Int := now + (refreshSeconds * second - jitter)

namespace IsisServer

/-! ## Purging -/

/-- A purge of our own, as `purgeOwn` and `exhaustSeq` store it. -/
def ownPurge (lsp : LSP) (raw : Bytes) (now : Int) : LspEntry where
  lsp := lsp
  raw := raw
  inserted := now
  lifetime := 0
  own := true
  purgedAt := some now
  refreshAt := 0

variable (s : IsisServer)

/-- The first half of `exhaustSeq`: the ID is held down from now on. -/
def holdDown (level : Level) (id : LSPID) (now : Int) : IsisServer :=
  { s with seqWrapUntil := s.seqWrapUntil.insert (level, id) (now + seqWrapHold) }

/-- `exhaustSeq(level, id, now)`. -/
def exhaustSeq (level : Level) (id : LSPID) (now : Int) : IsisServer :=
  let s := s.holdDown level id now
  match s.makePurge level id maxLSPSeq with
  | .error _ => s
  | .ok (raw, lsp) => s.storeAndFlood level id (ownPurge lsp raw now) now

/-- The purge of `purgeOwn` at a chosen sequence number. -/
def purgeOwnAt (level : Level) (id : LSPID) (seq : UInt32) (now : Int) : IsisServer :=
  match s.makePurge level id seq with
  | .error _ => s
  | .ok (raw, lsp) => s.storeAndFlood level id (ownPurge lsp raw now) now

/-- `purgeOwn(level, id, now)`. -/
def purgeOwn (level : Level) (id : LSPID) (now : Int) : IsisServer :=
  match s.entryAt level id with
  | none => s.purgeOwnAt level id 1 now
  | some ex =>
    if ex.lsp.sequenceNumber = maxLSPSeq then s.exhaustSeq level id now
    else s.purgeOwnAt level id (ex.lsp.sequenceNumber + 1) now

/-- `expirePurge(level, id, e, now)`: the entry is rewritten in place, so its `own` flag and refresh
deadline stay. -/
def expirePurge (level : Level) (id : LSPID) (e : LspEntry) (now : Int) : IsisServer :=
  match s.makePurge level id e.lsp.sequenceNumber with
  | .error _ => s
  | .ok (raw, lsp) =>
    s.storeAndFlood level id
      { e with lsp := lsp, raw := raw, purgedAt := some now, lifetime := 0, inserted := now } now

/-! ## Originating -/

/-- A live LSP of our own, as `originate` and `reoriginateOwn` store it. -/
def ownLive (lsp : LSP) (raw : Bytes) (now jitter : Int) : LspEntry where
  lsp := lsp
  raw := raw
  inserted := now
  lifetime := maxAgeSeconds
  own := true
  purgedAt := none
  refreshAt := refreshDeadline now jitter

/-- `reoriginateOwn(level, id, seenSeq, now)`. -/
def reoriginateOwn (level : Level) (id : LSPID) (seenSeq : UInt32) (now jitter : Int) :
    IsisServer :=
  match s.entryAt level id with
  | none => s
  | some ex =>
    if seenSeq = maxLSPSeq then s.exhaustSeq level id now
    else
      match s.serializeLSP
          { ex.lsp with sequenceNumber := seenSeq + 1, remainingTime := maxAgeSeconds } with
      | .error _ => s
      | .ok (raw, lsp) => s.storeAndFlood level id (ownLive lsp raw now jitter) now

/-- The TLVs `originate` puts in an LSP: the given ones, and the authentication placeholder when the
level is keyed. -/
def keyedTLVs (level : Level) (tlvs : List TLV) : List TLV :=
  if (s.authKey level).on then tlvs ++ [authTLVPlaceholder (s.authKey level)] else tlvs

/-- The overload bit of an LSP originated now: fragment 0 of our node LSP only. -/
def overloadBit (id : LSPID) (now : Int) : Bool :=
  id.isNodeLSP && id.fragmentID == 0 && s.overloaded now

/-- Whether an ID is held down after a sequence number exhaustion. -/
def heldDown (level : Level) (id : LSPID) (now : Int) : Bool :=
  match s.seqWrapUntil.lookup (level, id) with
  | none => false
  | some deadline => now < deadline

/-- The content-unchanged test of `originate`. -/
def unchanged (ex : Option LspEntry) (body : Bytes) (overload att force : Bool) : Bool :=
  match ex with
  | none => false
  | some ex =>
    ex.own && ex.purgedAt.isNone && !force && ex.lsp.overload == overload &&
      ex.lsp.attDefault == att && match serializeTLVs ex.lsp.tlvs with
        | .error _ => false
        | .ok exBody => body == exBody

/-- The LSP `originate` builds. -/
def ownLSP (level : Level) (id : LSPID) (seq : UInt32) (tlvs : List TLV) (att : Bool) (now : Int) :
    LSP where
  level := level
  remainingTime := maxAgeSeconds
  lspID := id
  sequenceNumber := seq
  attDefault := att
  overload := s.overloadBit id now
  isType := s.isType
  tlvs := s.keyedTLVs level tlvs

/-- The end of `originate`: serialize at a chosen sequence number, store if it fits, flood. -/
def originateAt (level : Level) (id : LSPID) (seq : UInt32) (tlvs : List TLV) (att : Bool)
    (now jitter : Int) : IsisServer :=
  match s.serializeLSP (s.ownLSP level id seq tlvs att now) with
  | .error _ => s
  | .ok (raw, lsp) =>
    if raw.length > s.lspBufferSize then s
    else s.storeAndFlood level id (ownLive lsp raw now jitter) now

/-- `originate(level, id, tlvs, att, forceRefresh, now)`. -/
def originate (level : Level) (id : LSPID) (tlvs : List TLV) (att force : Bool) (now jitter : Int) :
    IsisServer :=
  if s.heldDown level id now then s
  else
    match serializeTLVs (s.keyedTLVs level tlvs) with
    | .error _ => s
    | .ok body =>
      if unchanged (s.entryAt level id) body (s.overloadBit id now) att force then s
      else
        match s.entryAt level id with
        | none => s.originateAt level id 1 tlvs att now jitter
        | some ex =>
          if ex.lsp.sequenceNumber = maxLSPSeq then s.exhaustSeq level id now
          else s.originateAt level id (ex.lsp.sequenceNumber + 1) tlvs att now jitter

/-! ## Ageing -/

/-- One entry of `ageLSPs(now)`: own LSPs past their refresh deadline, and own LSPs that ran out,
are left to `refreshOwnLSPs`. -/
def ageEntry (level : Level) (id : LSPID) (now : Int) : IsisServer :=
  match s.entryAt level id with
  | none => s
  | some e =>
    match e.purgedAt with
    | some t =>
      if now - t ≥ zeroAgeSeconds * second then (s.deleteEntry level id).markDirty else s
    | none =>
      if e.own ∧ e.refreshAt ≤ now then s
      else if e.remaining now = 0 then
        if e.own then s else s.expirePurge level id e now
      else s

/-! ## Receiving -/

/-- The arms of `processLSP` for a received copy that is not newer than the stored one. -/
def keepStored (c : Circuit) (lsp : LSP) (ex : LspEntry) (now jitter : Int) : IsisServer :=
  let level := lsp.level
  let id := lsp.lspID
  if lsp.sequenceNumber < ex.lsp.sequenceNumber then
    s.onCircuit c.cfg.name fun c => (c.setSRM level id now).clearSSN level id
  else if lsp.sequenceNumber = ex.lsp.sequenceNumber ∧ ex.remaining now = 0 ∧
      lsp.remainingTime ≠ 0 then
    s.onCircuit c.cfg.name fun c => (c.setSRM level id now).clearSSN level id
  else if lsp.sequenceNumber = ex.lsp.sequenceNumber ∧ lsp.remainingTime ≠ 0 ∧
      ex.remaining now ≠ 0 ∧ lsp.checksum ≠ ex.lsp.checksum then
    if !ex.own then s.expirePurge level id ex now
    else s.reoriginateOwn level id lsp.sequenceNumber now jitter
  else if c.cfg.p2p then s.onCircuit c.cfg.name (·.setSSN level id)
  else s

/-- The first case of `handleOwnSystemID`: an LSP we are currently originating. -/
def currentlyOriginates (level : Level) (id : LSPID) (ex : Option LspEntry) : Bool :=
  s.ownsLSP level id && match ex with
    | none => false
    | some ex => ex.own && ex.purgedAt.isNone

/-- `handleOwnSystemID(c, lsp, ex, now)`; `none` when the LSP is not consumed. The entry a
stranger's LSP about us is purged through holds nothing but the received header. -/
def handleOwnSystemID (lsp : LSP) (ex : Option LspEntry) (now jitter : Int) : Option IsisServer :=
  let level := lsp.level
  let id := lsp.lspID
  if id.nodeID.systemID ≠ s.systemID then none
  else if s.currentlyOriginates level id ex then
    some (s.reoriginateOwn level id lsp.sequenceNumber now jitter)
  else if lsp.remainingTime = 0 then none
  else
    let e : LspEntry := ⟨lsp, [], 0, 0, false, none, 0⟩
    some ((s.putEntry level id e).expirePurge level id e now)

/-- The entry the install path of `processLSP` stores. -/
def receivedEntry (raw : Bytes) (lsp : LSP) (now : Int) : LspEntry where
  lsp := lsp
  raw := raw
  inserted := now
  lifetime := receivedLifetime lsp.remainingTime
  own := false
  purgedAt := if lsp.remainingTime = 0 then some now else none
  refreshAt := 0

/-- The arrival circuit of an installed LSP: SRM is cleared and, on p2p, the LSP acknowledged. -/
def arrival (level : Level) (id : LSPID) (c : Circuit) : Circuit :=
  if c.cfg.p2p then (c.clearSRM level id).setSSN level id else c.clearSRM level id

/-- The install path of `processLSP`: store, and flood to the other circuits. -/
def installLSP (c : Circuit) (raw : Bytes) (lsp : LSP) (now : Int) : IsisServer :=
  let level := lsp.level
  let id := lsp.lspID
  let s := (s.putEntry level id (receivedEntry raw lsp now)).markDirty
  let s :=
    if id.fragmentID = 0 ∧ id.isNodeLSP ∧ (s.findAdjacency id.nodeID.systemID).isSome then
      s.requestLSPRegen
    else s
  let s := s.floodLSP level id (some c.cfg.name) now
  s.onCircuit c.cfg.name (arrival level id)

/-- `processLSP(c, raw, lsp, adj, now)`. -/
def processLSP (cn : String) (raw : Bytes) (lsp : LSP) (now jitter : Int) : IsisServer :=
  match s.circuitNamed cn, s.dbs lsp.level with
  | some c, some db =>
    if lsp.remainingTime ≠ 0 ∧ !lspChecksumValidRaw raw then s
    else
      match db.lookup lsp.lspID with
      | some ex =>
        if !newer lsp.sequenceNumber lsp.remainingTime (some ex) now then
          s.keepStored c lsp ex now jitter
        else
          match s.handleOwnSystemID lsp (some ex) now jitter with
          | some s => s
          | none => s.installLSP c raw lsp now
      | none =>
        if lsp.remainingTime = 0 then
          -- a purge of an LSP we do not hold is acknowledged on p2p and never stored
          if c.cfg.p2p then
            s.onCircuit cn (·.setSSNAck lsp.level ⟨0, lsp.lspID, lsp.sequenceNumber, lsp.checksum⟩)
          else s
        else if s.lsdbEntryLimit > 0 ∧ db.entries.length ≥ s.lsdbEntryLimit then s
        else
          match s.handleOwnSystemID lsp none now jitter with
          | some s => s
          | none => s.installLSP c raw lsp now
  | _, _ => s

/-! ## The outcomes of a received LSP -/

/-- The database of the level is at its entry limit. -/
def AtEntryLimit (level : Level) : Prop :=
  0 < s.lsdbEntryLimit ∧ ∃ db, s.dbs level = some db ∧ s.lsdbEntryLimit ≤ db.entries.length

/-- What `processLSP` can do once the LSP passed the level and checksum tests. -/
inductive LspOutcome (s : IsisServer) (c : Circuit) (raw : Bytes) (lsp : LSP) (now jitter : Int) :
    IsisServer → Prop where
  /-- An equal copy on a LAN, a purge of an LSP we do not hold on a LAN, or an LSP past the entry
  limit: nothing happens. -/
  | ignored (hwhy : (∃ ex, s.entryAt lsp.level lsp.lspID = some ex ∧
        newer lsp.sequenceNumber lsp.remainingTime (some ex) now = false) ∨
      (s.entryAt lsp.level lsp.lspID = none ∧ (lsp.remainingTime = 0 ∨ s.AtEntryLimit lsp.level))) :
      LspOutcome s c raw lsp now jitter s
  /-- We hold a newer copy, or a purge at this sequence number: send ours. -/
  | sendOurs (ex : LspEntry) (hex : s.entryAt lsp.level lsp.lspID = some ex)
      (hnewer : newer lsp.sequenceNumber lsp.remainingTime (some ex) now = false)
      (hold : lsp.sequenceNumber < ex.lsp.sequenceNumber ∨
        (lsp.sequenceNumber = ex.lsp.sequenceNumber ∧ ex.remaining now = 0 ∧
          lsp.remainingTime ≠ 0)) :
      LspOutcome s c raw lsp now jitter (s.onCircuit c.cfg.name fun c =>
          (c.setSRM lsp.level lsp.lspID now).clearSSN lsp.level lsp.lspID)
  /-- An equal copy on p2p: acknowledge it. -/
  | acknowledge (ex : LspEntry) (hex : s.entryAt lsp.level lsp.lspID = some ex)
      (hnewer : newer lsp.sequenceNumber lsp.remainingTime (some ex) now = false)
      (hp2p : c.cfg.p2p = true) (hseq : lsp.sequenceNumber = ex.lsp.sequenceNumber) :
      LspOutcome s c raw lsp now jitter (s.onCircuit c.cfg.name (·.setSSN lsp.level lsp.lspID))
  /-- A purge of an LSP we do not hold: acknowledge its header on p2p. -/
  | unknownPurge (hex : s.entryAt lsp.level lsp.lspID = none) (hrem : lsp.remainingTime = 0)
      (hp2p : c.cfg.p2p = true) :
      LspOutcome s c raw lsp now jitter (s.onCircuit c.cfg.name
          (·.setSSNAck lsp.level ⟨0, lsp.lspID, lsp.sequenceNumber, lsp.checksum⟩))
  /-- Same sequence number, different content, not ours: purge the stored copy. -/
  | conflict (ex : LspEntry) (hex : s.entryAt lsp.level lsp.lspID = some ex)
      (hseq : lsp.sequenceNumber = ex.lsp.sequenceNumber) (hrem : lsp.remainingTime ≠ 0)
      (hlive : ex.remaining now ≠ 0) (hsum : lsp.checksum ≠ ex.lsp.checksum)
      (hown : ex.own = false) :
      LspOutcome s c raw lsp now jitter (s.expirePurge lsp.level lsp.lspID ex now)
  /-- Same sequence number, different content, ours: originate above it. -/
  | conflictOwn (ex : LspEntry) (hex : s.entryAt lsp.level lsp.lspID = some ex)
      (hseq : lsp.sequenceNumber = ex.lsp.sequenceNumber) (hrem : lsp.remainingTime ≠ 0)
      (hlive : ex.remaining now ≠ 0) (hsum : lsp.checksum ≠ ex.lsp.checksum)
      (hown : ex.own = true) :
      LspOutcome s c raw lsp now jitter
        (s.reoriginateOwn lsp.level lsp.lspID lsp.sequenceNumber now jitter)
  /-- Someone advanced or purged an LSP we are originating: reclaim it. -/
  | reclaim (ex : LspEntry) (hex : s.entryAt lsp.level lsp.lspID = some ex)
      (hnewer : newer lsp.sequenceNumber lsp.remainingTime (some ex) now = true)
      (hsys : lsp.lspID.nodeID.systemID = s.systemID)
      (howns : s.ownsLSP lsp.level lsp.lspID = true) (hown : ex.own = true)
      (hpurged : ex.purgedAt = none) :
      LspOutcome s c raw lsp now jitter
        (s.reoriginateOwn lsp.level lsp.lspID lsp.sequenceNumber now jitter)
  /-- A live LSP under our system ID that we do not originate: purge it. -/
  | stranger
      (hnewer : newer lsp.sequenceNumber lsp.remainingTime (s.entryAt lsp.level lsp.lspID)
        now = true)
      (hsys : lsp.lspID.nodeID.systemID = s.systemID) (hrem : lsp.remainingTime ≠ 0)
      (hroom : s.entryAt lsp.level lsp.lspID = none → ¬ s.AtEntryLimit lsp.level) :
      LspOutcome s c raw lsp now jitter
        ((s.putEntry lsp.level lsp.lspID ⟨lsp, [], 0, 0, false, none, 0⟩).expirePurge
          lsp.level lsp.lspID ⟨lsp, [], 0, 0, false, none, 0⟩ now)
  /-- A newer copy is installed; under our system ID it can only be a purge. -/
  | install
      (hnewer : newer lsp.sequenceNumber lsp.remainingTime (s.entryAt lsp.level lsp.lspID)
        now = true)
      (hsys : lsp.lspID.nodeID.systemID = s.systemID → lsp.remainingTime = 0)
      (hknown : s.entryAt lsp.level lsp.lspID = none →
        lsp.remainingTime ≠ 0 ∧ ¬ s.AtEntryLimit lsp.level) :
      LspOutcome s c raw lsp now jitter (s.installLSP c raw lsp now)

section Outcome

variable {s : IsisServer} {cn : String} {c : Circuit} {raw : Bytes} {lsp : LSP} {now jitter : Int}

theorem keepStored_outcome {ex : LspEntry} (hex : s.entryAt lsp.level lsp.lspID = some ex)
    (hnewer : newer lsp.sequenceNumber lsp.remainingTime (some ex) now = false) :
    LspOutcome s c raw lsp now jitter (s.keepStored c lsp ex now jitter) := by
  unfold keepStored
  split
  · exact .sendOurs ex hex hnewer (.inl ‹_›)
  rename_i hlt
  split
  · exact .sendOurs ex hex hnewer (.inr ‹_›)
  split
  · rename_i hc
    cases hown : ex.own with
    | false => exact .conflict ex hex hc.1 hc.2.1 hc.2.2.1 hc.2.2.2 hown
    | true => exact .conflictOwn ex hex hc.1 hc.2.1 hc.2.2.1 hc.2.2.2 hown
  · split
    · rcases newer_some_eq_false hnewer with h | ⟨h, -⟩
      · exact absurd h hlt
      · exact .acknowledge ex hex hnewer ‹_› h
    · exact .ignored (.inl ⟨ex, hex, hnewer⟩)

theorem handleOwnSystemID_outcome (c : Circuit) (raw : Bytes) (jitter : Int)
    (hnewer : newer lsp.sequenceNumber lsp.remainingTime (s.entryAt lsp.level lsp.lspID) now = true)
    (hknown : s.entryAt lsp.level lsp.lspID = none →
      lsp.remainingTime ≠ 0 ∧ ¬ s.AtEntryLimit lsp.level) :
    LspOutcome s c raw lsp now jitter
      (match s.handleOwnSystemID lsp (s.entryAt lsp.level lsp.lspID) now jitter with
        | some s' => s'
        | none => s.installLSP c raw lsp now) := by
  unfold handleOwnSystemID
  by_cases hsys : lsp.lspID.nodeID.systemID = s.systemID
  · rw [if_neg (not_not.mpr hsys)]
    by_cases hcur : s.currentlyOriginates lsp.level lsp.lspID (s.entryAt lsp.level lsp.lspID) = true
    · rw [if_pos hcur]
      cases hex : s.entryAt lsp.level lsp.lspID with
      | none => simp [currentlyOriginates, hex] at hcur
      | some ex =>
        simp only [currentlyOriginates, hex, Bool.and_eq_true, Option.isNone_iff_eq_none] at hcur
        rw [hex] at hnewer
        exact .reclaim ex hex hnewer hsys hcur.1 hcur.2.1 hcur.2.2
    · rw [if_neg hcur]
      by_cases hrem : lsp.remainingTime = 0
      · rw [if_pos hrem]
        exact .install hnewer (fun _ => hrem) hknown
      · rw [if_neg hrem]
        exact .stranger hnewer hsys hrem fun hnone => (hknown hnone).2
  · rw [if_pos hsys]
    exact .install hnewer (fun h => absurd h hsys) hknown

/-- An LSP on a circuit we have, at a level with a database, that is not dropped for its
checksum. -/
theorem processLSP_outcome_of_valid (hc : s.circuitNamed cn = some c)
    (hdb : (s.dbs lsp.level).isSome = true)
    (hvalid : lsp.remainingTime ≠ 0 → lspChecksumValidRaw raw = true) :
    LspOutcome s c raw lsp now jitter (s.processLSP cn raw lsp now jitter) := by
  have hname := name_of_circuitNamed hc
  obtain ⟨db, hdb⟩ := Option.isSome_iff_exists.mp hdb
  have hentry : s.entryAt lsp.level lsp.lspID = db.lookup lsp.lspID := by
    simp [entryAt, hdb]
  have hsum : ¬ (lsp.remainingTime ≠ 0 ∧ (!lspChecksumValidRaw raw) = true) := by
    rintro ⟨hrem, hbad⟩
    rw [hvalid hrem] at hbad
    cases hbad
  unfold processLSP
  simp only [hc, hdb, if_neg hsum]
  cases hex : db.lookup lsp.lspID with
  | some ex =>
    rw [hex] at hentry
    simp only
    split
    · rename_i hnew
      exact keepStored_outcome hentry (by simpa using hnew)
    rename_i hnew
    have hnewer : newer lsp.sequenceNumber lsp.remainingTime
        (s.entryAt lsp.level lsp.lspID) now = true := by rw [hentry]; simpa using hnew
    have h := handleOwnSystemID_outcome c raw jitter hnewer (fun h => by rw [hentry] at h; cases h)
    rwa [hentry] at h
  | none =>
    rw [hex] at hentry
    simp only
    split
    · rename_i hrem
      split
      · rw [← hname]
        exact .unknownPurge hentry hrem ‹_›
      · exact .ignored (.inr ⟨hentry, .inl hrem⟩)
    · rename_i hrem
      split
      · rename_i hfull
        exact .ignored (.inr ⟨hentry, .inr ⟨hfull.1, db, hdb, hfull.2⟩⟩)
      rename_i hroom
      have hroom' : ¬ s.AtEntryLimit lsp.level := by
        rintro ⟨hpos, db', hdb', hfull⟩
        rw [hdb] at hdb'
        cases hdb'
        exact hroom ⟨hpos, hfull⟩
      have hnewer : newer lsp.sequenceNumber lsp.remainingTime
          (s.entryAt lsp.level lsp.lspID) now = true := by rw [hentry]; rfl
      have h := handleOwnSystemID_outcome c raw jitter hnewer (fun _ => ⟨hrem, hroom'⟩)
      rwa [hentry] at h

/-- **The one case analysis of `processLSP`**: either nothing happens, or the LSP arrived on a
circuit we have, at a level with a database and with a checksum that verifies unless it is a purge,
and one of the outcomes applies. -/
theorem processLSP_outcome (s : IsisServer) (cn : String) (raw : Bytes) (lsp : LSP)
    (now jitter : Int) :
    s.processLSP cn raw lsp now jitter = s ∨
      ∃ c, s.circuitNamed cn = some c ∧ (s.dbs lsp.level).isSome = true ∧
        (lsp.remainingTime ≠ 0 → lspChecksumValidRaw raw = true) ∧
        LspOutcome s c raw lsp now jitter (s.processLSP cn raw lsp now jitter) := by
  by_cases hdrop : lsp.remainingTime ≠ 0 ∧ (!lspChecksumValidRaw raw) = true
  · left
    unfold processLSP
    simp only [if_pos hdrop]
    split <;> rfl
  · have hvalid : lsp.remainingTime ≠ 0 → lspChecksumValidRaw raw = true := fun hrem => by
      by_contra hbad
      exact hdrop ⟨hrem, by simpa using hbad⟩
    cases hc : s.circuitNamed cn with
    | none =>
      left
      unfold processLSP
      simp only [hc]
    | some c =>
      cases hdb : s.dbs lsp.level with
      | none =>
        left
        unfold processLSP
        simp only [hc, hdb]
      | some db =>
        have hsome : (s.dbs lsp.level).isSome = true := by rw [hdb]; rfl
        exact .inr ⟨c, rfl, rfl, hvalid, processLSP_outcome_of_valid hc hsome hvalid⟩

end Outcome

end IsisServer

end Goisis.Server
