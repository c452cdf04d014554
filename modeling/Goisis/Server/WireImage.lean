import Goisis.Server.Run
import Goisis.Server.Snp

/-!
# Entries and their bytes

Every LSDB entry is kept twice: as the decoded `lsp` the update process compares, and as the `raw`
bytes `wire(now)` floods. This module says how far the two agree over whole runs.

The header fields always agree (`entries_agree`). The checksum need not: on a keyed level
`serializeLSP` rewrites the bytes after `Serialize` cached the checksum on the struct. What the
update process does with its own flooded bytes then depends on it.

* `entries_agree` — level, LSP ID and sequence number of every entry are those of its bytes, the
  bytes of a live entry carry a valid checksum, and an LSP of ours can be serialized again;
* `wire_image_of_unkeyed` — in a run that never signs on a keyed level the checksum agrees too, and
  so does every checksum a sequence numbers PDU advertises;
* `echo_inert_iff` — an entry's own bytes coming back change nothing exactly when the cached
  checksum is the one in the bytes.
-/

namespace Goisis.Server

open Lib Packet IsisServer LspEntry ReachableVia

variable {e : LspEntry} {s : IsisServer} {now : Int} {id : LSPID} {level : Level} {o : Options}
  {c : Clocked}

/-! ## The header fields -/

/-- The header of an entry stored under `id` at `level` is the one of its bytes. -/
structure LspEntry.Agrees (e : LspEntry) (level : Level) (id : LSPID) : Prop where
  level : e.lsp.level = level
  lspID : e.lsp.lspID = id
  header : e.lsp.HeaderAgrees e.raw
  /-- A purge may have arrived with any checksum, a live copy may not. -/
  valid : e.purgedAt = none → lspChecksumValidRaw e.raw = true

/-- Every entry this node made comes out of `serializeLSP`, for its own key. -/
theorem SignedEntry.serialized {op : Op} (h : SignedEntry op s now level id e)
    (hs : ∀ ex, s.entryAt level id = some ex → ex.Agrees level id) :
    ∃ p, s.serializeLSP p = .ok (e.raw, e.lsp) ∧ p.level = level ∧ p.lspID = id := by
  cases h with
  | originated _ _ _ _ _ _ _ _ _ _ _ _ _ hser => exact ⟨_, hser, rfl, rfl⟩
  | reclaimed ex _ _ _ _ hex _ _ _ _ hser => exact ⟨_, hser, (hs ex hex).level, (hs ex hex).lspID⟩
  | purged _ _ _ _ _ _ hser => exact ⟨_, hser, rfl, rfl⟩
  | exhausted _ _ _ _ _ hser => exact ⟨_, hser, rfl, rfl⟩
  | expired _ _ _ _ _ hser => exact ⟨_, hser, rfl, rfl⟩
  | stranger _ _ _ _ _ _ hser => exact ⟨_, hser, rfl, rfl⟩

theorem agrees_of_serialized {p : LSP} (hser : s.serializeLSP p = .ok (e.raw, e.lsp))
    (hlevel : p.level = level) (hid : p.lspID = id) : e.Agrees level id := by
  obtain ⟨hagree, hvalid, heq, -⟩ := serializeLSP_fields hser
  exact ⟨by rw [heq]; exact hlevel, by rw [heq]; exact hid, hagree, fun _ => hvalid⟩

theorem agrees_receivedEntry {raw : Bytes} {lsp : LSP} (hdecode : decodePDU raw = .ok (.lsp lsp))
    (hvalid : lsp.remainingTime ≠ 0 → lspChecksumValidRaw raw = true) :
    (receivedEntry raw lsp now).Agrees lsp.level lsp.lspID := by
  obtain ⟨hagree, -, -⟩ := decodePDU_lsp_fields hdecode
  refine ⟨rfl, rfl, hagree, fun hlive => hvalid fun hrem => ?_⟩
  simp [receivedEntry, hrem] at hlive

/-- What holds of every entry of a server, whatever its run. -/
structure EntriesAgree (s : IsisServer) : Prop where
  agrees : ∀ level id e, s.entryAt level id = some e → e.Agrees level id
  /-- An LSP of ours serialized once and so does again. -/
  serializes : ∀ level id e, s.entryAt level id = some e → e.own = true →
    ∃ r, s.serializeLSP e.lsp = .ok r

theorem SignedEntry.serializes {s' : IsisServer} {p : LSP} (hkeys : s'.authKeys = s.authKeys)
    (hser : s.serializeLSP p = .ok (e.raw, e.lsp)) : ∃ r, s'.serializeLSP e.lsp = .ok r := by
  obtain ⟨-, -, heq, -⟩ := serializeLSP_fields hser
  have hlevel : e.lsp.level = p.level := by rw [heq]
  have htlvs : e.lsp.tlvs = p.tlvs := by rw [heq]
  exact serializeLSP_ok_congr hkeys hlevel htlvs ⟨_, hser⟩

/-- One operation keeps every entry in agreement with its bytes. -/
theorem EntriesAgree.exec (h : EntriesAgree s) (op : Op) (now : Int) :
    EntriesAgree (op.exec now s) := by
  have hkeys := (exec_config op s now).2
  constructor
  · intro level id e he
    rcases exec_change op s now level id with heq | hchange
    · exact h.agrees level id e (by rw [← heq]; exact he)
    rw [he] at hchange
    cases hchange with
    | signed _ _ hsigned =>
      obtain ⟨p, hser, hlevel, hid⟩ := hsigned.serialized (h.agrees level id)
      exact agrees_of_serialized hser hlevel hid
    | received raw lsp hdecode hlevel hid hvalid _ _ =>
      subst hlevel hid
      exact agrees_receivedEntry hdecode hvalid
  · intro level id e he hown
    rcases exec_change op s now level id with heq | hchange
    · exact serializeLSP_ok_congr hkeys rfl rfl
        (h.serializes level id e (by rw [← heq]; exact he) hown)
    rw [he] at hchange
    cases hchange with
    | signed _ _ hsigned =>
      obtain ⟨p, hser, -, -⟩ := hsigned.serialized (h.agrees level id)
      exact SignedEntry.serializes hkeys hser
    | received => cases hown

/-- **Entries and bytes agree on the header**: in every reachable state, whatever was received and
whatever keys are configured. -/
theorem entries_agree (h : Reachable o c) : EntriesAgree c.2 := by
  refine h.invariant (I := fun c => EntriesAgree c.2) (fun t s hs => ?_) fun a b ha hab => ?_
  · constructor
    · intro level id e he
      rw [entryAt_newIsisServer hs] at he
      cases he
    · intro level id e he
      rw [entryAt_newIsisServer hs] at he
      cases he
  · obtain ⟨op, -, -, heq⟩ := hab
    rw [heq]
    exact ha.exec op b.1

/-! ## The checksum -/

/-- An entry agrees with its wire image: LSP ID, sequence number and checksum. -/
structure LspEntry.WireImage (e : LspEntry) (id : LSPID) : Prop where
  lspID : e.lsp.lspID = id
  rawID : lspIDAt e.raw 12 = id
  sequenceNumber : u32At e.raw 20 = e.lsp.sequenceNumber
  checksum : u16At e.raw 24 = e.lsp.checksum

/-- The step condition under which checksums stay in agreement: this node serializes no LSP on a
level with a key. -/
def SignsUnkeyed (s : IsisServer) (now : Int) (op : Op) : Prop :=
  ∀ level, op.Signs s now level → (s.authKey level).on = false

/-- The cached checksum of every entry is the one in its bytes. -/
def ChecksumsAgree (s : IsisServer) : Prop :=
  ∀ level id e, s.entryAt level id = some e → u16At e.raw 24 = e.lsp.checksum

theorem ChecksumsAgree.exec {op : Op} (hagree : EntriesAgree s) (h : ChecksumsAgree s)
    (hok : SignsUnkeyed s now op) : ChecksumsAgree (op.exec now s) := by
  intro level id e he
  rcases exec_change op s now level id with heq | hchange
  · exact h level id e (by rw [← heq]; exact he)
  rw [he] at hchange
  cases hchange with
  | signed _ hsigns hsigned =>
    obtain ⟨p, hser, hlevel, -⟩ := hsigned.serialized (hagree.agrees level id)
    obtain ⟨-, -, -, hsum⟩ := serializeLSP_fields hser
    exact hsum (by rw [hlevel]; exact hok level hsigns)
  | received raw lsp hdecode _ _ _ _ _ => exact (decodePDU_lsp_fields hdecode).2.1

theorem checksums_agree (h : ReachableVia SignsUnkeyed o c) : ChecksumsAgree c.2 := by
  -- the header invariant is carried along: a reclaimed LSP is serialized at its entry's level
  have hboth : EntriesAgree c.2 ∧ ChecksumsAgree c.2 := by
    refine h.invariant (I := fun c => EntriesAgree c.2 ∧ ChecksumsAgree c.2) (fun t s hs => ?_)
      fun a b ha hab => ?_
    · refine ⟨entries_agree ⟨t, s, hs, .refl⟩, fun level id e he => ?_⟩
      rw [entryAt_newIsisServer hs] at he
      cases he
    · obtain ⟨op, -, hok, heq⟩ := hab
      rw [heq]
      exact ⟨ha.1.exec op b.1, ha.2.exec ha.1 hok⟩
  exact hboth.2

theorem wireImage_of_agree (hagree : EntriesAgree s) (hsum : ChecksumsAgree s)
    (he : s.entryAt level id = some e) : e.WireImage id := by
  have h := hagree.agrees level id e he
  exact ⟨h.lspID, by rw [h.header.lspID, h.lspID], h.header.sequenceNumber, hsum level id e he⟩

/-- How a sequence numbers PDU would describe a copy by its flooded bytes alone. -/
def describeWire (id : LSPID) (e : LspEntry) (now : Int) : LSPEntry :=
  ⟨e.remaining now, id, u32At (e.wire now) 20, u16At (e.wire now) 24⟩

theorem describe_eq_describeWire (h : e.WireImage id) :
    describe id e now = describeWire id e now := by
  have hseq : u32At (e.wire now) 20 = u32At e.raw 20 :=
    u32At_congr fun _ _ => at8_wire (by omega) (by omega)
  unfold describe describeWire
  rw [hseq, e.u16At_wire_checksum, h.sequenceNumber, h.checksum]

/-- **Without signing on a keyed level every entry is its wire image**, in every state of the run;
and at every instant a CSNP describes each LSP, and a PSNP each LSP the database holds, by the very
sequence number and checksum the flooded bytes carry. A PSNP entry for an LSP the database lacks is
a verbatim acknowledgement or a request. -/
theorem wire_image_of_unkeyed {o : Options} {c : Clocked} (h : ReachableVia SignsUnkeyed o c) :
    (∀ level id e, c.2.entryAt level id = some e → e.WireImage id) ∧
      (∀ now level circuit, ∀ csnp ∈ c.2.sendCSNP circuit level now,
        ∀ x ∈ listedEntries csnp.tlvs, ∃ e, c.2.entryAt level x.lspID = some e ∧
          x = describeWire x.lspID e now) ∧
      ∀ now level cn order, ∀ psnp ∈ (c.2.transmitPSNP cn level now order).2,
        ∀ x ∈ listedEntries psnp.tlvs,
          (∃ e, c.2.entryAt level x.lspID = some e ∧ x = describeWire x.lspID e now) ∨
          ∃ id circuit, c.2.circuitNamed cn = some circuit ∧ circuit.ssnAt level id = true ∧
            c.2.entryAt level id = none ∧
            x = (circuit.ssnAckAt level id).getD ⟨0, id, 0, 0⟩ := by
  have himage : ∀ level id e, c.2.entryAt level id = some e → e.WireImage id :=
    fun level id e he => wireImage_of_agree (entries_agree h.reachable) (checksums_agree h) he
  refine ⟨himage, ?_, ?_⟩
  · intro now level circuit csnp hcsnp x hx
    obtain ⟨-, hlisted⟩ := IsisServer.sendCSNP_listed hcsnp
    obtain ⟨e, he, hxe⟩ := hlisted x hx
    exact ⟨e, he, hxe.trans (describe_eq_describeWire (himage level _ e he))⟩
  · intro now level cn order psnp hpsnp x hx
    obtain ⟨-, circuit, hcircuit, hlisted⟩ := IsisServer.transmitPSNP_listed hpsnp
    obtain ⟨id, hflag, hxe⟩ := hlisted x hx
    unfold psnpEntry at hxe
    cases he : c.2.entryAt level id with
    | some e =>
      rw [he] at hxe
      have hid : x.lspID = id := by rw [hxe]; rfl
      exact .inl ⟨e, by rw [hid, he],
        by rw [hid]; exact hxe.trans (describe_eq_describeWire (himage level id e he))⟩
    | none =>
      rw [he] at hxe
      refine .inr ⟨id, circuit, hcircuit, hflag, he, ?_⟩
      cases hack : circuit.ssnAckAt level id with
      | some ack => rw [hack] at hxe; exact hxe
      | none => rw [hack] at hxe; exact hxe

/-! ### A first origination, with and without a key -/

/-- What the first origination stores under the key `01`: the digest is in the bytes, and with it
another checksum than the one `Serialize` cached. -/
def keyedEntry : LspEntry where
  lsp := { level := .level1, remainingTime := 1200, lspID := firstID, sequenceNumber := 1,
           checksum := 0x1794, isType := 1, tlvs := [.authentication 54 (List.replicate 16 0)] }
  raw := [131, 27, 1, 0, 18, 1, 0, 0, 0, 46, 4, 176, 0, 0, 0, 0, 0, 1, 0, 0, 0, 0, 0, 1,
    0xfc, 0x1c, 1, 10, 17, 54, 74, 70, 20, 157, 170, 97, 232, 44, 247, 11, 18, 82, 248, 51, 63, 92]
  inserted := 0
  lifetime := 1200
  own := true
  purgedAt := none
  refreshAt := 900 * second

theorem entryAt_keyed :
    (firstLSP.exec 0 (fresh [1])).entryAt .level1 firstID = some keyedEntry := by
  decide

theorem signsUnkeyed_plain : SignsUnkeyed (fresh []) 0 firstLSP := by
  intro level _
  cases level <;> rfl

/-- The run without a key meets the condition, and the stored entry is its wire image. -/
theorem wire_image_plain :
    ReachableVia SignsUnkeyed (oneCircuit []) (0, firstLSP.exec 0 (fresh [])) ∧
    plainEntry.WireImage firstID := by
  have h := first (newIsisServer_oneCircuit []) 0 firstLSP signsUnkeyed_plain
  exact ⟨h, (wire_image_of_unkeyed h).1 .level1 firstID plainEntry entryAt_plain⟩

/-- **A keyed origination parts the entry from its bytes**: the flooded LSP carries checksum `fc1c`,
the struct, and so every CSNP, says `1794`. -/
theorem keyed_origination_diverges :
    Reachable (oneCircuit [1]) (0, firstLSP.exec 0 (fresh [1])) ∧
      (firstLSP.exec 0 (fresh [1])).entryAt .level1 firstID = some keyedEntry ∧
      ¬ keyedEntry.WireImage firstID ∧
      u16At (keyedEntry.wire 0) 24 = 0xfc1c ∧
      (((firstLSP.exec 0 (fresh [1])).circuits.flatMap fun c =>
        (firstLSP.exec 0 (fresh [1])).sendCSNP c .level1 0).flatMap fun csnp =>
          listedEntries csnp.tlvs) = [⟨1200, firstID, 1, 0x1794⟩] := by
  refine ⟨first (newIsisServer_oneCircuit [1]) 0 firstLSP trivial, entryAt_keyed,
    fun h => ?_, by decide, by decide⟩
  exact absurd h.checksum (by decide)

/-! ## An entry's own bytes coming back -/

/-- What `DecodePDU` reads from the flooded bytes of an entry. -/
theorem decode_wire {l : LSP} (h : e.Agrees level id) (hd : decodePDU (e.wire now) = .ok (.lsp l)) :
    l.level = level ∧ l.lspID = id ∧ l.sequenceNumber = e.lsp.sequenceNumber ∧
      l.checksum = u16At e.raw 24 ∧ l.remainingTime = e.remaining now := by
  obtain ⟨hl, hsum, hrem⟩ := decodePDU_lsp_fields hd
  have he : e.lsp.HeaderAgrees (e.wire now) := headerAgrees_wire h.header
  have hlen : 12 ≤ e.raw.length := Nat.le_trans (by decide) h.header.length
  have hlevel : l.level = e.lsp.level :=
    LSP.level_eq_of_pduType (by rw [← hl.pduType, ← he.pduType])
  refine ⟨hlevel.trans h.level, ?_, ?_, ?_, ?_⟩
  · rw [← hl.lspID, he.lspID, h.lspID]
  · rw [← hl.sequenceNumber, he.sequenceNumber]
  · rw [← hsum, e.u16At_wire_checksum]
  · rw [← hrem, u16At_wire_remaining hlen]

/-- The bytes of an entry, delivered on circuit `c`, leave the database alone; on a point-to-point
circuit they are acknowledged, on a LAN nothing happens at all. -/
structure EchoInert (s s' : IsisServer) (c : Circuit) (level : Level) (id : LSPID) : Prop where
  entries : ∀ l i, s'.entryAt l i = s.entryAt l i
  p2p : c.cfg.p2p = true → s' = s.onCircuit c.cfg.name (·.setSSN level id)
  lan : c.cfg.p2p = false → s' = s

section Echo

variable {cn : String} {c : Circuit} {l : LSP} {jitter : Int}

/-- The echo of a live entry always takes the path for a copy that is not newer. -/
theorem processLSP_echo (hagree : EntriesAgree s) (he : s.entryAt level id = some e)
    (hlive : e.live now = true) (hc : s.circuitNamed cn = some c)
    (hd : decodePDU (e.wire now) = .ok (.lsp l)) :
    s.processLSP cn (e.wire now) l now jitter = s.keepStored c l e now jitter := by
  have h := hagree.agrees level id e he
  obtain ⟨rfl, rfl, hseq, -, hrem⟩ := decode_wire h hd
  simp only [live, Bool.and_eq_true, Option.isNone_iff_eq_none, bne_iff_ne] at hlive
  have hvalid : lspChecksumValidRaw (e.wire now) = true := by
    rw [e.lspChecksumValidRaw_wire]
    exact h.valid hlive.1
  have hnew : newer l.sequenceNumber l.remainingTime (some e) now = false := by
    rw [hseq, hrem]
    simp [newer]
  cases hdb : s.dbs l.level with
  | none => simp [entryAt, hdb] at he
  | some db =>
    have hlook : db.lookup l.lspID = some e := by simpa [entryAt, hdb] using he
    simp [processLSP, hc, hdb, hvalid, hlook, hnew]

theorem keepStored_same (hseq : l.sequenceNumber = e.lsp.sequenceNumber)
    (hrem : l.remainingTime = e.remaining now) (hsum : l.checksum = e.lsp.checksum) :
    s.keepStored c l e now jitter =
      if c.cfg.p2p then s.onCircuit c.cfg.name (·.setSSN l.level l.lspID) else s := by
  unfold keepStored
  rw [if_neg (by rw [hseq]; exact UInt32.lt_irrefl _), if_neg (fun h => h.2.2 (hrem.trans h.2.1)),
    if_neg (fun h => h.2.2.2 hsum)]

/-- A conflicting copy changes the stored entry, whoever owns it. -/
theorem keepStored_conflict (hagree : EntriesAgree s) (he : s.entryAt l.level l.lspID = some e)
    (hpurged : e.purgedAt = none) (hc : Conflicts l e now) :
    (s.keepStored c l e now jitter).entryAt l.level l.lspID ≠ some e := by
  have hdb := dbs_isSome_of_entryAt he
  obtain ⟨hseq, hrem, hlive, hsum⟩ := hc
  unfold keepStored
  rw [if_neg (by rw [hseq]; exact UInt32.lt_irrefl _), if_neg (fun h => hlive h.2.1),
    if_pos ⟨hseq, hrem, hlive, hsum⟩]
  cases hown : e.own with
  | false =>
    obtain ⟨raw, lsp, hser⟩ := s.makePurge_ok l.level l.lspID e.lsp.sequenceNumber
    simp only [Bool.not_false, if_true, expirePurge, hser, entryAt_storeAndFlood, hdb, and_self]
    intro heq
    have := congrArg purgedAt (Option.some.inj heq)
    rw [hpurged] at this
    cases this
  | true =>
    simp only [Bool.not_true, Bool.false_eq_true, if_false, reoriginateOwn, he]
    by_cases hmax : l.sequenceNumber = maxLSPSeq
    · rw [if_pos hmax]
      obtain ⟨raw, lsp, -, hex⟩ := exhaustSeq_eq s l.level l.lspID now
      rw [hex, entryAt_storeAndFlood, if_pos ⟨rfl, rfl, hdb⟩]
      intro heq
      have := congrArg purgedAt (Option.some.inj heq)
      rw [hpurged] at this
      cases this
    · rw [if_neg hmax]
      -- the LSP serialized when it was stored, and only its sequence number is different now
      obtain ⟨⟨raw, lsp⟩, hser⟩ := serializeLSP_ok_congr (p := e.lsp)
        (q := { e.lsp with sequenceNumber := l.sequenceNumber + 1, remainingTime := maxAgeSeconds })
        rfl rfl rfl (hagree.serializes l.level l.lspID e he hown)
      simp only [hser]
      rw [entryAt_storeAndFlood, if_pos ⟨rfl, rfl, hdb⟩]
      intro heq
      have hlsp : lsp = e.lsp := congrArg LspEntry.lsp (Option.some.inj heq)
      obtain ⟨-, -, hfields, -⟩ := serializeLSP_fields hser
      have hnext : lsp.sequenceNumber = l.sequenceNumber + 1 := by rw [hfields]
      rw [hlsp, ← hseq] at hnext
      have := congrArg UInt32.toNat hnext
      rw [UInt32.toNat_add] at this
      have hlt := l.sequenceNumber.toNat_lt
      simp only [UInt32.toNat_one] at this
      omega

end Echo

/-- **An echo is inert exactly when the cached checksum is the one in the bytes**: in every
reachable state, for every live entry, own or foreign, and every circuit. -/
theorem echo_inert_iff {o : Options} {t now jitter : Int} {s : IsisServer} {level : Level}
    {id : LSPID} {e : LspEntry} {cn : String} {c : Circuit} {l : LSP} (h : Reachable o (t, s))
    (he : s.entryAt level id = some e) (hlive : e.live now = true) (hc : s.circuitNamed cn = some c)
    (hd : decodePDU (e.wire now) = .ok (.lsp l)) :
    EchoInert s (s.processLSP cn (e.wire now) l now jitter) c level id ↔
      u16At e.raw 24 = e.lsp.checksum := by
  have hagree : EntriesAgree s := entries_agree h
  rw [processLSP_echo hagree he hlive hc hd]
  obtain ⟨rfl, rfl, hseq, hsum, hrem⟩ := decode_wire (hagree.agrees level id e he) hd
  simp only [live, Bool.and_eq_true, Option.isNone_iff_eq_none, bne_iff_ne] at hlive
  constructor
  · intro hinert
    by_contra hne
    have hconflicts : Conflicts l e now :=
      ⟨hseq, by rw [hrem]; exact hlive.2, hlive.2, by rw [hsum]; exact hne⟩
    exact keepStored_conflict hagree he hlive.1 hconflicts ((hinert.entries _ _).trans he)
  · intro heq
    rw [keepStored_same hseq hrem (hsum.trans heq)]
    cases hp : c.cfg.p2p with
    | true => exact ⟨fun _ _ => rfl, fun _ => rfl, fun hlan => by simp [hp] at hlan⟩
    | false => exact ⟨fun _ _ => rfl, fun hp2p => by simp [hp] at hp2p, fun _ => rfl⟩

/-- The LSP a neighbour decodes from the bytes of `plainEntry`. -/
def plainEcho : LSP := plainEntry.lsp

/-- The LSP a neighbour decodes from the bytes of `keyedEntry`. -/
def keyedEcho : LSP :=
  { keyedEntry.lsp with
    checksum := 0xfc1c
    tlvs := [.authentication 54 [74, 70, 20, 157, 170, 97, 232, 44, 247, 11, 18, 82, 248, 51,
      63, 92]] }

/-- Without a key the echo of the first LSP is inert. -/
theorem echo_inert_plain : ∃ c, (firstLSP.exec 0 (fresh [])).circuitNamed "eth0" = some c ∧
    EchoInert (firstLSP.exec 0 (fresh [])) ((firstLSP.exec 0 (fresh [])).processLSP "eth0"
      (plainEntry.wire 0) plainEcho 0 0) c .level1 firstID := by
  have hreach : Reachable (oneCircuit []) (0, firstLSP.exec 0 (fresh [])) :=
    first (newIsisServer_oneCircuit []) 0 firstLSP trivial
  obtain ⟨c, hc⟩ : ∃ c, (firstLSP.exec 0 (fresh [])).circuitNamed "eth0" = some c := ⟨_, rfl⟩
  have hd : decodePDU (plainEntry.wire 0) = .ok (.lsp plainEcho) := by decide
  exact ⟨c, hc, (echo_inert_iff hreach entryAt_plain (by decide) hc hd).mpr (by decide)⟩

/-- **A keyed echo is not inert**: the node takes its own flooded LSP for a conflicting one and
originates again at sequence number 2. -/
theorem keyed_echo_reoriginates :
    Reachable (oneCircuit [1]) (0, firstLSP.exec 0 (fresh [1])) ∧
      (firstLSP.exec 0 (fresh [1])).entryAt .level1 firstID = some keyedEntry ∧
      keyedEntry.live 0 = true ∧ decodePDU (keyedEntry.wire 0) = .ok (.lsp keyedEcho) ∧
      ∃ c, (firstLSP.exec 0 (fresh [1])).circuitNamed "eth0" = some c ∧
        ¬ EchoInert (firstLSP.exec 0 (fresh [1])) ((firstLSP.exec 0 (fresh [1])).processLSP "eth0"
          (keyedEntry.wire 0) keyedEcho 0 0) c .level1 firstID := by
  obtain ⟨c, hc⟩ : ∃ c, (firstLSP.exec 0 (fresh [1])).circuitNamed "eth0" = some c := ⟨_, rfl⟩
  refine ⟨first (newIsisServer_oneCircuit [1]) 0 firstLSP trivial, entryAt_keyed,
    by decide, by decide, c, hc, fun h => ?_⟩
  have hnext : (((firstLSP.exec 0 (fresh [1])).processLSP "eth0" (keyedEntry.wire 0) keyedEcho 0
      0).entryAt .level1 firstID).map (·.lsp.sequenceNumber) = some 2 := by decide
  rw [h.entries, entryAt_keyed] at hnext
  exact absurd hnext (by decide)

end Goisis.Server
