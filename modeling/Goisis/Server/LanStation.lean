import Goisis.Server.Flooding
import Goisis.Server.Tiling
import Goisis.Server.Transit

/-!
# One station of a LAN

What the update process of one server does on a broadcast circuit, seen from one Level 2 LSP: the
copy it holds and whether it is due to send it (SRM) or to ask for it (SSN). That view is an
`LspCell`, and every function of the exchange rewrites cells:

* `hearAll_lsps` — received LSPs: an older copy is replaced, a newer one becomes due (`heard`);
* `hearAll_psnps` — received PSNPs: the DIS becomes due to send what it has newer (`asked`);
* `hear_burst` — a whole burst of CSNPs (`announced`);
* `transmitSRM_lan`, `transmitPSNP_lan` — what is sent, and which flags go.

Everything held is a live copy of a foreign LSP, received in full (`LiveCopy`).
-/

namespace Goisis.Server

open Lib Packet IsisServer Circuit List Option

variable {e : LspEntry} {now : Int} {id : LSPID} {dis : Bool} {peer : SNPA → Prop} {c c' : Circuit}
  {s : IsisServer} {src : SNPA} {f : Circuit → Circuit} {jitter : Int} {cn : String} {db : LSDB}
  {es : List LspEntry} {ps : List PSNP}

/-! ## Copies -/

/-- A live copy of a Level 2 LSP as `processLSP` stored it at some time. -/
structure LiveCopy (now : Int) (id : LSPID) (e : LspEntry) : Prop where
  received : ∃ raw lsp t, t ≤ now ∧ decodePDU raw = .ok (.lsp lsp) ∧
    lspChecksumValidRaw raw = true ∧ e = receivedEntry raw lsp t
  level : e.lsp.level = .level2
  lspID : e.lsp.lspID = id
  live : e.remaining now ≠ 0
  seq : 1 ≤ e.lsp.sequenceNumber

namespace LspEntry

/-- What an entry says, whatever lifetime it has left. -/
def content (e : LspEntry) : LSP := { e.lsp with remainingTime := 0 }

/-- What a neighbour stores when it receives the entry flooded now. -/
def copy (e : LspEntry) (now : Int) : LspEntry :=
  receivedEntry (e.wire now) { e.lsp with remainingTime := e.remaining now } now

end LspEntry

/-- `e` is a copy of `e₀`: the same LSP, octet for octet but for the remaining lifetime. -/
structure CopyOf (e₀ e : LspEntry) : Prop where
  length : e.raw.length = e₀.raw.length
  octets : ∀ j, j ≠ 10 → j ≠ 11 → e.raw[j]? = e₀.raw[j]?
  content : e.content = e₀.content

section Copies

variable {e₀ e₁ : LspEntry}

theorem CopyOf.refl (e : LspEntry) : CopyOf e e := ⟨rfl, fun _ _ _ => rfl, rfl⟩

theorem CopyOf.trans (h : CopyOf e₀ e₁) (h' : CopyOf e₁ e) : CopyOf e₀ e where
  length := h'.length.trans h.length
  octets j h10 h11 := (h'.octets j h10 h11).trans (h.octets j h10 h11)
  content := h'.content.trans h.content

theorem CopyOf.sequenceNumber (h : CopyOf e₀ e) : e.lsp.sequenceNumber = e₀.lsp.sequenceNumber :=
  show e.content.sequenceNumber = e₀.content.sequenceNumber from by rw [h.content]

theorem checksum_of_content (h : e.content = e₀.content) : e.lsp.checksum = e₀.lsp.checksum :=
  show e.content.checksum = e₀.content.checksum from by rw [h]

theorem LiveCopy.floodsAsReceived (h : LiveCopy now id e) : FloodsAsReceived e.raw e now := by
  obtain ⟨raw, lsp, t, hle, hdecode, hvalid, rfl⟩ := h.received
  exact receivedEntry_floodsAsReceived hdecode hvalid hle h.live

/-- What a neighbour decodes. -/
theorem LiveCopy.decoded (h : LiveCopy now id e) :
    decodePDU (e.wire now) = .ok (.lsp { e.lsp with remainingTime := e.remaining now }) :=
  h.floodsAsReceived.decoded

theorem LiveCopy.copy (h : LiveCopy now id e) : LiveCopy now id (e.copy now) where
  received := ⟨e.wire now, _, now, Int.le_refl now, h.decoded, h.floodsAsReceived.checksum, rfl⟩
  level := h.level
  lspID := h.lspID
  live := by
    have hlife : (e.copy now).lifetime = max (e.remaining now) maxAgeSeconds := by
      show receivedLifetime (e.remaining now) = _
      unfold receivedLifetime
      rw [if_neg h.live]
    have haged := LspEntry.remaining_toNat (show (e.copy now).inserted ≤ now from Int.le_refl now)
    intro hzero
    rw [hzero, hlife, show (e.copy now).inserted = now from rfl] at haged
    have hpos : (1200 : ℕ) ≤ (max (e.remaining now) maxAgeSeconds).toNat := by
      show (1200 : ℕ) ≤ (if e.remaining now ≤ maxAgeSeconds then maxAgeSeconds
        else e.remaining now).toNat
      split
      · decide
      · rename_i hgt
        rw [UInt16.le_iff_toNat_le, show maxAgeSeconds.toNat = 1200 from rfl] at hgt
        omega
    simp at haged
    omega
  seq := h.seq

theorem LiveCopy.copyOf (h : LiveCopy now id e) : CopyOf e (e.copy now) where
  length := h.floodsAsReceived.length
  octets := h.floodsAsReceived.octets
  content := rfl

end Copies

/-! ## Stations -/

/-- What stays fixed of a station: its port on the LAN, the address it sends from, its system ID and
the MTU of the port. -/
structure Station where
  port : String
  snpa : SNPA
  systemID : SystemID
  mtu : Int

/-- A Level 2 circuit on the LAN: broadcast, with every peer up and every SRM flag due. -/
structure LanCircuit (st : Station) (dis : Bool) (peer : SNPA → Prop) (now : Int) (c : Circuit) :
    Prop where
  lan : c.cfg.p2p = false
  mtu : c.cfg.mtu = st.mtu
  dis : c.isDIS .level2 st.systemID = dis
  peers : ∀ a, peer a → (c.upAdjacencyFrom .level2 a).isSome = true
  srm : (c.srm .level2).isSome = true
  ssn : (c.ssn .level2).isSome = true
  acks : ∀ id, c.ssnAckAt .level2 id = none
  due : ∀ id t, c.srmAt .level2 id = some t → t ≤ now

variable {st : Station}

theorem LanCircuit.flagsOnly (h : LanCircuit st dis peer now c) : FlagsOnly c .level2 c :=
  .refl h.srm h.ssn

theorem LanCircuit.setSRM (h : LanCircuit st dis peer now c) (id : LSPID) :
    LanCircuit st dis peer now (c.setSRM .level2 id now) :=
  { h with
    srm := by rw [srm_isSome_setSRM]; exact h.srm
    due := fun i t ht => by
      rw [srmAt_setSRM] at ht
      split at ht
      · cases ht
        exact Int.le_refl now
      · exact h.due i t ht }

theorem LanCircuit.clearSRM (h : LanCircuit st dis peer now c) (id : LSPID) :
    LanCircuit st dis peer now (c.clearSRM .level2 id) :=
  { h with
    srm := by rw [srm_isSome_clearSRM]; exact h.srm
    due := fun i t ht => by
      rw [srmAt_clearSRM] at ht
      split at ht
      · cases ht
      · exact h.due i t ht }

theorem LanCircuit.clearSSN (h : LanCircuit st dis peer now c) (id : LSPID) :
    LanCircuit st dis peer now (c.clearSSN .level2 id) :=
  { h with
    ssn := by
      unfold Circuit.clearSSN
      rw [onLevel_isSome]
      exact h.ssn
    acks := fun i => by
      unfold ssnAckAt Circuit.clearSSN
      rw [lookup_onLevel_erase]
      split
      · rfl
      · exact h.acks i }

/-- A change of flags that schedules nothing later than now. -/
theorem LanCircuit.of_flagsOnly (h : LanCircuit st dis peer now c) (hflags : FlagsOnly c .level2 c')
    (hdue : ∀ id t, c'.srmAt .level2 id = some t → t ≤ now) : LanCircuit st dis peer now c' := by
  have hrest := hflags.rest
  refine ⟨?_, ?_, ?_, ?_, hflags.srm, hflags.ssn, ?_, hdue⟩
  · rw [← h.lan, ← hrest]
  · rw [← h.mtu, ← hrest]
  · rw [← h.dis, ← hrest]
    rfl
  · intro a ha
    rw [← h.peers a ha, ← hrest]
    rfl
  · intro i
    rw [← h.acks i, ← hrest]
    rfl

/-- A server as a station of the LAN. -/
structure OnLan (st : Station) (dis : Bool) (peer : SNPA → Prop) (now : Int) (s : IsisServer) :
    Prop where
  systemID : s.systemID = st.systemID
  db : (s.dbs .level2).isSome = true
  circuit : ∃ c, s.circuitNamed st.port = some c ∧ LanCircuit st dis peer now c

/-- One LSP at one station. -/
@[ext] structure LspCell where
  entry : Option LspEntry
  srm : Bool
  ssn : Bool

namespace IsisServer

variable (s : IsisServer)

/-- The LSP as the station sees it. -/
def lanCell (port : String) (id : LSPID) : LspCell where
  entry := s.entryAt .level2 id
  srm := (s.circuitNamed port).any fun c => (c.srmAt .level2 id).isSome
  ssn := (s.circuitNamed port).any fun c => c.ssnAt .level2 id

/-- The adjacency gate of `handleRx`. -/
def admits (cn : String) (level : Level) (src : SNPA) : Bool :=
  (s.circuitNamed cn).any fun c => (c.upAdjacencyFrom level src).isSome

/-- A PDU arrives on a circuit: `handleRx` from the adjacency gate on. -/
def hear (cn : String) (src : SNPA) (now jitter : Int) : Message → IsisServer
  | .lsp raw =>
    match decodePDU raw with
    | .ok (.lsp lsp) =>
      if s.admits cn lsp.level src then s.processLSP cn raw lsp now jitter else s
    | _ => s
  | .csnp p => if s.admits cn p.level src then s.processCSNP cn p now else s
  | .psnp p => if s.admits cn p.level src then s.processPSNP cn p now else s

/-- PDUs arrive one after the other. -/
def hearAll (cn : String) (src : SNPA) (now jitter : Int) (ms : List Message) : IsisServer :=
  ms.foldl (fun s m => s.hear cn src now jitter m) s

/-- The entry limit is not reached at any of the arrivals. -/
def HasRoom (cn : String) (src : SNPA) (now jitter : Int) : List Message → IsisServer → Prop
  | [], _ => True
  | m :: ms, s => ¬ s.AtEntryLimit .level2 ∧
    HasRoom cn src now jitter ms (s.hear cn src now jitter m)

end IsisServer

/-- The cell, read off the station's circuit. -/
theorem lanCell_eq (hc : s.circuitNamed st.port = some c) (id : LSPID) :
    s.lanCell st.port id =
      ⟨s.entryAt .level2 id, (c.srmAt .level2 id).isSome, c.ssnAt .level2 id⟩ := by
  unfold lanCell
  rw [hc]
  rfl

theorem OnLan.admits (h : OnLan st dis peer now s) (hsrc : peer src) :
    s.admits st.port .level2 src = true := by
  obtain ⟨c, hc, hlan⟩ := h.circuit
  unfold IsisServer.admits
  rw [hc]
  exact hlan.peers src hsrc

/-- A change of the station's circuit alone. -/
theorem OnLan.onCircuit (h : OnLan st dis peer now s) (hcfg : ∀ c, (f c).cfg = c.cfg)
    (hc : s.circuitNamed st.port = some c) (hf : LanCircuit st dis peer now (f c)) :
    OnLan st dis peer now (s.onCircuit st.port f) where
  systemID := h.systemID
  db := h.db
  circuit := ⟨f c, circuitNamed_onCircuit_self hcfg hc, hf⟩

theorem lanCell_onCircuit (hcfg : ∀ c, (f c).cfg = c.cfg) (hc : s.circuitNamed st.port = some c)
    (id : LSPID) :
    (s.onCircuit st.port f).lanCell st.port id =
      ⟨s.entryAt .level2 id, ((f c).srmAt .level2 id).isSome, (f c).ssnAt .level2 id⟩ :=
  lanCell_eq (circuitNamed_onCircuit_self hcfg hc) id

/-! ## A received LSP -/

/-- What a copy that arrives does to the cell of its LSP. -/
def heard (now : Int) (e : LspEntry) (v : LspCell) : LspCell :=
  match v.entry with
  | none => ⟨some (e.copy now), false, v.ssn⟩
  | some loc =>
    if loc.lsp.sequenceNumber < e.lsp.sequenceNumber then ⟨some (e.copy now), false, v.ssn⟩
    else if e.lsp.sequenceNumber < loc.lsp.sequenceNumber then ⟨some loc, true, false⟩
    else v

/-- The server holds live copies only, and none that differs from `e` at its sequence number. -/
def AgreesWith (now : Int) (s : IsisServer) (e : LspEntry) : Prop :=
  ∀ loc, s.entryAt .level2 e.lsp.lspID = some loc → LiveCopy now e.lsp.lspID loc ∧
    (loc.lsp.sequenceNumber = e.lsp.sequenceNumber → loc.lsp.checksum = e.lsp.checksum)

/-- `installLSP` on the LAN. -/
theorem installLSP_lan (h : OnLan st dis peer now s) (hc : s.circuitNamed st.port = some c)
    (he : LiveCopy now id e) :
    OnLan st dis peer now (s.installLSP c (e.wire now)
        { e.lsp with remainingTime := e.remaining now } now) ∧
      ∀ i, (s.installLSP c (e.wire now)
        { e.lsp with remainingTime := e.remaining now } now).lanCell st.port i =
        if i = id then ⟨some (e.copy now), false, (s.lanCell st.port i).ssn⟩
        else s.lanCell st.port i := by
  obtain ⟨c', hc', hlan⟩ := h.circuit
  rw [hc] at hc'
  cases hc'
  have hnamed : (s.installLSP c (e.wire now) { e.lsp with remainingTime := e.remaining now }
      now).circuitNamed st.port = some (c.clearSRM .level2 id) := by
    rw [circuitNamed_installLSP, hc, map_some, if_pos (name_of_circuitNamed hc).symm]
    show some (arrival e.lsp.level e.lsp.lspID c) = _
    rw [arrival, if_neg (by rw [hlan.lan]; simp), he.level, he.lspID]
  refine ⟨⟨installLSP_frame.1.trans h.systemID,
    by rw [dbs_installLSP]; exact onLevel_isSome.trans h.db, _, hnamed, hlan.clearSRM id⟩,
    fun i => ?_⟩
  rw [lanCell_eq hnamed, lanCell_eq hc, installLSP_entryAt]
  show LspCell.mk (if Level.level2 = e.lsp.level ∧ i = e.lsp.lspID ∧ (s.dbs e.lsp.level).isSome
    then some (e.copy now) else _) _ _ = _
  rw [he.level, he.lspID, srmAt_clearSRM]
  by_cases hi : i = id
  · simp [hi, h.db]
  · simp [hi]

section Arrives

variable {lsp : LSP} {raw : Bytes} {loc : LspEntry}

/-- A newer foreign LSP that verifies is installed. -/
theorem processLSP_installs (hc : s.circuitNamed cn = some c) (hdb : s.dbs lsp.level = some db)
    (hvalid : lspChecksumValidRaw raw = true) (hrem : lsp.remainingTime ≠ 0)
    (hforeign : lsp.lspID.nodeID.systemID ≠ s.systemID) (hroom : ¬ s.AtEntryLimit lsp.level)
    (hnewer : newer lsp.sequenceNumber lsp.remainingTime (db.lookup lsp.lspID) now = true) :
    s.processLSP cn raw lsp now jitter = s.installLSP c raw lsp now := by
  have hpass : ∀ ex, s.handleOwnSystemID lsp ex now jitter = none := by
    intro ex
    unfold handleOwnSystemID
    rw [if_pos hforeign]
  have hlimit : ¬ (s.lsdbEntryLimit > 0 ∧ (db.entries.length : Int) ≥ s.lsdbEntryLimit) :=
    fun hfull => hroom ⟨hfull.1, db, hdb, hfull.2⟩
  unfold processLSP
  simp only [hc, hdb, hvalid, hpass, Bool.not_true, Bool.false_eq_true, and_false, if_false,
    if_neg hrem, if_neg hlimit]
  cases hloc : db.lookup lsp.lspID with
  | none => rfl
  | some loc =>
    rw [hloc] at hnewer
    simp [hnewer]

theorem processLSP_keeps (hc : s.circuitNamed cn = some c) (hdb : s.dbs lsp.level = some db)
    (hvalid : lspChecksumValidRaw raw = true) (hloc : db.lookup lsp.lspID = some loc)
    (hnewer : newer lsp.sequenceNumber lsp.remainingTime (some loc) now = false) :
    s.processLSP cn raw lsp now jitter = s.keepStored c lsp loc now jitter := by
  unfold processLSP
  simp [hc, hdb, hvalid, hloc, hnewer]

/-- An equal copy on a LAN is ignored. -/
theorem keepStored_equal (hlan : c.cfg.p2p = false)
    (hseq : loc.lsp.sequenceNumber = lsp.sequenceNumber) (hlive : loc.remaining now ≠ 0)
    (hsum : loc.lsp.checksum = lsp.checksum) : s.keepStored c lsp loc now jitter = s := by
  unfold keepStored
  simp [hseq, hlive, hsum, hlan]

end Arrives

/-- **A copy arrives.** -/
theorem hear_lsp (jitter : Int) (h : OnLan st dis peer now s) (hsrc : peer src)
    (he : LiveCopy now id e) (hforeign : id.nodeID.systemID ≠ st.systemID)
    (hagree : AgreesWith now s e) (hroom : ¬ s.AtEntryLimit .level2) :
    OnLan st dis peer now (s.hear st.port src now jitter (.lsp (e.wire now))) ∧
      ∀ i, (s.hear st.port src now jitter (.lsp (e.wire now))).lanCell st.port i =
        if i = id then heard now e (s.lanCell st.port i) else s.lanCell st.port i := by
  obtain ⟨c, hc, hlan⟩ := h.circuit
  obtain ⟨db, hdb⟩ := isSome_iff_exists.mp h.db
  obtain ⟨hinst, hcells⟩ := installLSP_lan h hc he
  have hgate : s.admits st.port e.lsp.level src = true := by rw [he.level]; exact h.admits hsrc
  have hhear : s.hear st.port src now jitter (.lsp (e.wire now)) =
      s.processLSP st.port (e.wire now) { e.lsp with remainingTime := e.remaining now } now
      jitter := by
    simp only [IsisServer.hear, he.decoded, hgate, if_true]
  rw [hhear]
  obtain ⟨lsp, hlsp⟩ : ∃ lsp, lsp = { e.lsp with remainingTime := e.remaining now } := ⟨_, rfl⟩
  have hlevel : lsp.level = .level2 := by rw [hlsp]; exact he.level
  have hid : lsp.lspID = id := by rw [hlsp]; exact he.lspID
  have hseq : lsp.sequenceNumber = e.lsp.sequenceNumber := by rw [hlsp]
  have hrem : lsp.remainingTime ≠ 0 := by rw [hlsp]; exact he.live
  have hsum : lsp.checksum = e.lsp.checksum := by rw [hlsp]
  rw [← hlsp] at hinst hcells ⊢
  have hvalid := he.floodsAsReceived.checksum
  have hdb' : s.dbs lsp.level = some db := by rw [hlevel]; exact hdb
  have hentry : s.entryAt .level2 id = db.lookup lsp.lspID := by
    rw [hid]
    unfold entryAt
    rw [hdb]
    rfl
  have hinstalls : newer lsp.sequenceNumber lsp.remainingTime (db.lookup lsp.lspID) now = true →
      s.processLSP st.port (e.wire now) lsp now jitter = s.installLSP c (e.wire now) lsp now :=
    processLSP_installs hc hdb' hvalid hrem (by rw [hid, h.systemID]; exact hforeign)
      (by rw [hlevel]; exact hroom)
  cases hloc : db.lookup lsp.lspID with
  | none =>
    rw [hinstalls (by rw [hloc]; rfl)]
    refine ⟨hinst, fun i => ?_⟩
    rw [hcells]
    split
    · rename_i hi
      rw [heard, lanCell_eq hc, hi, hentry, hloc]
    · rfl
  | some loc =>
    rw [hloc] at hentry
    obtain ⟨hlive, hsame⟩ := hagree loc (by rw [he.lspID]; exact hentry)
    by_cases hlt : loc.lsp.sequenceNumber < e.lsp.sequenceNumber
    · have hnewer : newer lsp.sequenceNumber lsp.remainingTime (some loc) now = true := by
        rw [newer_some_iff, hseq]
        exact .inl hlt
      rw [hinstalls (by rw [hloc]; exact hnewer)]
      refine ⟨hinst, fun i => ?_⟩
      rw [hcells]
      split
      · rename_i hi
        rw [heard, lanCell_eq hc, hi, hentry]
        simp only [if_pos hlt]
      · rfl
    · have hnewer : newer lsp.sequenceNumber lsp.remainingTime (some loc) now = false := by
        rw [← Bool.not_eq_true, newer_some_iff, hseq]
        rintro (h | ⟨-, h, -⟩)
        · exact hlt h
        · exact hrem h
      rw [processLSP_keeps hc hdb' hvalid hloc hnewer]
      by_cases hgt : e.lsp.sequenceNumber < loc.lsp.sequenceNumber
      · -- ours is newer: it is due on the LAN
        unfold keepStored
        simp only [hseq, hlevel, hid, if_pos hgt]
        rw [name_of_circuitNamed hc]
        refine ⟨h.onCircuit (fun _ => rfl) hc ((hlan.setSRM id).clearSSN id), fun i => ?_⟩
        have hcell :=
          lanCell_onCircuit (f := fun c => (c.setSRM .level2 id now).clearSSN .level2 id)
          (fun _ => rfl) hc i
        rw [hcell, lanCell_eq hc, srmAt_clearSSN, srmAt_setSRM, ssnAt_clearSSN, ssnAt_setSRM]
        by_cases hi : i = id
        · simp [heard, hi, hlt, hgt, hlan.srm, hentry]
        · simp [hi]
      · have heq : loc.lsp.sequenceNumber = e.lsp.sequenceNumber :=
          UInt32.le_antisymm (UInt32.not_lt.mp hgt) (UInt32.not_lt.mp hlt)
        rw [keepStored_equal hlan.lan (by rw [hseq, heq]) hlive.live (by rw [hsum, hsame heq])]
        refine ⟨h, fun i => ?_⟩
        split
        · rename_i hi
          rw [heard, lanCell_eq hc, hi, hentry]
          simp only [if_neg hlt, if_neg hgt]
        · rfl

/-- **Copies of different LSPs arrive one after the other.** -/
theorem hearAll_lsps (h : OnLan st dis peer now s) (hsrc : peer src)
    (hes : ∀ e ∈ es, LiveCopy now e.lsp.lspID e ∧ e.lsp.lspID.nodeID.systemID ≠ st.systemID ∧
      AgreesWith now s e) (hnodup : (es.map (·.lsp.lspID)).Nodup)
    (hroom : IsisServer.HasRoom st.port src now jitter (es.map fun e => .lsp (e.wire now)) s) :
    OnLan st dis peer now (s.hearAll st.port src now jitter (es.map fun e => .lsp (e.wire now))) ∧
      (∀ e ∈ es,
        (s.hearAll st.port src now jitter (es.map fun e => .lsp (e.wire now))).lanCell st.port
        e.lsp.lspID = heard now e (s.lanCell st.port e.lsp.lspID)) ∧
      ∀ i, (∀ e ∈ es, e.lsp.lspID ≠ i) →
        (s.hearAll st.port src now jitter (es.map fun e => .lsp (e.wire now))).lanCell st.port i =
          s.lanCell st.port i := by
  induction es generalizing s with
  | nil => exact ⟨h, fun _ hx => absurd hx not_mem_nil, fun _ _ => rfl⟩
  | cons x es ih =>
    obtain ⟨hx, hxforeign, hxagree⟩ := hes x mem_cons_self
    obtain ⟨hone, hcells⟩ := hear_lsp jitter h hsrc hx hxforeign hxagree hroom.1
    rw [map_cons, nodup_cons] at hnodup
    have hne : ∀ e ∈ es, e.lsp.lspID ≠ x.lsp.lspID := fun e he heq =>
      hnodup.1 (heq ▸ mem_map_of_mem he)
    have hother : ∀ e ∈ es, (s.hear st.port src now jitter (.lsp (x.wire now))).lanCell st.port
        e.lsp.lspID = s.lanCell st.port e.lsp.lspID := fun e he => by
      rw [hcells, if_neg (hne e he)]
    obtain ⟨hall, hmem, hrest⟩ := ih hone (fun e he => by
      obtain ⟨hlive, hforeign, hagree⟩ := hes e (mem_cons_of_mem x he)
      exact ⟨hlive, hforeign, fun loc hloc =>
        hagree loc ((congrArg LspCell.entry (hother e he)).symm.trans hloc)⟩) hnodup.2 hroom.2
    refine ⟨hall, fun e he => ?_, fun i hi => ?_⟩
    · rcases mem_cons.mp he with rfl | he
      · refine (hrest _ hne).trans ?_
        rw [hcells, if_pos rfl]
      · refine (hmem e he).trans ?_
        rw [hother e he]
    · refine (hrest i fun e he => hi e (mem_cons_of_mem x he)).trans ?_
      rw [hcells, if_neg (hi x mem_cons_self).symm]

/-! ## A received PSNP -/

/-- What a listed entry does to the cell of its LSP at the DIS. -/
def asked (seq : UInt32) (v : LspCell) : LspCell :=
  match v.entry with
  | none => v
  | some loc => if seq < loc.lsp.sequenceNumber then { v with srm := true } else v

/-- No copy the server holds differs from a listed one. -/
def NoneDiffers (now : Int) (s : IsisServer) (x : LSPEntry) : Prop :=
  ∀ loc, s.entryAt .level2 x.lspID = some loc → ¬ Differs loc x now

/-- A station that is not the DIS ignores requests. -/
theorem hear_psnp_other (h : OnLan st false peer now s) (p : PSNP) (hlevel : p.level = .level2) :
    s.hear st.port src now jitter (.psnp p) = s := by
  obtain ⟨c, hc, hlan⟩ := h.circuit
  obtain ⟨db, hdb⟩ := isSome_iff_exists.mp h.db
  have hdis := hlan.dis
  rw [← h.systemID] at hdis
  simp only [IsisServer.hear, processPSNP, hc, hlevel, hdb, hlan.lan, hdis, Bool.not_false,
    Bool.and_self, if_true, ite_self]

/-- **Requests arrive at the DIS.** -/
theorem hear_psnp_dis (jitter : Int) (h : OnLan st true peer now s) (hsrc : peer src) (p : PSNP)
    (hlevel : p.level = .level2) (hnodup : ((listedEntries p.tlvs).map (·.lspID)).Nodup)
    (hdiff : ∀ x ∈ listedEntries p.tlvs, NoneDiffers now s x) :
    OnLan st true peer now (s.hear st.port src now jitter (.psnp p)) ∧
      (∀ x ∈ listedEntries p.tlvs,
        (s.hear st.port src now jitter (.psnp p)).lanCell st.port x.lspID =
          asked x.sequenceNumber (s.lanCell st.port x.lspID)) ∧
      ∀ i, (∀ x ∈ listedEntries p.tlvs, x.lspID ≠ i) →
        (s.hear st.port src now jitter (.psnp p)).lanCell st.port i = s.lanCell st.port i := by
  obtain ⟨c, hc, hlan⟩ := h.circuit
  obtain ⟨db, hdb⟩ := isSome_iff_exists.mp h.db
  have hdis := hlan.dis
  rw [← h.systemID] at hdis
  have hhear : s.hear st.port src now jitter (.psnp p) =
      s.onCircuit st.port (psnpCircuit db p now) := by
    simp only [IsisServer.hear, h.admits hsrc, if_true, processPSNP, hc, hlevel, hdb, hlan.lan,
      hdis, Bool.not_true, Bool.and_false, Bool.false_eq_true, if_false]
  have hflags : FlagsOnly c p.level c := by rw [hlevel]; exact hlan.flagsOnly
  have hlook : ∀ i, s.entryAt .level2 i = db.lookup i := fun i => by
    unfold entryAt
    rw [hdb]
    rfl
  have hlisted : ∀ x ∈ listedEntries p.tlvs, (psnpCircuit db p now c).flags (.level2, x.lspID) =
      psnpFlags db.lookup now x (c.flags (.level2, x.lspID)) := fun x hx => by
    have := flags_psnp_listed db now hlan.lan hflags hnodup hx
    rwa [hlevel] at this
  have hunlisted : ∀ i, (∀ x ∈ listedEntries p.tlvs, x.lspID ≠ i) →
      (psnpCircuit db p now c).flags (.level2, i) = c.flags (.level2, i) := fun i hi =>
    flags_psnp_unlisted db now hlan.lan hflags fun x hx heq => hi x hx (Prod.mk.inj heq).2
  have hcell : ∀ i, (s.onCircuit st.port (psnpCircuit db p now)).lanCell st.port i =
      ⟨s.entryAt .level2 i, ((psnpCircuit db p now c).flags (.level2, i)).1.isSome,
        ((psnpCircuit db p now c).flags (.level2, i)).2⟩ :=
    lanCell_onCircuit (cfg_psnpCircuit db p now) hc
  rw [hhear]
  refine ⟨h.onCircuit (cfg_psnpCircuit db p now) hc (hlan.of_flagsOnly ?_ fun i t ht => ?_), ?_, ?_⟩
  · rw [← hlevel]
    exact ((psnpListed_loop db.lookup c p.level now).keeps_foldl ⟨hlan.lan, hflags⟩).2
  · have ht' : ((psnpCircuit db p now c).flags (.level2, i)).1 = some t := ht
    by_cases hi : ∃ x ∈ listedEntries p.tlvs, x.lspID = i
    · obtain ⟨x, hx, rfl⟩ := hi
      rw [hlisted x hx] at ht'
      rcases psnpFlags_cases db.lookup now x (c.flags (.level2, x.lspID)) with hsame | ⟨hset, -⟩
      · rw [hsame] at ht'
        exact hlan.due _ t ht'
      · rw [hset] at ht'
        cases ht'
        exact Int.le_refl now
    · rw [hunlisted i fun x hx heq => hi ⟨x, hx, heq⟩] at ht'
      exact hlan.due i t ht'
  · intro x hx
    rw [hcell, hlisted x hx, lanCell_eq hc, asked]
    cases hloc : s.entryAt .level2 x.lspID with
    | none =>
      rw [hlook] at hloc
      simp [psnpFlags, hloc, flags]
    | some loc =>
      have hnot : ¬ Differs loc x now := hdiff x hx loc hloc
      rw [hlook] at hloc
      rw [psnpFlags_of_held hloc]
      by_cases hlt : x.sequenceNumber < loc.lsp.sequenceNumber
      · simp [SentBack, hlt, flags]
      · simp [SentBack, hlt, hnot, flags]
  · intro i hi
    rw [hcell, hunlisted i hi, lanCell_eq hc]
    rfl

/-- **A batch of PSNPs arrives at the DIS.** -/
theorem hearAll_psnps (jitter : Int) (h : OnLan st true peer now s) (hsrc : peer src)
    (hlevel : ∀ p ∈ ps, p.level = .level2)
    (hnodup : ((ps.flatMap fun p => listedEntries p.tlvs).map (·.lspID)).Nodup)
    (hdiff : ∀ x ∈ ps.flatMap fun p => listedEntries p.tlvs, NoneDiffers now s x) :
    OnLan st true peer now (s.hearAll st.port src now jitter (ps.map .psnp)) ∧
      (∀ x ∈ ps.flatMap fun p => listedEntries p.tlvs,
        (s.hearAll st.port src now jitter (ps.map .psnp)).lanCell st.port x.lspID =
          asked x.sequenceNumber (s.lanCell st.port x.lspID)) ∧
      ∀ i, (∀ x ∈ ps.flatMap fun p => listedEntries p.tlvs, x.lspID ≠ i) →
        (s.hearAll st.port src now jitter (ps.map .psnp)).lanCell st.port i =
          s.lanCell st.port i := by
  induction ps generalizing s with
  | nil => exact ⟨h, fun _ hx => absurd hx not_mem_nil, fun _ _ => rfl⟩
  | cons p ps ih =>
    rw [flatMap_cons, map_append, nodup_append] at hnodup
    obtain ⟨hpnodup, hrestnodup, hapart⟩ := hnodup
    have hleft : ∀ x ∈ listedEntries p.tlvs,
        x ∈ (p :: ps).flatMap fun p => listedEntries p.tlvs := fun x hx =>
      mem_flatMap.mpr ⟨p, mem_cons_self, hx⟩
    have hright : ∀ x ∈ ps.flatMap fun p => listedEntries p.tlvs,
        x ∈ (p :: ps).flatMap fun p => listedEntries p.tlvs := fun x hx => by
      exact mem_append_right _ hx
    have hne : ∀ x ∈ listedEntries p.tlvs, ∀ y ∈ ps.flatMap fun p => listedEntries p.tlvs,
        x.lspID ≠ y.lspID := fun x hx y hy =>
      hapart _ (mem_map_of_mem hx) _ (mem_map_of_mem hy)
    obtain ⟨hone, hlisted, hothers⟩ := hear_psnp_dis jitter h hsrc p
      (hlevel p mem_cons_self) hpnodup fun x hx => hdiff x (hleft x hx)
    have hkeeps : ∀ y ∈ ps.flatMap fun p => listedEntries p.tlvs,
        (s.hear st.port src now jitter (.psnp p)).lanCell st.port y.lspID =
          s.lanCell st.port y.lspID := fun y hy => hothers _ fun x hx => hne x hx y hy
    obtain ⟨hall, hmem, hrest⟩ := ih hone (fun q hq => hlevel q (mem_cons_of_mem p hq))
      hrestnodup fun y hy loc hloc => by
        refine hdiff y (hright y hy) loc ?_
        exact (congrArg LspCell.entry (hkeeps y hy)).symm.trans hloc
    refine ⟨hall, fun x hx => ?_, fun i hi => ?_⟩
    · rcases mem_append.mp hx with hx | hx
      · exact (hrest _ fun y hy => (hne x hx y hy).symm).trans (hlisted x hx)
      · refine (hmem x hx).trans ?_
        rw [hkeeps x hx]
    · refine (hrest i fun y hy => hi y (hright y hy)).trans ?_
      exact hothers i fun x hx => hi x (hleft x hx)

theorem hearAll_psnps_other (h : OnLan st false peer now s) (hlevel : ∀ p ∈ ps, p.level = .level2) :
    s.hearAll st.port src now jitter (ps.map .psnp) = s := by
  induction ps with
  | nil => rfl
  | cons p ps ih =>
    show (s.hear st.port src now jitter (.psnp p)).hearAll st.port src now jitter (ps.map .psnp) = s
    rw [hear_psnp_other h p (hlevel p mem_cons_self)]
    exact ih fun q hq => hlevel q (mem_cons_of_mem p hq)

/-! ## A received burst -/

/-- What the burst of a DIS that holds `o` does to the cell of an LSP. -/
def announced (o : Option LspEntry) (v : LspCell) : LspCell :=
  match o, v.entry with
  | none, none => v
  | none, some _ => { v with srm := true }
  | some _, none => { v with ssn := true }
  | some e, some loc =>
    if loc.lsp.sequenceNumber < e.lsp.sequenceNumber then { v with ssn := true }
    else { v with srm := decide (e.lsp.sequenceNumber < loc.lsp.sequenceNumber) }

theorem IsisServer.onCircuit_onCircuit {g : Circuit → Circuit} (hf : ∀ c, (f c).cfg = c.cfg) :
    (s.onCircuit cn f).onCircuit cn g = s.onCircuit cn fun c => g (f c) := by
  have hmaps : ∀ c : Circuit, (if (if c.cfg.name = cn then f c else c).cfg.name = cn then
      g (if c.cfg.name = cn then f c else c) else if c.cfg.name = cn then f c else c) =
      if c.cfg.name = cn then g (f c) else c := by
    intro c
    by_cases hc : c.cfg.name = cn
    · simp [hc, hf]
    · simp [hc]
  simp only [onCircuit, List.map_map, Function.comp_def, hmaps]

theorem FlagsOnly.upAdjacencyFrom {level : Level} (h : FlagsOnly c level c') :
    c'.upAdjacencyFrom level src = c.upAdjacencyFrom level src := by
  rw [← h.rest]
  rfl

/-- A burst of CSNPs is one change of the circuit. -/
theorem hearAll_csnps {ps : List CSNP} (hc : s.circuitNamed st.port = some c)
    (hflags : FlagsOnly c .level2 c) (hup : (c.upAdjacencyFrom .level2 src).isSome = true)
    (hdb : s.dbs .level2 = some db) (hlevel : ∀ p ∈ ps, p.level = .level2) :
    s.hearAll st.port src now jitter (ps.map .csnp) =
      s.onCircuit st.port (burstCircuit db ps now) := by
  induction ps generalizing s c with
  | nil => simp [IsisServer.hearAll, onCircuit, burstCircuit]
  | cons p ps ih =>
    have hp := hlevel p mem_cons_self
    have hgate : s.admits st.port .level2 src = true := by
      unfold IsisServer.admits
      rw [hc]
      exact hup
    have hhear : s.hear st.port src now jitter (.csnp p) =
        s.onCircuit st.port (csnpCircuit db p now) := by
      simp only [IsisServer.hear, hp, hgate, if_true, processCSNP, hdb]
    have hone : FlagsOnly c .level2 (csnpCircuit db p now c) := by
      rw [← hp] at hflags ⊢
      exact csnpCircuit_flagsOnly hflags
    show (s.hear st.port src now jitter (.csnp p)).hearAll st.port src now jitter (ps.map .csnp) = _
    rw [hhear, ih (circuitNamed_onCircuit_self (cfg_csnpCircuit db p now) hc) hone.self
      (by rw [hone.upAdjacencyFrom]; exact hup) hdb fun q hq => hlevel q (mem_cons_of_mem p hq),
      onCircuit_onCircuit (cfg_csnpCircuit db p now)]
    rfl

/-- What a burst does to the flags of an LSP, from the copy of the sender and the one held here. -/
def announcedFlags (now : Int) : Option LspEntry → Option LspEntry → Option Int × Bool →
    Option Int × Bool
  | none, none, v => v
  | none, some _, v => (some now, v.2)
  | some _, none, v => (v.1, true)
  | some e, some loc, v =>
    if loc.lsp.sequenceNumber < e.lsp.sequenceNumber then (v.1, true)
    else (if e.lsp.sequenceNumber < loc.lsp.sequenceNumber then some now else none, v.2)

theorem announcedFlags_due {o l : Option LspEntry} {v : Option Int × Bool} {t : Int}
    (h : (announcedFlags now o l v).1 = some t) : v.1 = some t ∨ t = now := by
  revert h
  fun_cases announcedFlags now o l v with
  | case1 => exact .inl
  | case2 => exact fun h => .inr (some.inj h).symm
  | case3 => exact .inl
  | case4 => exact .inl
  | case5 =>
    split
    · exact fun h => .inr (some.inj h).symm
    · exact nofun

/-- On cells, `announcedFlags` is `announced`. -/
theorem announced_mk (o l : Option LspEntry) (v : Option Int × Bool) :
    announced o ⟨l, v.1.isSome, v.2⟩ =
      ⟨l, (announcedFlags now o l v).1.isSome, (announcedFlags now o l v).2⟩ := by
  fun_cases announcedFlags now o l v with
  | case1 | case2 | case3 => rfl
  | case4 e loc =>
    rename_i hlt
    simp only [announced, if_pos hlt]
  | case5 e loc =>
    rename_i hlt
    simp only [announced, if_neg hlt]
    by_cases hgt : e.lsp.sequenceNumber < loc.lsp.sequenceNumber <;> simp [hgt]

/-- The listed entry of a live copy, where equal sequence numbers mean equal content. -/
theorem csnpFlags_describe {f : LSPID → Option LspEntry} (hlive : e.remaining now ≠ 0)
    (hagree : ∀ loc, f id = some loc →
      (loc.lsp.sequenceNumber = e.lsp.sequenceNumber → loc.lsp.checksum = e.lsp.checksum))
    (v : Option Int × Bool) :
    csnpFlags f now (describe id e now) v = announcedFlags now (some e) (f id) v := by
  unfold csnpFlags
  have hid : (describe id e now).lspID = id := rfl
  rw [hid]
  cases hloc : f id with
  | none => rfl
  | some loc =>
    have holder : LocalOlder loc (describe id e now) now ↔
        loc.lsp.sequenceNumber < e.lsp.sequenceNumber := by
      constructor
      · rintro (hlt | ⟨-, -, hzero⟩)
        · exact hlt
        · exact absurd hzero hlive
      · exact .inl
    have hdiff : ¬ Differs loc (describe id e now) now := fun hd => hd.2.2.2 (hagree loc hloc hd.1)
    have hseq : (describe id e now).sequenceNumber = e.lsp.sequenceNumber := rfl
    simp only [announcedFlags, holder, SentBack, hseq, hdiff, or_false]
    split
    · rfl
    · split <;> rfl

/-- **A burst arrives.** -/
theorem hear_burst (jitter : Int) (h : OnLan st dis peer now s) (hsrc : peer src) (sd : IsisServer)
    (cd : Circuit)
    (hsd : ∀ id e, sd.entryAt .level2 id = some e → LiveCopy now id e ∧ AgreesWith now s e) :
    OnLan st dis peer now
      (s.hearAll st.port src now jitter ((sd.sendCSNP cd .level2 now).map .csnp)) ∧
      ∀ id, (s.hearAll st.port src now jitter
        ((sd.sendCSNP cd .level2 now).map .csnp)).lanCell st.port id =
          announced (sd.entryAt .level2 id) (s.lanCell st.port id) := by
  obtain ⟨c, hc, hlan⟩ := h.circuit
  obtain ⟨db, hdb⟩ := isSome_iff_exists.mp h.db
  have hlevel : ∀ p ∈ sd.sendCSNP cd .level2 now, p.level = .level2 := fun p hp =>
    (sendCSNP_listed hp).1
  have hcfg : ∀ c, (burstCircuit db (sd.sendCSNP cd .level2 now) now c).cfg = c.cfg :=
    cfg_foldl (fun c p => cfg_csnpCircuit db p now c) _
  have hlook : ∀ i, s.entryAt .level2 i = db.lookup i := fun i => by
    unfold entryAt
    rw [hdb]
    rfl
  have hflags : ∀ id, (burstCircuit db (sd.sendCSNP cd .level2 now) now c).flags (.level2, id) =
      announcedFlags now (sd.entryAt .level2 id) (db.lookup id) (c.flags (.level2, id)) := by
    intro id
    cases hd : sd.entryAt .level2 id with
    | none =>
      rw [flags_burst_unlisted sd cd db hlan.flagsOnly]
      · cases db.lookup id <;> rfl
      · intro x hx heq
        obtain ⟨e, he, -⟩ := mem_describeDatabase hx
        rw [heq, hd] at he
        cases he
    | some e =>
      obtain ⟨hlive, hagree⟩ := hsd id e hd
      refine (flags_burst_listed sd cd db hlan.flagsOnly
        (describe_mem_describeDatabase hd)).trans ?_
      refine csnpFlags_describe hlive.live (fun loc hloc => ?_) _
      rw [← hlook, ← hlive.lspID] at hloc
      exact (hagree loc hloc).2
  rw [hearAll_csnps hc hlan.flagsOnly (hlan.peers src hsrc) hdb hlevel]
  refine ⟨h.onCircuit hcfg hc
    (hlan.of_flagsOnly (burstCircuit_flagsOnly db now hlevel hlan.flagsOnly)
    fun id t ht => ?_), fun id => ?_⟩
  · have ht' : ((burstCircuit db (sd.sendCSNP cd .level2 now) now c).flags (.level2, id)).1 =
        some t := ht
    rw [hflags] at ht'
    rcases announcedFlags_due ht' with hold | rfl
    · exact hlan.due id t hold
    · exact Int.le_refl t
  · have hcell :
        (s.onCircuit st.port (burstCircuit db (sd.sendCSNP cd .level2 now) now)).lanCell st.port
        id = ⟨s.entryAt .level2 id,
          ((burstCircuit db (sd.sendCSNP cd .level2 now) now c).flags (.level2, id)).1.isSome,
          ((burstCircuit db (sd.sendCSNP cd .level2 now) now c).flags (.level2, id)).2⟩ :=
      lanCell_onCircuit hcfg hc id
    rw [hcell, hflags, lanCell_eq hc, hlook, ← announced_mk]
    rfl

/-! ## Transmission -/

/-- What one `transmitSRM` on a LAN sends, and the flags it leaves: `es` are sent and lose their
flag, a flag without a copy may be dropped. -/
structure SentOnLan (db : LSPID → Option LspEntry) (c c' : Circuit) (es : List LspEntry) :
    Prop where
  nodup : (es.map (·.lsp.lspID)).Nodup
  flagged : ∀ e ∈ es, db e.lsp.lspID = some e ∧ (c.srmAt .level2 e.lsp.lspID).isSome = true
  cleared : ∀ e ∈ es, c'.srmAt .level2 e.lsp.lspID = none
  others : ∀ i, (∀ e ∈ es, e.lsp.lspID ≠ i) →
    c'.srmAt .level2 i = c.srmAt .level2 i ∨ (c'.srmAt .level2 i = none ∧ db i = none)
  ssn : ∀ i, c'.ssnAt .level2 i = c.ssnAt .level2 i

section Transmit

variable {db : LSPID → Option LspEntry}

theorem SentOnLan.nothing (db : LSPID → Option LspEntry) (c : Circuit) : SentOnLan db c c [] where
  nodup := .nil
  flagged _ he := absurd he not_mem_nil
  cleared _ he := absurd he not_mem_nil
  others _ _ := .inl rfl
  ssn _ := rfl

/-- An LSP flagged after another's flag was cleared is another one, flagged before. -/
theorem flagged_of_clearSRM {i : LSPID}
    (h : ((c.clearSRM .level2 id).srmAt .level2 i).isSome = true) :
    i ≠ id ∧ (c.srmAt .level2 i).isSome = true := by
  rw [srmAt_clearSRM] at h
  split at h
  · cases h
  · rename_i hne
    exact ⟨fun heq => hne ⟨rfl, heq⟩, h⟩

/-- A flag without a copy is dropped first. -/
theorem SentOnLan.drop (hnone : db id = none) (h : SentOnLan db (c.clearSRM .level2 id) c' es) :
    SentOnLan db c c' es where
  nodup := h.nodup
  flagged e he := ⟨(h.flagged e he).1, (flagged_of_clearSRM (h.flagged e he).2).2⟩
  cleared := h.cleared
  others i hi := by
    rcases h.others i hi with heq | hgone
    · rw [srmAt_clearSRM] at heq
      split at heq
      · rename_i hid
        exact .inr ⟨heq, hid.2 ▸ hnone⟩
      · exact .inl heq
    · exact .inr hgone
  ssn := h.ssn

/-- A copy is sent first. -/
theorem SentOnLan.send (hid : e.lsp.lspID = id) (hdb : db id = some e)
    (hset : (c.srmAt .level2 id).isSome = true) (h : SentOnLan db (c.clearSRM .level2 id) c' es) :
    SentOnLan db c c' (e :: es) where
  nodup := by
    rw [map_cons, nodup_cons]
    refine ⟨fun hmem => ?_, h.nodup⟩
    obtain ⟨x, hx, hxid⟩ := mem_map.mp hmem
    exact (flagged_of_clearSRM (h.flagged x hx).2).1 (hxid.trans hid)
  flagged x hx := by
    rcases mem_cons.mp hx with rfl | hx
    · rw [hid]
      exact ⟨hdb, hset⟩
    · exact ⟨(h.flagged x hx).1, (flagged_of_clearSRM (h.flagged x hx).2).2⟩
  cleared x hx := by
    rcases mem_cons.mp hx with rfl | hx
    · have hgone : (c.clearSRM .level2 id).srmAt .level2 id = none := by
        rw [srmAt_clearSRM, if_pos ⟨rfl, rfl⟩]
      have hne : ∀ y ∈ es, y.lsp.lspID ≠ id :=
        fun y hy => (flagged_of_clearSRM (h.flagged y hy).2).1
      rw [hid]
      rcases h.others id hne with heq | ⟨hnone, -⟩
      · rw [heq, hgone]
      · exact hnone
    · exact h.cleared x hx
  others i hi := by
    have hne : i ≠ id := fun heq => hi e mem_cons_self (hid.trans heq.symm)
    rcases h.others i fun x hx => hi x (mem_cons_of_mem e hx) with heq | hgone
    · rw [srmAt_clearSRM, if_neg fun hk => hne hk.2] at heq
      exact .inl heq
    · exact .inr hgone
  ssn := h.ssn

/-- **The loop of `transmitSRM` on a LAN.** -/
theorem transmitLoop_lan (takes : LSPID → Bool) (order : List LSPID) (n : ℕ)
    (h : LanCircuit st dis peer now c)
    (hdb : ∀ id e, db id = some e → e.lsp.lspID = id ∧ ((e.wire now).length : Int) ≤ st.mtu - 3) :
    ∃ es : List LspEntry, (transmitLoop db .level2 now takes order n c).2 = es.map (·.wire now) ∧
      LanCircuit st dis peer now (transmitLoop db .level2 now takes order n c).1 ∧
      SentOnLan db c (transmitLoop db .level2 now takes order n c).1 es := by
  induction order generalizing n c with
  | nil => exact ⟨[], rfl, h, .nothing db c⟩
  | cons id order ih =>
    simp only [transmitLoop]
    split
    · exact ⟨[], rfl, h, .nothing db c⟩
    cases hset : c.srmAt .level2 id with
    | none => exact ih n h
    | some t =>
      simp only [if_neg (Int.not_lt.mpr (h.due id t hset))]
      cases hloc : db id with
      | none =>
        obtain ⟨es, hsent, hlan, hflags⟩ := ih n (h.clearSRM id)
        exact ⟨es, hsent, hlan, hflags.drop hloc⟩
      | some e =>
        obtain ⟨hid, hfit⟩ := hdb id e hloc
        simp only [h.mtu, if_neg (Int.not_lt.mpr hfit), h.lan, Bool.false_eq_true, if_false]
        split
        · exact ih (n + 1) h
        obtain ⟨es, hsent, hlan, hflags⟩ := ih (n + 1) (h.clearSRM id)
        refine ⟨e :: es, ?_, hlan, hflags.send hid hloc (by rw [hset]; rfl)⟩
        rw [hsent]
        rfl

/-- **`transmitSRM` on a LAN.** -/
theorem transmitSRM_lan (order : List LSPID) (takes : LSPID → Bool) (h : OnLan st dis peer now s)
    (hdb : ∀ id e, s.entryAt .level2 id = some e → e.lsp.lspID = id ∧
      ((e.wire now).length : Int) ≤ st.mtu - 3) :
    ∃ es : List LspEntry, (s.transmitSRM st.port .level2 now order takes).2 = es.map (·.wire now) ∧
      OnLan st dis peer now (s.transmitSRM st.port .level2 now order takes).1 ∧
      (es.map (·.lsp.lspID)).Nodup ∧
      (∀ e ∈ es, s.entryAt .level2 e.lsp.lspID = some e ∧
        (s.lanCell st.port e.lsp.lspID).srm = true ∧
        (s.transmitSRM st.port .level2 now order takes).1.lanCell st.port e.lsp.lspID =
          { s.lanCell st.port e.lsp.lspID with srm := false }) ∧
      ∀ i, (∀ e ∈ es, e.lsp.lspID ≠ i) →
        (s.transmitSRM st.port .level2 now order takes).1.lanCell st.port i = s.lanCell st.port i ∨
          (s.entryAt .level2 i = none ∧
            (s.transmitSRM st.port .level2 now order takes).1.lanCell st.port i =
              { s.lanCell st.port i with srm := false }) := by
  obtain ⟨c, hc, hlan⟩ := h.circuit
  have hready : c.floodReady .level2 = true := by simp [floodReady, hlan.lan]
  obtain ⟨es, hsent, hlan', hflags⟩ := transmitLoop_lan takes order 0 hlan hdb
  have hcfg : ∀ c : Circuit,
      (transmitLoop (s.entryAt .level2) .level2 now takes order 0 c).1.cfg = c.cfg :=
    cfg_transmitLoop takes order 0
  unfold transmitSRM
  simp only [hc, hready, Bool.not_true, Bool.false_eq_true, if_false]
  refine ⟨es, hsent, h.onCircuit hcfg hc hlan', hflags.nodup, fun e he => ?_, fun i hi => ?_⟩
  · obtain ⟨hentry, hset⟩ := hflags.flagged e he
    rw [lanCell_onCircuit hcfg hc, lanCell_eq hc, hflags.cleared e he, hflags.ssn]
    exact ⟨hentry, hset, rfl⟩
  · rw [lanCell_onCircuit hcfg hc, lanCell_eq hc, hflags.ssn]
    rcases hflags.others i hi with heq | ⟨hgone, hnone⟩
    · rw [heq]
      exact .inl rfl
    · rw [hgone]
      exact .inr ⟨hnone, rfl⟩

theorem clearAll_lan (ids : List LSPID) (h : LanCircuit st dis peer now c) :
    LanCircuit st dis peer now (ids.foldl (fun c id => c.clearSSN .level2 id) c) ∧ ∀ i,
      (ids.foldl (fun c id => c.clearSSN .level2 id) c).srmAt .level2 i = c.srmAt .level2 i ∧
      (ids.foldl (fun c id => c.clearSSN .level2 id) c).ssnAt .level2 i =
        (!decide (i ∈ ids) && c.ssnAt .level2 i) := by
  induction ids generalizing c with
  | nil => exact ⟨h, fun i => ⟨rfl, by simp⟩⟩
  | cons id ids ih =>
    obtain ⟨hlan, hflags⟩ := ih (h.clearSSN id)
    refine ⟨hlan, fun i => ⟨(hflags i).1, ?_⟩⟩
    rw [foldl_cons, (hflags i).2, ssnAt_clearSSN]
    by_cases hi : i = id <;> simp [hi]

/-- The PSNP entry that asks for an LSP on a LAN: the copy held, sequence number zero without
one. -/
def requestFor (db : LSPID → Option LspEntry) (now : Int) (id : LSPID) : LSPEntry :=
  match db id with
  | some e => describe id e now
  | none => ⟨0, id, 0, 0⟩

theorem lspID_requestFor (db : LSPID → Option LspEntry) (now : Int) (id : LSPID) :
    (requestFor db now id).lspID = id := by
  unfold requestFor
  split <;> rfl

theorem sequenceNumber_requestFor (db : LSPID → Option LspEntry) (now : Int) (id : LSPID) :
    (requestFor db now id).sequenceNumber = (db id).elim 0 (·.lsp.sequenceNumber) := by
  unfold requestFor
  cases db id <;> rfl

/-- **`transmitPSNP` on a LAN**: `ids` are asked for and lose their flag. -/
theorem transmitPSNP_lan {order : List LSPID} (hnodup : order.Nodup) (h : OnLan st dis peer now s) :
    ∃ ids : List LSPID, OnLan st dis peer now (s.transmitPSNP st.port .level2 now order).1 ∧
      (∀ p ∈ (s.transmitPSNP st.port .level2 now order).2, p.level = .level2) ∧
      ((s.transmitPSNP st.port .level2 now order).2.flatMap fun p => listedEntries p.tlvs) =
        ids.map (requestFor (s.entryAt .level2) now) ∧
      ids.Nodup ∧
      ∀ i, (s.transmitPSNP st.port .level2 now order).1.lanCell st.port i =
        { s.lanCell st.port i with ssn := !decide (i ∈ ids) && (s.lanCell st.port i).ssn } := by
  obtain ⟨c, hc, hlan⟩ := h.circuit
  have hready : c.floodReady .level2 = true := by simp [floodReady, hlan.lan]
  have hentry : psnpEntry (s.entryAt .level2) .level2 now c =
      requestFor (s.entryAt .level2) now := by
    funext id
    cases hid : s.entryAt .level2 id with
    | none => simp only [psnpEntry, requestFor, hid, hlan.acks id]
    | some e => simp only [psnpEntry, requestFor, hid]
  obtain ⟨hcleared, hflags⟩ := clearAll_lan (order.filter (c.ssnAt .level2)) hlan
  have hcfg : ∀ c' : Circuit, ((order.filter (c.ssnAt .level2)).foldl
      (fun c id => c.clearSSN .level2 id) c').cfg = c'.cfg :=
        cfg_foldl (f := fun c id => c.clearSSN .level2 id) (fun _ _ => rfl) _
  unfold transmitPSNP
  simp only [hc, hready, Bool.not_true, Bool.false_eq_true, or_false]
  split
  · refine ⟨[], h, fun _ hp => absurd hp not_mem_nil, rfl, .nil, fun i => ?_⟩
    simp
  refine ⟨order.filter (c.ssnAt .level2), h.onCircuit hcfg hc hcleared, ?_, ?_,
    hnodup.filter _, fun i => ?_⟩
  · intro p hp
    obtain ⟨chunk, -, rfl⟩ := mem_map.mp hp
    rfl
  · rw [flatMap_map, hentry]
    have hlist : ∀ chunk : List LSPEntry, listedEntries [TLV.lspEntries chunk] = chunk :=
      listedEntries_lspEntries
    simp only [hlist]
    rw [flatMap_id', (flatten_chunkEntries le_rfl).1]
  · rw [lanCell_onCircuit hcfg hc, lanCell_eq hc, (hflags i).1, (hflags i).2]

end Transmit

end Goisis.Server
