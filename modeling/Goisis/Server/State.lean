import Goisis.Server.Circuit

/-!
# The server's state

Model of the `IsisServer` record of `pkg/server/server.go` as far as the update process uses it,
with the helpers every operation shares: reading and writing an LSDB entry, flooding (`floodLSP`),
serialization under authentication (`serializeLSP`, `makePurge`), and construction
(`NewIsisServer`, `addCircuit`'s allocation).

A circuit pointer is the circuit's name, which the configuration keeps unique. Logging, metrics and
the FIB are left out. The HMAC implementation is a field of the state that nothing ever writes.

* `serializeLSP_fields` — what every LSP this node serializes carries, keyed level or not;
* `makePurge_ok` — building a purge never fails.
-/

namespace Goisis.Server

open Lib Packet

variable {p : LSP}

/-! ## Authentication specs -/

/-- `authSpec`. -/
structure AuthSpec where
  algo : AuthAlgorithm := .md5
  keyID : UInt16 := 0
  key : Bytes := []
  acceptKeys : List Bytes := []
deriving DecidableEq, Repr

/-- `on()`. -/
def AuthSpec.on (a : AuthSpec) : Bool := a.key.length > 0

/-- `verify(pdu, tlvOffset, isLSP)`: the signing key, or any accept key. -/
def AuthSpec.verify (a : AuthSpec) (hmac : Hmac) (pdu : Bytes) (tlvOffset : Nat) (isLSP : Bool) :
    Bool :=
  (a.key :: a.acceptKeys).any fun k => verifyAuth hmac pdu tlvOffset a.algo a.keyID k isLSP

/-- `authTLVPlaceholder(spec)`. -/
def authTLVPlaceholder (spec : AuthSpec) : TLV := authTLV spec.algo spec.keyID

/-! ## The state -/

/-- `IsisServer`. -/
structure IsisServer where
  hmac : Hmac
  systemID : SystemID
  circuits : List Circuit
  dbs : Level → Option LSDB
  levelCap : LevelSet
  authKeys : Level → AuthSpec
  lsdbEntryLimit : Int
  lspBufferSize : Int
  lspMTUCap : Int
  seqWrapUntil : Map LspKey Int
  overloadUntil : Option Int
  overloadManual : Bool
  spfDirty : Bool
  lspGenPending : Bool
  nextExtCircID : UInt32
  pseudonodeCursor : Nat

namespace IsisServer

variable (s : IsisServer)

/-- `authKey(level)`. -/
def authKey (level : Level) : AuthSpec := s.authKeys level

/-- `pduAuthOK(c, raw, pt, level, isLSP)`; the circuit is read for a metric only. -/
def pduAuthOK (raw : Bytes) (pt : PDUType) (level : Level) (isLSP : Bool) : Bool :=
  !(s.authKey level).on || (s.authKey level).verify s.hmac raw (headerLen pt) isLSP

/-- `isType()`: the union of the configured circuit levels. -/
def isType : UInt8 :=
  (if s.levelCap.has .level1 then 1 else 0) ||| (if s.levelCap.has .level2 then 2 else 0)

/-- `overloaded(now)`. -/
def overloaded (now : Int) : Bool :=
  s.overloadManual || match s.overloadUntil with
    | none => false
    | some t => now < t

/-- `markDirty()`. -/
def markDirty : IsisServer := { s with spfDirty := true }

/-- `requestLSPRegen()`. -/
def requestLSPRegen : IsisServer := { s with lspGenPending := true, spfDirty := true }

/-- `circuitNamed(name)`. -/
def circuitNamed (name : String) : Option Circuit :=
  s.circuits.find? (·.cfg.name = name)

/-- Applies a change to the circuit of a name. -/
def onCircuit (name : String) (f : Circuit → Circuit) : IsisServer :=
  { s with circuits := s.circuits.map fun c => if c.cfg.name = name then f c else c }

/-- `s.dbs[level].get(id)`. -/
def entryAt (level : Level) (id : LSPID) : Option LspEntry :=
  (s.dbs level).bind (·.lookup id)

/-- `s.dbs[level].entries[id] = e`. -/
def putEntry (level : Level) (id : LSPID) (e : LspEntry) : IsisServer :=
  { s with dbs := onLevel s.dbs level (·.insert id e) }

/-- `delete(s.dbs[level].entries, id)`. -/
def deleteEntry (level : Level) (id : LSPID) : IsisServer :=
  { s with dbs := onLevel s.dbs level (·.erase id) }

/-- The level's circuits get SRM for the LSP and lose SSN (one circuit of `floodLSP`). -/
def floodOn (level : Level) (id : LSPID) (now : Int) (c : Circuit) : Circuit :=
  if (c.srm level).isSome then (c.setSRM level id now).clearSSN level id else c

/-- `floodLSP(level, id, except, now)`; `none` floods on every circuit. -/
def floodLSP (level : Level) (id : LSPID) (except_ : Option String) (now : Int) : IsisServer :=
  { s with circuits :=
      s.circuits.map fun c => if some c.cfg.name = except_ then c else floodOn level id now c }

/-- The tail of every operation that stores an LSP of ours: `markDirty` and flood everywhere. -/
def storeAndFlood (level : Level) (id : LSPID) (e : LspEntry) (now : Int) : IsisServer :=
  ((s.putEntry level id e).markDirty).floodLSP level id none now

/-- `findAdjacency(id)`: the first Up adjacency to a system, over every circuit and level. -/
def findAdjacency (id : SystemID) : Option (Adjacency × Circuit) :=
  s.circuits.findSome? fun c =>
    if c.cfg.p2p then
      match c.p2pAdj with
      | none => none
      | some a => if a.state = .up ∧ a.systemID = id then some (a, c) else none
    else
      c.cfg.levels.findSome? fun level =>
        match (c.adjs level).bind (·.lookup id) with
        | none => none
        | some a => if a.state = .up then some (a, c) else none

/-- `ownsLSP(level, id)`. -/
def ownsLSP (level : Level) (id : LSPID) : Bool :=
  if id.nodeID.systemID ≠ s.systemID then false
  else if id.nodeID.pseudonodeID = 0 then true
  else s.circuits.any fun c =>
    c.pseudonodeID = id.nodeID.pseudonodeID ∧ c.isDIS level s.systemID = true

/-! ## Serialization -/

/-- `serializeLSP(lsp)`: the bytes, finalized when the level is keyed, and the struct with the
checksum `Serialize` cached on it. -/
def serializeLSP (lsp : LSP) : Except CodecError (Bytes × LSP) :=
  match lsp.serialize with
  | .error e => .error e
  | .ok (raw, lsp) =>
    let spec := s.authKey lsp.level
    if spec.on then
      match finalizeLSPAuth s.hmac raw spec.algo spec.keyID spec.key with
      | .error e => .error e
      | .ok raw => .ok (raw, lsp)
    else .ok (raw, lsp)

/-- The header-only LSP of `makePurge`, before serialization. -/
def purgeLSP (level : Level) (id : LSPID) (seq : UInt32) : LSP where
  level := level
  remainingTime := 0
  lspID := id
  sequenceNumber := seq
  isType := s.isType
  tlvs := .unknown tlvTypePurgeOriginatorID (1 :: s.systemID.val) ::
    (if (s.authKey level).on then [authTLVPlaceholder (s.authKey level)] else [])

/-- `makePurge(level, id, seq)`. -/
def makePurge (level : Level) (id : LSPID) (seq : UInt32) : Except CodecError (Bytes × LSP) :=
  s.serializeLSP (s.purgeLSP level id seq)

/-! ## Reading back an entry -/

section Entries

variable {s : IsisServer} {level level' : Level} {id id' : LSPID} {e : LspEntry} {now : Int}
  {name : String} {f : Circuit → Circuit}

theorem entryAt_putEntry :
    (s.putEntry level id e).entryAt level' id' =
      if level' = level ∧ id' = id ∧ (s.dbs level).isSome then some e else s.entryAt level' id' :=
  lookup_onLevel_insert

theorem entryAt_deleteEntry :
    (s.deleteEntry level id).entryAt level' id' =
      if level' = level ∧ id' = id then none else s.entryAt level' id' :=
  lookup_onLevel_erase

theorem entryAt_storeAndFlood :
    (s.storeAndFlood level id e now).entryAt level' id' =
      if level' = level ∧ id' = id ∧ (s.dbs level).isSome then some e else s.entryAt level' id' :=
  entryAt_putEntry

theorem dbs_isSome_of_entryAt (h : s.entryAt level id = some e) : (s.dbs level).isSome = true := by
  unfold entryAt at h
  cases hd : s.dbs level with
  | none => rw [hd] at h; cases h
  | some db => rfl

@[simp] theorem entryAt_markDirty : s.markDirty.entryAt level id = s.entryAt level id := rfl

@[simp] theorem entryAt_floodLSP {x : Option String} :
    (s.floodLSP level' id' x now).entryAt level id = s.entryAt level id := rfl

theorem circuitNamed_map {g : Circuit → Circuit} (hg : ∀ c, (g c).cfg = c.cfg) (n : String) :
    ({ s with circuits := s.circuits.map g } : IsisServer).circuitNamed n =
      (s.circuitNamed n).map g := by
  have hname : (fun c : Circuit => decide (c.cfg.name = n)) ∘ g =
      fun c => decide (c.cfg.name = n) := by
    funext c
    rw [Function.comp_apply, hg]
  unfold circuitNamed
  rw [List.find?_map, hname]

theorem name_of_circuitNamed {c : Circuit} (h : s.circuitNamed name = some c) :
    c.cfg.name = name := by
  simpa [circuitNamed] using List.find?_some h

/-- What a change of one circuit keeps of it, it keeps of all. -/
theorem map_onCircuit {α : Type} {g : Circuit → α}
    (h : ∀ c ∈ s.circuits, c.cfg.name = name → g (f c) = g c) :
    (s.onCircuit name f).circuits.map g = s.circuits.map g := by
  simp only [onCircuit, List.map_map]
  refine List.map_congr_left fun c hc => ?_
  simp only [Function.comp_apply]
  split
  · exact h c hc ‹_›
  · rfl

/-- A change of one circuit shows under its name only. -/
theorem circuitNamed_onCircuit (hf : ∀ c, (f c).cfg = c.cfg) (n : String) :
    (s.onCircuit name f).circuitNamed n =
      (s.circuitNamed n).map fun c => if n = name then f c else c := by
  have hg : ∀ c : Circuit, (if c.cfg.name = name then f c else c).cfg = c.cfg := by
    intro c
    split
    · exact hf c
    · rfl
  unfold onCircuit
  rw [circuitNamed_map hg]
  cases hc : s.circuitNamed n with
  | none => rfl
  | some c => simp only [Option.map_some, name_of_circuitNamed hc]

theorem circuitNamed_onCircuit_self {c : Circuit} (hf : ∀ c, (f c).cfg = c.cfg)
    (hc : s.circuitNamed name = some c) : (s.onCircuit name f).circuitNamed name = some (f c) := by
  rw [circuitNamed_onCircuit hf, hc, Option.map_some, if_pos rfl]

theorem cfg_floodOn (c : Circuit) : (floodOn level id now c).cfg = c.cfg := by
  unfold floodOn
  split <;> rfl

/-- Flooding reaches every circuit but the one left out. -/
theorem circuitNamed_floodLSP (level : Level) (id : LSPID) (x : Option String) (now : Int)
    (n : String) : (s.floodLSP level id x now).circuitNamed n =
      (s.circuitNamed n).map fun c => if some n = x then c else floodOn level id now c := by
  have hg : ∀ c : Circuit, (if some c.cfg.name = x then c else floodOn level id now c).cfg =
      c.cfg := by
    intro c
    split
    · rfl
    · exact cfg_floodOn c
  unfold floodLSP
  rw [circuitNamed_map hg]
  cases hc : s.circuitNamed n with
  | none => rfl
  | some c => simp only [Option.map_some, name_of_circuitNamed hc]

/-- Storing twice under one ID keeps the second entry only. -/
theorem putEntry_putEntry {e' : LspEntry} :
    (s.putEntry level id e).putEntry level id e' = s.putEntry level id e' := by
  unfold putEntry onLevel
  simp only [Function.update_self, Function.update_idem, Option.map_map]
  cases s.dbs level with
  | none => rfl
  | some db => simp [AList.insert_insert]

@[simp] theorem entryAt_onCircuit :
    (s.onCircuit name f).entryAt level id = s.entryAt level id := rfl

end Entries

/-! ## What this node serializes -/

/-- **What `serializeLSP` returns**: bytes whose header fields are the struct's and whose checksum
verifies. The checksum cached on the struct is the one in the bytes only when the level is not
keyed: `FinalizeLSPAuth` rewrites the bytes behind it. -/
theorem serializeLSP_fields {s : IsisServer} {p' : LSP} {raw : Bytes}
    (h : s.serializeLSP p = .ok (raw, p')) :
    p'.HeaderAgrees raw ∧ lspChecksumValidRaw raw = true ∧ p' = { p with checksum := p'.checksum } ∧
      ((s.authKey p.level).on = false → u16At raw 24 = p'.checksum) := by
  unfold serializeLSP at h
  cases hs : p.serialize with
  | error e => rw [hs] at h; cases h
  | ok r =>
    obtain ⟨raw₀, p₀⟩ := r
    obtain ⟨hagree, hsum, hvalid, heq⟩ := serialize_fields hs
    have hlevel : p₀.level = p.level := by rw [heq]
    rw [hs] at h
    simp only [hlevel] at h
    split at h
    · rename_i hon
      split at h
      · cases h
      rename_i raw₁ hfin
      cases h
      obtain ⟨hlen, hat, hvalid'⟩ := finalizeLSPAuth_fields hagree.length hfin
      refine ⟨?_, hvalid', heq, fun hoff => absurd hon (by rw [hoff]; simp)⟩
      exact hagree.congr (by rw [hlen]) (hat 4 (by decide)) fun j _ hj => hat j hj
    · cases h
      exact ⟨hagree, hvalid, heq, fun _ => hsum⟩

/-- Whether `serializeLSP` succeeds is decided by the TLVs and, on a keyed level, by the scan for
the digest; neither the rest of the header nor the HMAC plays a part. -/
theorem serializeLSP_ok_iff {s : IsisServer} :
    (∃ r, s.serializeLSP p = .ok r) ↔ ∃ tlvs, serializeTLVs p.tlvs = .ok tlvs ∧
      ((s.authKey p.level).on = true → (authScan (s.authKey p.level).algo (s.authKey p.level).keyID
        (lspHeaderLen + tlvs.length) lspHeaderLen tlvs false none).isSome = true) := by
  unfold serializeLSP LSP.serialize
  cases ht : serializeTLVs p.tlvs with
  | error e => simp
  | ok tlvs =>
    simp only [LSP.render_putU16, finalizeLSPAuth, patchAuth, authDigestRange, LSP.length_render,
      LSP.drop_render, Except.ok.injEq, exists_eq_left']
    by_cases hon : (s.authKey p.level).on = true
    · cases hscan : authScan (s.authKey p.level).algo (s.authKey p.level).keyID
        (lspHeaderLen + tlvs.length) lspHeaderLen tlvs false none with
      | none => simp [hon]
      | some r => simp [hon]
    · simp [hon]

/-- Two LSPs with the same TLVs at the same level serialize alike, also on another server with the
same keys. -/
theorem serializeLSP_ok_congr {s s' : IsisServer} {q : LSP} (hkeys : s'.authKeys = s.authKeys)
    (hlevel : q.level = p.level) (htlvs : q.tlvs = p.tlvs) (h : ∃ r, s.serializeLSP p = .ok r) :
    ∃ r, s'.serializeLSP q = .ok r := by
  rw [serializeLSP_ok_iff] at h ⊢
  unfold authKey at h ⊢
  rw [hkeys, hlevel, htlvs]
  exact h

theorem serializeTLVs_purge (level : Level) (id : LSPID) (seq : UInt32) :
    ∃ other, frame tlvTypePurgeOriginatorID (1 :: s.systemID.val) = some other ∧
      (((s.authKey level).on = false ∧ serializeTLVs (s.purgeLSP level id seq).tlvs = .ok other) ∨
        ∃ auth, frame tlvTypeAuthentication ((s.authKey level).algo.authType ::
            (s.authKey level).algo.placeholder (s.authKey level).keyID) = some auth ∧
          serializeTLVs (s.purgeLSP level id seq).tlvs = .ok (other ++ auth)) := by
  have hlen : (1 :: s.systemID.val).length ≤ 255 := by simp [s.systemID.property]
  have halen : ((s.authKey level).algo.authType ::
      (s.authKey level).algo.placeholder (s.authKey level).keyID).length ≤ 255 := by
    have := length_placeholder (s.authKey level).algo (s.authKey level).keyID
    rw [List.length_cons]
    omega
  obtain ⟨other, hframe, hother⟩ := encodeTLV_ok tlvTypePurgeOriginatorID hlen
  obtain ⟨auth, haframe, hauth⟩ := encodeTLV_ok tlvTypeAuthentication halen
  refine ⟨other, hframe, ?_⟩
  cases hon : (s.authKey level).on with
  | false =>
    left
    simp [purgeLSP, hon, serializeTLVs, writeAll, TLV.serialize, hother]
  | true =>
    right
    refine ⟨auth, haframe, ?_⟩
    simp [purgeLSP, hon, serializeTLVs, writeAll, TLV.serialize, hother, hauth, authTLVPlaceholder,
      authTLV]

/-- **A purge can always be built**: the body is the Purge Originator Identification TLV and, on a
keyed level, the placeholder whose digest is then found. -/
theorem makePurge_ok (level : Level) (id : LSPID) (seq : UInt32) :
    ∃ raw p, s.makePurge level id seq = .ok (raw, p) := by
  have hok : ∃ r, s.serializeLSP (s.purgeLSP level id seq) = .ok r := by
    rw [serializeLSP_ok_iff]
    obtain ⟨other, hframe, ⟨hoff, htlvs⟩ | ⟨auth, haframe, htlvs⟩⟩ :=
      serializeTLVs_purge s level id seq
    · exact ⟨other, htlvs, fun hon => absurd hon (by simp [purgeLSP, hoff])⟩
    refine ⟨other ++ auth, htlvs, fun _ => ?_⟩
    have hfuel : lspHeaderLen + (other ++ auth).length = 25 + (other ++ auth).length + 2 := by
      unfold lspHeaderLen
      omega
    rw [hfuel]
    exact authScan_isSome _ hframe (by decide) haframe
  obtain ⟨⟨raw, p⟩, h⟩ := hok
  exact ⟨raw, p, h⟩

end IsisServer

/-! ## Construction -/

/-- The options `NewIsisServer` reads here; `areaAuth` and `domainAuth` are the resolved specs. -/
structure Options where
  hmac : Hmac
  systemID : SystemID
  circuits : List CircuitConfig
  areaAuth : AuthSpec := {}
  domainAuth : AuthSpec := {}
  lsdbEntryLimit : Int := 0
  lspMTU : Int := 0
  overloadUntil : Option Int := none

/-- `validate()` and `applyDefaults()` on the circuits: at most 255, named, and named apart. -/
def Options.circuitsValid (o : Options) : Bool :=
  o.circuits.length ≤ 255 ∧ (o.circuits.all fun c => c.name ≠ "" ∧ (c.level1 || c.level2)) ∧
    (o.circuits.map (·.name)).Nodup

namespace IsisServer

/-- The search of `allocCircuitIDs` for a pseudonode octet no circuit uses. -/
def nextPseudonode (used : List UInt8) : Nat → Nat → Option Nat
  | 0, _ => none
  | tries + 1, cursor =>
    let cursor := cursor % 255 + 1
    if used.contains (UInt8.ofNat cursor) then nextPseudonode used tries cursor else some cursor

/-- `setLSPBufferSize()`. -/
def setLSPBufferSize (s : IsisServer) : IsisServer :=
  let cap := if s.lspMTUCap > 0 ∧ s.lspMTUCap < 1492 then s.lspMTUCap else 1492
  { s with lspBufferSize := s.circuits.foldl (fun b c => min b (c.cfg.mtu - 3)) cap }

/-- The part of `NewIsisServer` and `addCircuit` that brings a circuit in: its IDs, the circuit, and
a database for each of its levels that has none. -/
def installCircuit (s : IsisServer) (cfg : CircuitConfig) : Option IsisServer :=
  match nextPseudonode (s.circuits.map (·.pseudonodeID)) 255 s.pseudonodeCursor with
  | none => none
  | some cursor =>
    let ext := s.nextExtCircID + 1
    some { s with
      circuits := s.circuits ++ [newCircuit cfg (UInt8.ofNat cursor) ext]
      nextExtCircID := ext
      pseudonodeCursor := cursor
      dbs := fun l => if cfg.levelSet.has l ∧ (s.dbs l).isNone then some ∅ else s.dbs l
      levelCap := ⟨s.levelCap.l1 || cfg.level1, s.levelCap.l2 || cfg.level2⟩ }

/-- `installCircuit` for each configured circuit in order. -/
def installCircuits (s : IsisServer) : List CircuitConfig → Option IsisServer
  | [] => some s
  | cfg :: cfgs =>
    match s.installCircuit cfg with
    | none => none
    | some s => s.installCircuits cfgs

/-- The server before its circuits are installed. -/
def blank (o : Options) : IsisServer where
  hmac := o.hmac
  systemID := o.systemID
  circuits := []
  dbs := fun _ => none
  levelCap := {}
  authKeys := fun
    | .level1 => o.areaAuth
    | .level2 => o.domainAuth
  lsdbEntryLimit := o.lsdbEntryLimit
  lspBufferSize := 0
  lspMTUCap := o.lspMTU
  seqWrapUntil := ∅
  overloadUntil := o.overloadUntil
  overloadManual := false
  spfDirty := false
  lspGenPending := false
  nextExtCircID := 0
  pseudonodeCursor := 0

end IsisServer

/-- `NewIsisServer(opts…)`; `none` is the error return. -/
def newIsisServer (o : Options) : Option IsisServer :=
  if !o.circuitsValid then none
  else
    match (IsisServer.blank o).installCircuits o.circuits with
    | none => none
    | some s =>
      let s := s.setLSPBufferSize
      if s.lspBufferSize < 512 then none else some s

variable {o : Options} {s : IsisServer}

/-- **What a start builds**: what holds of the blank server, survives each circuit and does not hang
on the LSP buffer size holds of the server. -/
theorem newIsisServer_induction {P : IsisServer → Prop} (h : newIsisServer o = some s)
    (blank : P (.blank o)) (install : ∀ a cfg b, a.installCircuit cfg = some b → P a → P b)
    (size : ∀ a, P a → P a.setLSPBufferSize) : P s := by
  have hall : ∀ cfgs a b, a.installCircuits cfgs = some b → P a → P b := by
    intro cfgs
    induction cfgs with
    | nil =>
      rintro a b ⟨⟩ ha
      exact ha
    | cons cfg cfgs ih =>
      intro a b h ha
      unfold IsisServer.installCircuits at h
      cases hi : a.installCircuit cfg with
      | none => rw [hi] at h; cases h
      | some a' =>
        rw [hi] at h
        exact ih a' b h (install a cfg a' hi ha)
  unfold newIsisServer at h
  split at h
  · cases h
  cases hi : (IsisServer.blank o).installCircuits o.circuits with
  | none => rw [hi] at h; cases h
  | some b =>
    rw [hi] at h
    simp only at h
    split at h
    · cases h
    · cases h
      exact size b (hall _ _ _ hi blank)

/-- A constructed server holds no entry. -/
theorem entryAt_newIsisServer (h : newIsisServer o = some s) :
    ∀ level id, s.entryAt level id = none := by
  refine newIsisServer_induction (P := fun s => ∀ l i, s.entryAt l i = none) h (fun _ _ => rfl)
    (fun a cfg b hi ha l i => ?_) fun _ ha => ha
  unfold IsisServer.installCircuit at hi
  split at hi
  · cases hi
  cases hi
  have hl := ha l i
  simp only [IsisServer.entryAt] at hl ⊢
  split
  · rfl
  · exact hl

/-- A constructed server has the configured system ID and holds no ID down. -/
theorem newIsisServer_frame (h : newIsisServer o = some s) :
    s.systemID = o.systemID ∧ s.seqWrapUntil = ∅ := by
  refine newIsisServer_induction (P := fun s => s.systemID = o.systemID ∧ s.seqWrapUntil = ∅) h
    ⟨rfl, rfl⟩ (fun a cfg b hi ha => ?_) fun _ ha => ha
  unfold IsisServer.installCircuit at hi
  split at hi
  · cases hi
  · cases hi
    exact ha

end Goisis.Server
