import Goisis.Server.State

/-!
# The adjacency state machine

Model of `pkg/server/hello.go` on one circuit: what a received hello does to the adjacencies
(`processLANHello`, `processP2PHello`), how adjacencies go away (`teardownP2PAdj`,
`dropAdjacencies`), the DIS election (`dis.go`), and the helper side of a graceful restart
(`restart.go`).

Everything here reads and writes one circuit, so a function returns what the Serve loop has to take
up (`Heard`): the circuit, the adjacency events for the subscribers in the order they are sent,
whether a regeneration of this node's LSPs is requested, and the levels to synchronize. The hellos
sent in answer, the log, the metrics, the area addresses an adjacency records and the window of
RFC 7987 (both read by neither) are left out.

A range over a map of adjacencies takes the order of an `AdjScan`.

* `dis_electDIS` — an election writes one level's DIS and nothing else.
-/

namespace Goisis.Server

open Lib Packet

/-! ## Defaults -/

/-- `DefaultPriority`. -/
def defaultPriority : UInt8 := 64

/-- `DefaultAdjacencyLimit`. -/
def defaultAdjacencyLimit : Int := 128

/-- `priority()`. -/
def CircuitConfig.disPriority (c : CircuitConfig) : UInt8 := c.priority.getD defaultPriority

/-- `adjacencyLimit()`; zero or less is no limit. -/
def CircuitConfig.neighborLimit (c : CircuitConfig) : Int :=
  c.adjacencyLimit.getD defaultAdjacencyLimit

/-- `helloSpec()`. -/
def Circuit.helloSpec (c : Circuit) : AuthSpec :=
  if c.cfg.helloPassword.isEmpty then {}
  else
    { algo := c.cfg.helloAuthAlgorithm
      keyID := c.cfg.helloKeyID
      key := c.cfg.helloPassword
      acceptKeys := c.cfg.helloAcceptPasswords }

/-- `helloAuthOK(c, raw, pt)`. -/
def Circuit.helloAuthOK (c : Circuit) (hmac : Hmac) (raw : Bytes) (pt : PDUType) : Bool :=
  !c.helloSpec.on || c.helloSpec.verify hmac raw (headerLen pt) false

/-! ## What a hello carries -/

/-- `ipv4AddrsOf(tlvs)`. -/
def ipv4AddrsOf (tlvs : List TLV) : List Addr :=
  (tlvs.findSome? fun
    | .ipInterfaceAddresses as => some as
    | _ => none).getD []

/-- `ipv6AddrsOf(tlvs)`. -/
def ipv6AddrsOf (tlvs : List TLV) : List Addr :=
  (tlvs.findSome? fun
    | .ipv6InterfaceAddresses as => some as
    | _ => none).getD []

/-- `nlpidsOf(tlvs)`; a hello without the TLV and one that lists nothing read alike
(`routesFamily`). -/
def nlpidsOf (tlvs : List TLV) : Bytes :=
  (tlvs.findSome? fun
    | .protocolsSupported nlpids => some nlpids
    | _ => none).getD []

/-- `areaAddressesOf(tlvs)`. -/
def areaAddressesOf (tlvs : List TLV) : List Bytes :=
  (tlvs.findSome? fun
    | .areaAddresses as => some as
    | _ => none).getD []

/-- `snpaListed(tlvs, want)`. -/
def snpaListed (tlvs : List TLV) (want : SNPA) : Bool :=
  tlvs.any fun
    | .isNeighbors ns => ns.contains want
    | _ => false

/-- `threeWayTLV(tlvs)`. -/
def threeWayTLV (tlvs : List TLV) : Option P2PThreeWay :=
  tlvs.findSome? fun
    | .p2pThreeWayAdjacency a => some a
    | _ => none

/-- `restartTLVOf(tlvs)`. -/
def restartTLVOf (tlvs : List TLV) : Option Restart :=
  tlvs.findSome? fun
    | .restart r => some r
    | _ => none

/-- The RR bit of a hello. -/
def requestsRestart (tlvs : List TLV) : Bool := (restartTLVOf tlvs).any (·.restartRequest)

/-- `areasOverlap(a, b)`. -/
def areasOverlap (a b : List Bytes) : Bool := a.any fun x => b.contains x

/-- `commonLevels(c, neighbor)`. -/
def commonLevels (c : CircuitConfig) (neighbor : UInt8) : LevelSet where
  l1 := c.level1 && neighbor &&& 1 != 0
  l2 := c.level2 && neighbor &&& 2 != 0

/-! ## Graceful restart -/

/-- `noteRestart(adj, rt, held, holding, now)`: of the requests that hold an adjacency only the
first refreshes it, and none installs its own holding time. -/
def Adjacency.noteRestart (a : Adjacency) (rt : Option Restart) (held : Bool) (holding : UInt16)
    (now : Int) : Adjacency :=
  let noted := { a with
    restartCapable := rt.isSome
    suppressed := rt.any (·.suppressAdjacency)
    restartMode := rt.any (·.restartRequest) }
  if !held then { noted with holding := holding, lastHeard := now }
  else if !a.restartMode then { noted with lastHeard := now }
  else noted

/-- The edge `reportRestart` returns. -/
def Adjacency.restartEdge (before after : Adjacency) : Bool :=
  after.restartMode != before.restartMode || after.suppressed != before.suppressed

/-- `restartRemainingTime(adj, now)`. -/
def Adjacency.remainingTime (a : Adjacency) (now : Int) : UInt16 :=
  let hold := a.holding.toNat * second
  let left := hold - (now - a.lastHeard)
  if left ≤ 0 then 0
  else if hold ≤ left then a.holding
  else UInt16.ofNat (left / second).toNat

/-- `expired(adj, now)`. -/
def Adjacency.expired (a : Adjacency) (now : Int) : Bool :=
  a.holding.toNat * second < now - a.lastHeard

/-- What the election reads of an adjacency differs. -/
def Adjacency.electionDiffers (before after : Adjacency) : Bool :=
  before.priority != after.priority || before.snpa != after.snpa || before.lanID != after.lanID

/-- The addresses `setNeighborAddrs` compares differ. -/
def Adjacency.addrsDiffer (before after : Adjacency) : Bool :=
  before.neighborIPv4 != after.neighborIPv4 || before.neighborIPv6 != after.neighborIPv6

/-- The record a hello from a new neighbour starts from. -/
def Adjacency.unheard (id : SystemID) : Adjacency where
  systemID := id
  snpa := Octets.zero 6
  state := .down

/-! ## Events -/

/-- `AdjacencyInfo`; the host name is resolved outside the stream. -/
structure AdjacencyInfo where
  interface : String
  level : Level
  systemID : SystemID
  snpa : SNPA
  state : AdjState
  priority : UInt8
  holding : UInt16
  holdingRemaining : UInt16
  restarting : Bool
  suppressed : Bool
deriving DecidableEq, Repr

/-- What the Serve loop takes up after a function of this module. -/
structure Heard where
  circuit : Circuit
  events : List AdjacencyInfo := []
  regen : Bool := false
  syncs : List Level := []

namespace Circuit

/-- `infoFor(adj, l, now)`. -/
def infoFor (c : Circuit) (adj : Adjacency) (l : Level) (now : Int) : AdjacencyInfo where
  interface := c.cfg.name
  level := l
  systemID := adj.systemID
  snpa := adj.snpa
  state := adj.state
  priority := adj.priority
  holding := adj.holding
  holdingRemaining := adj.remainingTime now
  restarting := adj.restartMode
  suppressed := adj.suppressed

/-- The event of `emitAdjacencyDown(c, adj, level)`. -/
def downFor (c : Circuit) (adj : Adjacency) (l : Level) (now : Int) : AdjacencyInfo :=
  { c.infoFor adj l now with state := .down }

/-! ## Election of the DIS -/

end Circuit

/-- `higherCandidate(p1, s1, p2, s2)`. -/
def higherCandidate (p₁ : UInt8) (s₁ : SNPA) (p₂ : UInt8) (s₂ : SNPA) : Bool :=
  if p₁ ≠ p₂ then p₂ < p₁ else decide (s₂.val < s₁.val)

/-- The orders in which the ranges over a circuit's adjacency maps visit them: the election, the
search for the winner's LAN ID, and the removal. -/
structure AdjScan where
  candidates : List Adjacency → List Adjacency
  holders : List Adjacency → List Adjacency
  doomed : List SystemID → List SystemID
  candidates_perm : ∀ l, (candidates l).Perm l
  holders_perm : ∀ l, (holders l).Perm l
  doomed_perm : ∀ l, (doomed l).Perm l

/-- The order of the entries. -/
def AdjScan.inOrder : AdjScan where
  candidates := id
  holders := id
  doomed := id
  candidates_perm := fun _ => .rfl
  holders_perm := fun _ => .rfl
  doomed_perm := fun _ => .rfl

/-- The candidate an election ends with; `ours` while no neighbour beat this node. -/
structure Candidate where
  priority : UInt8
  snpa : SNPA
  ours : Bool

/-- One candidate of the loop of `electDIS`. -/
def Candidate.against (best : Candidate) (adj : Adjacency) : Candidate :=
  if higherCandidate adj.priority adj.snpa best.priority best.snpa then
    ⟨adj.priority, adj.snpa, false⟩
  else best

namespace Circuit

variable (c : Circuit)

/-- `winningLANID(c, level, snpa)`. -/
def winningLANID (level : Level) (snpa : SNPA) (scan : AdjScan) : NodeID :=
  ((scan.holders (c.upAdjacencies level)).find? (·.snpa = snpa)).elim zeroNodeID (·.lanID)

/-- `electDIS(c, level)`. -/
def electDIS (self : SystemID) (level : Level) (scan : AdjScan) : Circuit :=
  if c.cfg.p2p then c
  else
    let best := (scan.candidates (c.upAdjacencies level)).foldl Candidate.against
      ⟨c.cfg.disPriority, c.cfg.localSNPA, true⟩
    if best.ours then { c with dis := Function.update c.dis level ⟨self, c.pseudonodeID⟩ }
    else
      let lan := c.winningLANID level best.snpa scan
      if lan ≠ zeroNodeID then { c with dis := Function.update c.dis level lan } else c

/-- An election writes one level's DIS and nothing else. -/
theorem dis_electDIS (self : SystemID) (level : Level) (scan : AdjScan) :
    ∃ lan, c.electDIS self level scan = { c with dis := Function.update c.dis level lan } := by
  have hkeep : c = { c with dis := Function.update c.dis level (c.dis level) } := by
    rw [Function.update_eq_self]
  unfold electDIS
  split
  · exact ⟨_, hkeep⟩
  simp only
  split
  · exact ⟨_, rfl⟩
  split
  · exact ⟨_, rfl⟩
  · exact ⟨_, hkeep⟩

/-- `restartSyncEligible(c, level)`. -/
def restartSyncEligible (level : Level) : Bool :=
  (c.upAdjacencies level).all fun adj =>
    adj.restartMode || !adj.restartCapable ||
      !higherCandidate adj.priority adj.snpa c.cfg.disPriority c.cfg.localSNPA

/-! ## Adjacencies going away -/

/-- `clearFlags()`. -/
def clearFlags : Circuit :=
  { c with
    srm := fun l => if c.cfg.levelSet.has l then (c.srm l).map fun _ => ∅ else c.srm l
    ssn := fun l => if c.cfg.levelSet.has l then (c.ssn l).map fun _ => ∅ else c.ssn l
    ssnAck := fun l => if c.cfg.levelSet.has l then (c.ssnAck l).map fun _ => ∅ else c.ssnAck l }

/-- `teardownP2PAdj(c, adj, reason)`. -/
def teardownP2PAdj (adj : Adjacency) (now : Int) : Heard where
  circuit := { c with p2pAdj := none }.clearFlags
  events := adj.levels.levels.map fun l => c.downFor adj l now
  regen := true

/-- The neighbours at a level that `drop` selects, in the order of the range. -/
def doomed (c : Circuit) (drop : Adjacency → Bool) (level : Level) (scan : AdjScan) :
    List SystemID :=
  scan.doomed ((c.adjs level).elim [] fun m => (m.entries.filter fun e => drop e.2).map (·.1))

/-- One neighbour of the loop of `dropAdjacencies`. -/
def dropNeighbor (self : SystemID) (level : Level) (scan : AdjScan) (now : Int) (r : Heard)
    (id : SystemID) : Heard :=
  match (r.circuit.adjs level).bind (·.lookup id) with
  | none => r
  | some adj =>
    { r with
      circuit := { r.circuit with adjs := onLevel r.circuit.adjs level (·.erase id) }.electDIS self
        level scan
      events := r.events ++ [r.circuit.downFor adj level now]
      regen := true }

/-- `dropAdjacencies(c, reason, drop)`. -/
def dropAdjacencies (self : SystemID) (drop : Adjacency → Bool) (scan : AdjScan) (now : Int) :
    Heard :=
  if c.cfg.p2p then
    match c.p2pAdj with
    | none => ⟨c, [], false, []⟩
    | some adj => if drop adj then c.teardownP2PAdj adj now else ⟨c, [], false, []⟩
  else
    c.cfg.levels.foldl (fun r l =>
      (c.doomed drop l scan).foldl (dropNeighbor self l scan now) r) ⟨c, [], false, []⟩

/-! ## Hellos on a LAN -/

/-- `atAdjacencyLimit(id)`. -/
def atAdjacencyLimit (id : SystemID) : Bool :=
  let seen := (c.cfg.levels.flatMap fun l => (c.adjs l).elim [] (·.keys)).dedup
  0 < c.cfg.neighborLimit && !c.cfg.p2p && !seen.contains id && c.cfg.neighborLimit ≤ seen.length

/-- The checks of `processLANHello`: a hello that fails one of them is dropped. -/
def admitsLAN (self : SystemID) (areas : List Bytes) (h : LANHello) : Bool :=
  !c.cfg.p2p && h.holdingTime != 0 && h.sourceID != self && (c.adjs h.level).isSome &&
    (h.level != .level1 || areasOverlap areas (areaAddressesOf h.tlvs)) &&
    (((c.adjs h.level).bind (·.lookup h.sourceID)).isSome || !c.atAdjacencyLimit h.sourceID)

/-- The adjacency a hello is about: the one held, or a fresh record. -/
def lanNeighbor (h : LANHello) : Adjacency :=
  ((c.adjs h.level).bind (·.lookup h.sourceID)).getD (Adjacency.unheard h.sourceID)

/-- `holdForRestart` of `processLANHello`. -/
def holdsLAN (src : SNPA) (h : LANHello) : Bool :=
  requestsRestart h.tlvs && (c.lanNeighbor h).state == .up && (c.lanNeighbor h).snpa == src

/-- The state a hello moves its adjacency to: Up once the neighbour echoes our address. -/
def lanState (src : SNPA) (h : LANHello) : AdjState :=
  if c.holdsLAN src h || snpaListed h.tlvs c.cfg.localSNPA then .up else .init

/-- The adjacency after a hello. -/
def lanHeard (src : SNPA) (h : LANHello) (now : Int) : Adjacency :=
  let adj := { c.lanNeighbor h with snpa := src, priority := h.priority, lanID := h.lanID }
  { adj.noteRestart (restartTLVOf h.tlvs) (c.holdsLAN src h) h.holdingTime now with
    state := c.lanState src h
    levels := adj.levels.add h.level
    neighborIPv4 := ipv4AddrsOf h.tlvs
    neighborIPv6 := ipv6AddrsOf h.tlvs
    nlpids := nlpidsOf h.tlvs }

/-- `processLANHello(c, src, h)`. -/
def processLANHello (self : SystemID) (areas : List Bytes) (src : SNPA) (h : LANHello) (now : Int)
    (scan : AdjScan) : Heard :=
  if !c.admitsLAN self areas h then ⟨c, [], false, []⟩
  else
    let before := c.lanNeighbor h
    let after := c.lanHeard src h now
    let stored := { c with adjs := onLevel c.adjs h.level (·.insert h.sourceID after) }
    let upChanged := (before.state == .up) != (after.state == .up)
    let elected := upChanged || (after.state == .up && before.electionDiffers after)
    let c' := if elected then stored.electDIS self h.level scan else stored
    { circuit := c'
      events :=
        if before.state ≠ after.state ∨ (before.restartEdge after = true ∧ after.state = .up) then
          [c.infoFor after h.level now]
        else []
      regen := elected ||
        (after.state == .up && (before.addrsDiffer after || after.suppressed != before.suppressed))
      syncs := if c.holdsLAN src h && c'.restartSyncEligible h.level then [h.level] else [] }

/-! ## Hellos on a point-to-point circuit -/

/-- The levels a hello's sender and this circuit have in common: Level 1 needs a common area. -/
def p2pLevels (areas : List Bytes) (h : P2PHello) : LevelSet :=
  let common := commonLevels c.cfg h.circuitType
  { common with l1 := common.l1 && areasOverlap areas (areaAddressesOf h.tlvs) }

/-- The checks of `processP2PHello`: a hello that fails one of them is dropped. -/
def admitsP2P (self : SystemID) (areas : List Bytes) (h : P2PHello) : Bool :=
  c.cfg.p2p && h.holdingTime != 0 && h.sourceID != self && c.p2pLevels areas h != {}

/-- `holdForRestart` of `processP2PHello`. -/
def holdsP2P (src : SNPA) (h : P2PHello) : Bool :=
  requestsRestart h.tlvs && c.p2pAdj.any fun a =>
    a.systemID == h.sourceID && a.state == .up && a.snpa == src

/-- The neighbour and circuit a hello's three-way option echoes. -/
def echoOf (h : P2PHello) : Option (SystemID × UInt32) := (threeWayTLV h.tlvs).bind (·.neighbor)

/-- The hello describes an adjacency to another router, or to another circuit. -/
def turnedAway (self : SystemID) (src : SNPA) (h : P2PHello) : Bool :=
  !c.holdsP2P src h && (echoOf h).any (· != (self, c.extCircID))

/-- The state a hello moves its adjacency to: Up once the neighbour echoes us. -/
def p2pState (self : SystemID) (src : SNPA) (h : P2PHello) : AdjState :=
  if c.holdsP2P src h || echoOf h == some (self, c.extCircID) then .up else .init

/-- The adjacency a hello is about: the one held, unless it is another neighbour's. -/
def p2pNeighbor (h : P2PHello) : Adjacency :=
  (c.p2pAdj.filter (·.systemID = h.sourceID)).getD (Adjacency.unheard h.sourceID)

/-- The adjacency after a hello. -/
def p2pHeard (self : SystemID) (areas : List Bytes) (src : SNPA) (h : P2PHello) (now : Int) :
    Adjacency :=
  let adj := { c.p2pNeighbor h with snpa := src }
  { adj.noteRestart (restartTLVOf h.tlvs) (c.holdsP2P src h) h.holdingTime now with
    state := c.p2pState self src h
    levels := c.p2pLevels areas h
    neighborIPv4 := ipv4AddrsOf h.tlvs
    neighborIPv6 := ipv6AddrsOf h.tlvs
    nlpids := nlpidsOf h.tlvs
    neighborExtCircID :=
      ((threeWayTLV h.tlvs).bind (·.extLocalCircuitID)).getD adj.neighborExtCircID }

/-- What happens to a neighbour the hello replaces. -/
def replaceP2P (h : P2PHello) (now : Int) : Heard :=
  match c.p2pAdj with
  | none => ⟨c, [], false, []⟩
  | some adj =>
    if adj.systemID = h.sourceID then ⟨c, [], false, []⟩ else c.teardownP2PAdj adj now

/-- The events of a hello about the adjacency itself. -/
def p2pEvents (before after : Adjacency) (now : Int) : List AdjacencyInfo :=
  if before.state ≠ after.state ∨ (after.state = .up ∧ before.levels ≠ after.levels) then
    after.levels.levels.map (c.infoFor after · now) ++
      if after.state = .up then
        (before.levels.levels.filter (!after.levels.has ·)).map (c.downFor after · now)
      else []
  else if before.restartEdge after = true ∧ after.state = .up then
    after.levels.levels.map (c.infoFor after · now)
  else []

/-- `processP2PHello(c, src, h)`. -/
def processP2PHello (self : SystemID) (areas : List Bytes) (src : SNPA) (h : P2PHello) (now : Int) :
    Heard :=
  if !c.admitsP2P self areas h then ⟨c, [], false, []⟩
  else if c.turnedAway self src h then
    -- only the current neighbour can take the adjacency down this way
    match c.p2pAdj with
    | none => ⟨c, [], false, []⟩
    | some adj =>
      if adj.systemID = h.sourceID then c.teardownP2PAdj adj now else ⟨c, [], false, []⟩
  else
    let torn := c.replaceP2P h now
    let before := c.p2pNeighbor h
    let after := c.p2pHeard self areas src h now
    let changed :=
      before.state != after.state || (after.state == .up && before.levels != after.levels)
    { circuit := { torn.circuit with p2pAdj := some after }
      events := torn.events ++ c.p2pEvents before after now
      regen := torn.regen || changed ||
        (after.state == .up && (before.addrsDiffer after || after.suppressed != before.suppressed))
      syncs :=
        (if changed && after.state == .up then
          after.levels.levels.filter fun l => before.state != .up || !before.levels.has l
        else []) ++
          if c.holdsP2P src h then after.levels.levels else [] }

end Circuit

end Goisis.Server
