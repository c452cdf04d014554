import Goisis.Packet.Auth
import Goisis.Server.Lsdb

/-!
# Circuits: configuration, adjacencies and flooding flags

Model of `pkg/server/circuit.go` with the adjacency record of `adjacency.go` and the configuration
of `config.go`, as far as the update and decision processes read them.

A circuit has, for each of its levels, the maps `srm` (LSPs to send, with the earliest time), `ssn`
(LSPs to report in the next PSNP) and `ssnAck` (headers to report verbatim). A level that is not
configured has no map, and setting or clearing a flag there does nothing. `srmAt`, `ssnAt` and
`ssnAckAt` read one flag; each flag operation is described by what it does to them.
-/

namespace Goisis.Server

open Lib Packet

/-! ## Level sets -/

/-- `levelSet`. -/
structure LevelSet where
  l1 : Bool := false
  l2 : Bool := false
deriving DecidableEq, Repr

/-- `has(l)`. -/
def LevelSet.has (s : LevelSet) : Level → Bool
  | .level1 => s.l1
  | .level2 => s.l2

/-- `add(l)`. -/
def LevelSet.add (s : LevelSet) : Level → LevelSet
  | .level1 => { s with l1 := true }
  | .level2 => { s with l2 := true }

/-- `levels()`. -/
def LevelSet.levels (s : LevelSet) : List Level := Level.all.filter s.has

/-- The zero node ID, what an unset `dis[level]` reads as. -/
def zeroNodeID : NodeID := ⟨Octets.zero 6, 0⟩

/-- `AdjState`. -/
inductive AdjState where
  | down
  | init
  | up
deriving DecidableEq, Repr

/-- `adjacency`: one per level and neighbour on a LAN, one for all common levels on a point-to-point
circuit. `lastHeard` is in nanoseconds, `holding` in seconds. -/
structure Adjacency where
  systemID : SystemID
  snpa : SNPA
  state : AdjState
  suppressed : Bool := false
  levels : LevelSet := {}
  neighborIPv4 : List Addr := []
  neighborIPv6 : List Addr := []
  nlpids : Bytes := []
  priority : UInt8 := 0
  lanID : NodeID := zeroNodeID
  holding : UInt16 := 0
  lastHeard : Int := 0
  restartCapable : Bool := false
  restartMode : Bool := false
  neighborExtCircID : UInt32 := 0
deriving DecidableEq, Repr

/-! ## Circuits -/

/-- `CircuitConfig`; `mtu` and `localSNPA` are `Transport.MTU()` and `Transport.LocalSNPA()`,
`helloInterval` is in nanoseconds. -/
structure CircuitConfig where
  name : String
  mtu : Int
  p2p : Bool
  level1 : Bool
  level2 : Bool
  metric : UInt32
  priority : Option UInt8 := none
  adminGroup : List UInt32 := []
  ipv4Addrs : List Addr := []
  ipv6Addrs : List Addr := []
  connectedPrefixes : List Prefix := []
  helloPassword : Bytes := []
  helloAcceptPasswords : List Bytes := []
  helloInterval : Int := 0
  holdingMultiplier : Int := 0
  padding : Option Bool := none
  adjacencyLimit : Option Int := none
  helloAuthAlgorithm : AuthAlgorithm := .md5
  helloKeyID : UInt16 := 0
  localSNPA : SNPA := Octets.zero 6
deriving DecidableEq, Repr

/-- A Level 1 circuit over Ethernet, without addresses. -/
def ethernet (name : String) (p2p : Bool) (metric : UInt32) : CircuitConfig where
  name := name
  mtu := 1500
  p2p := p2p
  level1 := true
  level2 := false
  metric := metric

/-- `(*CircuitConfig).levels`. -/
def CircuitConfig.levelSet (c : CircuitConfig) : LevelSet := ⟨c.level1, c.level2⟩

def CircuitConfig.levels (c : CircuitConfig) : List Level := c.levelSet.levels

/-- `circuit`. -/
structure Circuit where
  cfg : CircuitConfig
  pseudonodeID : UInt8
  extCircID : UInt32
  adjs : Level → Option (Map SystemID Adjacency)
  p2pAdj : Option Adjacency
  dis : Level → NodeID
  srm : Level → Option (Map LSPID Int)
  ssn : Level → Option (Map LSPID Unit)
  ssnAck : Level → Option (Map LSPID LSPEntry)
  syncHold : Level → Option Int
  syncDeferred : Level → Bool
  linkDown : Bool

/-- An empty map for each configured level. -/
def emptyMaps {K V : Type} (cfg : CircuitConfig) (level : Level) : Option (Map K V) :=
  if cfg.levelSet.has level then some ∅ else none

/-- `newCircuit(cfg, pseudonodeID, extCircID)`. -/
def newCircuit (cfg : CircuitConfig) (pseudonodeID : UInt8) (extCircID : UInt32) : Circuit where
  cfg := cfg
  pseudonodeID := pseudonodeID
  extCircID := extCircID
  adjs := emptyMaps cfg
  p2pAdj := none
  dis := fun _ => zeroNodeID
  srm := emptyMaps cfg
  ssn := emptyMaps cfg
  ssnAck := emptyMaps cfg
  syncHold := fun _ => none
  syncDeferred := fun _ => false
  linkDown := false

namespace Circuit

/-- `setSRM(level, id, when)`. -/
def setSRM (c : Circuit) (level : Level) (id : LSPID) (at_ : Int) : Circuit :=
  { c with srm := onLevel c.srm level (·.insert id at_) }

/-- `clearSRM(level, id)`. -/
def clearSRM (c : Circuit) (level : Level) (id : LSPID) : Circuit :=
  { c with srm := onLevel c.srm level (·.erase id) }

/-- `setSSN(level, id)`. -/
def setSSN (c : Circuit) (level : Level) (id : LSPID) : Circuit :=
  { c with ssn := onLevel c.ssn level (·.insert id ()) }

/-- `setSSNAck(level, e)`. -/
def setSSNAck (c : Circuit) (level : Level) (e : LSPEntry) : Circuit :=
  if (c.ssnAck level).isSome then
    setSSN { c with ssnAck := onLevel c.ssnAck level (·.insert e.lspID e) } level e.lspID
  else c

/-- `clearSSN(level, id)`. -/
def clearSSN (c : Circuit) (level : Level) (id : LSPID) : Circuit :=
  { c with
    ssn := onLevel c.ssn level (·.erase id)
    ssnAck := onLevel c.ssnAck level (·.erase id) }

/-- `floodReady(level)`: a point-to-point circuit needs an Up adjacency covering the level. -/
def floodReady (c : Circuit) (level : Level) : Bool :=
  !c.cfg.p2p || match c.p2pAdj with
    | none => false
    | some adj => adj.state == .up && adj.levels.has level

/-- `isDIS(level, self)`. -/
def isDIS (c : Circuit) (level : Level) (self : SystemID) : Bool :=
  !c.cfg.p2p && (c.dis level).systemID == self && (c.dis level).pseudonodeID != 0

/-- `upAdjacencies(l)`. -/
def upAdjacencies (c : Circuit) (level : Level) : List Adjacency :=
  match c.adjs level with
  | none => []
  | some m => (m.entries.map (·.2)).filter (·.state == .up)

/-- `advertisedAdjacencies(l)`. -/
def advertisedAdjacencies (c : Circuit) (level : Level) : List Adjacency :=
  (c.upAdjacencies level).filter (!·.suppressed)

/-- `upAdjacencyFrom(level, src)`. On a LAN the source takes any match of the range; callers ask
only whether there is one. -/
def upAdjacencyFrom (c : Circuit) (level : Level) (src : SNPA) : Option Adjacency :=
  if c.cfg.p2p then
    match c.p2pAdj with
    | none => none
    | some a => if a.state = .up ∧ a.levels.has level ∧ a.snpa = src then some a else none
  else (c.upAdjacencies level).find? (·.snpa = src)

/-- The neighbour `regenerateNodeLSP` lists for a circuit: the system at the other end of a
point-to-point link, the pseudonode of a LAN. -/
def ownEdge (c : Circuit) (level : Level) : Option NodeID :=
  if c.cfg.p2p then
    match c.p2pAdj with
    | none => none
    | some a => if a.state = .up ∧ a.levels.has level ∧
      !a.suppressed then some ⟨a.systemID, 0⟩ else none
  else
    match c.adjs level with
    | none => none
    | some _ =>
      if c.dis level = zeroNodeID ∨ (c.advertisedAdjacencies level).length = 0 then none
      else some (c.dis level)

/-! ## Reading a flag -/

/-- The time an LSP is scheduled for on this circuit, `none` when SRM is clear. -/
def srmAt (c : Circuit) (level : Level) (id : LSPID) : Option Int :=
  (c.srm level).bind (·.lookup id)

/-- Whether SSN is set. -/
def ssnAt (c : Circuit) (level : Level) (id : LSPID) : Bool :=
  ((c.ssn level).bind (·.lookup id)).isSome

/-- The header to report verbatim. -/
def ssnAckAt (c : Circuit) (level : Level) (id : LSPID) : Option LSPEntry :=
  (c.ssnAck level).bind (·.lookup id)

variable {c : Circuit} {level level' : Level} {id id' : LSPID} {t : Int}

theorem srmAt_setSRM :
    (c.setSRM level id t).srmAt level' id' =
      if level' = level ∧ id' = id ∧ (c.srm level).isSome then some t else c.srmAt level' id' :=
  lookup_onLevel_insert

theorem srmAt_clearSRM :
    (c.clearSRM level id).srmAt level' id' =
      if level' = level ∧ id' = id then none else c.srmAt level' id' :=
  lookup_onLevel_erase

@[simp] theorem srmAt_setSSN : (c.setSSN level id).srmAt level' id' = c.srmAt level' id' := rfl

@[simp] theorem srmAt_clearSSN : (c.clearSSN level id).srmAt level' id' = c.srmAt level' id' := rfl

@[simp] theorem srmAt_setSSNAck {e : LSPEntry} :
    (c.setSSNAck level e).srmAt level' id' = c.srmAt level' id' := by
  unfold setSSNAck
  split <;> rfl

theorem ssnAt_setSSN :
    (c.setSSN level id).ssnAt level' id' =
      (decide (level' = level ∧ id' = id ∧ (c.ssn level).isSome) || c.ssnAt level' id') := by
  simp only [ssnAt, setSSN, lookup_onLevel_insert]
  split
  · rename_i h
    simp [h]
  · rename_i h
    simp [h]

theorem ssnAt_clearSSN :
    (c.clearSSN level id).ssnAt level' id' =
      (!decide (level' = level ∧ id' = id) && c.ssnAt level' id') := by
  simp only [ssnAt, clearSSN, lookup_onLevel_erase]
  split
  · rename_i h
    simp [h]
  · rename_i h
    simp [h]

@[simp] theorem ssnAt_setSRM : (c.setSRM level id t).ssnAt level' id' = c.ssnAt level' id' := rfl

@[simp] theorem ssnAt_clearSRM : (c.clearSRM level id).ssnAt level' id' = c.ssnAt level' id' := rfl

@[simp] theorem cfg_setSSNAck {e : LSPEntry} : (c.setSSNAck level e).cfg = c.cfg := by
  unfold setSSNAck
  split <;> rfl

@[simp] theorem srm_isSome_setSRM :
    ((c.setSRM level id t).srm level').isSome = (c.srm level').isSome :=
  onLevel_isSome

@[simp] theorem srm_isSome_clearSRM :
    ((c.clearSRM level id).srm level').isSome = (c.srm level').isSome :=
  onLevel_isSome

end Circuit

/-! ## Circuits without their flags -/

/-- A circuit without its flooding flags. Which levels have a map for SRM flags stays. -/
def Circuit.unflagged (c : Circuit) : Circuit :=
  { c with srm := fun l => (c.srm l).map fun _ => ∅, ssn := fun _ => none, ssnAck := fun _ => none }

theorem Circuit.unflagged_srm (c : Circuit) (level : Level) (f : Map LSPID Int → Map LSPID Int) :
    { c with srm := onLevel c.srm level f }.unflagged = c.unflagged :=
  congrArg (fun srm => { c.unflagged with srm := srm }) onLevel_presence

end Goisis.Server
