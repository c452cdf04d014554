import Goisis.Server.Adjacency
import Goisis.Server.Mutate
import Goisis.Server.Originate
import Goisis.Server.Transit

/-!
# The Serve loop

Everything `Serve` does to the node, as one function per event (`NodeEvent.exec`): a received frame
(`handleRx`), the circuit events of `circuit_events.go`, the configuration calls of `mutate.go`, the
housekeeping tick, and what the loop itself runs between two events (`drainLSPGen`, the routing
recomputation). An event returns the node and the adjacency events it sent.

An event names its circuit; one for a circuit that is gone finds none, as `handleEvent` refuses it.
What is sent on the wire is left out, the flooding flags it clears are not: the order in which a
tick visits them, and which frames the transport takes, come with the event (`Sending`). So do the
random draws behind the refresh deadlines.
-/

namespace Goisis.Server

open Lib Packet

/-! ## Hellos -/

/-- The hello arms of `handleRx`: what the circuit makes of a hello that authenticates. -/
def Circuit.hearHello (c : Circuit) (hmac : Hmac) (self : SystemID) (areas : List Bytes)
    (src : SNPA) (raw : Bytes) (now : Int) (scan : AdjScan) : PDU → Option Heard
  | .lanHello h =>
    if c.helloAuthOK hmac raw h.pduType then some (c.processLANHello self areas src h now scan)
    else none
  | .p2pHello h =>
    if c.helloAuthOK hmac raw .p2pHello then some (c.processP2PHello self areas src h now) else none
  | _ => none

namespace IsisServer

variable (s : IsisServer)

/-- The Serve loop takes up what a circuit heard. -/
def takeUp (cn : String) (r : Heard) (now : Int) : IsisServer :=
  let s := s.onCircuit cn fun _ => r.circuit
  let s := if r.regen then s.requestLSPRegen else s
  r.syncs.foldl (fun s l => (s.syncCircuitLevel cn l now).1) s

/-- `ageLSPs(now)`. -/
def ageLSPs (now : Int) : IsisServer :=
  Level.all.foldl (fun s l =>
    ((s.dbs l).elim [] (·.keys)).foldl (fun s id => s.ageEntry l id now) s) s

/-- The hold-down loop of `refreshOwnLSPs`. -/
def releaseHolds (now : Int) : IsisServer :=
  s.seqWrapUntil.keys.foldl (fun s k => s.releaseHold k.1 k.2 now) s

/-- The hold-down loop releases an ID. -/
def releases (now : Int) : Bool :=
  s.seqWrapUntil.keys.any fun k => (s.seqWrapUntil.lookup k).any (· ≤ now)

/-- An LSP of ours reached its refresh deadline. -/
def refreshDue (now : Int) : Bool :=
  Level.all.any fun l => ((s.dbs l).elim [] (·.entries)).any fun e =>
    e.2.own && e.2.purgedAt.isNone && e.2.refreshAt ≤ now

end IsisServer

/-- How a tick visits the flagged LSPs of a circuit and level, and which frames are taken. -/
structure Sending where
  srm : String → Level → List LSPID
  ssn : String → Level → List LSPID
  takes : String → LSPID → Bool

namespace IsisServer

/-- One circuit and level of `floodTransmit`. -/
def floodTransmitAt (s : IsisServer) (send : Sending) (now : Int) (cn : String) (l : Level) :
    IsisServer :=
  let owed := (s.circuitNamed cn).any fun c => c.syncDeferred l && !syncHeld c l now &&
    c.floodReady l
  let s := if owed then (s.syncCircuitLevel cn l now).1 else s
  let s := (s.transmitSRM cn l now (send.srm cn l) (send.takes cn)).1
  (s.transmitPSNP cn l now (send.ssn cn l)).1

/-- `floodTransmit(now)`. -/
def floodTransmit (s : IsisServer) (send : Sending) (now : Int) : IsisServer :=
  (s.circuits.filter (!·.linkDown)).foldl (fun s c =>
    c.cfg.levels.foldl (fun s l => s.floodTransmitAt send now c.cfg.name l) s) s

end IsisServer

namespace NodeServer

variable (s : NodeServer)

/-- A circuit's change and what the subscribers are told about it. -/
def onHeard (cn : String) (f : Circuit → Heard) (now : Int) : NodeServer × List AdjacencyInfo :=
  match s.circuitNamed cn with
  | none => (s, [])
  | some c => (s.withBase (s.takeUp cn (f c) now), (f c).events)

/-- `handleRx(c, frame)`. -/
def handleRx (s : NodeServer) (cn : String) (frame : Frame) (now jitter : Int) (scan : AdjScan) :
    NodeServer × List AdjacencyInfo :=
  match s.circuitNamed cn with
  | none => (s, [])
  | some c =>
    if c.linkDown then (s, [])
    else
      let raw := trimToPDULength frame.pdu
      match (decodePDU raw).toOption.bind
          (c.hearHello s.hmac s.systemID s.areaAddrs frame.src raw now scan) with
      | some r => (s.withBase (s.takeUp cn r now), r.events)
      | none =>
        (s.withBase (s.toIsisServer.handleRx (fun b _ _ => b) false cn frame now jitter), [])

/-! ## Circuit events -/

/-- `SetCircuitAddresses(name, v4, v6, connected)`. -/
def setCircuitAddresses (name : String) (v4 v6 : List Addr) (connected : List Prefix) :
    NodeServer :=
  match s.circuitNamed name with
  | none => s
  | some c =>
    if c.cfg.ipv4Addrs = sortedSet v4 ∧ c.cfg.ipv6Addrs = sortedSet v6 ∧
        s.prefixesOf name = maskedSet connected then s
    else
      { s with
        toIsisServer := (s.onCircuit name fun c =>
          { c with cfg := { c.cfg with ipv4Addrs := sortedSet v4, ipv6Addrs := sortedSet v6 } }
          ).requestLSPRegen
        circuitPrefixes := setCircuitPrefixes s.circuitPrefixes name (maskedSet connected) }

/-- `SetCircuitLinkState(name, up)`. -/
def setCircuitLinkState (name : String) (up : Bool) (now : Int) (scan : AdjScan) :
    NodeServer × List AdjacencyInfo :=
  s.onHeard name (fun c =>
    if c.linkDown = !up then ⟨c, [], false, []⟩
    else
      let c := { c with linkDown := !up }
      if up then ⟨c, [], false, []⟩
      else c.dropAdjacencies s.systemID (fun _ => true) scan now) now

/-- `ClearAdjacency(circuit, systemID)`. -/
def clearAdjacency (name : String) (id : Option SystemID) (now : Int) (scan : AdjScan) :
    NodeServer × List AdjacencyInfo :=
  s.onHeard name (·.dropAdjacencies s.systemID (fun adj => id.all (· = adj.systemID)) scan now) now

/-- `addCircuit(cfg, now)`. -/
def addCircuit (s : NodeServer) (cfg : CircuitConfig) (now : Int) (jitter : Level → LSPID → Int) :
    NodeServer :=
  match s.managed.addCircuit cfg, s.installCircuit cfg.withDefaults with
  | .ok m, some b =>
    { s with toIsisServer := b.setLSPBufferSize, circuitPrefixes :=
      m.circuitPrefixes }.regenerateLSPs
      false now jitter
  | _, _ => s

/-- The levels of the circuits other than the named one. -/
def keptLevels (circuits : List Circuit) (name : String) : LevelSet where
  l1 := circuits.any fun c => c.cfg.name ≠ name && c.cfg.level1
  l2 := circuits.any fun c => c.cfg.name ≠ name && c.cfg.level2

/-- The purges of `deleteCircuit`: the circuit's pseudonode LSPs, and the node LSP at the levels no
other circuit is at. -/
def purgeDeleted (s : IsisServer) (c : Circuit) (now : Int) : IsisServer :=
  let s := c.cfg.levels.foldl (fun s l => s.purgeStaleFragments l c.pseudonodeID 0 now) s
  (s.levelCap.levels.filter (!(keptLevels s.circuits c.cfg.name).has ·)).foldl
    (fun s l => s.purgeStaleFragments l 0 0 now) s

/-- `deleteCircuit(name, now)`. -/
def deleteCircuit (name : String) (now : Int) (scan : AdjScan) (jitter : Level → LSPID → Int) :
    NodeServer × List AdjacencyInfo :=
  match s.circuitNamed name with
  | none => (s, [])
  | some c =>
    let r := c.dropAdjacencies s.systemID (fun _ => true) scan now
    let b := purgeDeleted s.toIsisServer c now
    let b := if r.regen then b.requestLSPRegen else b
    let b := { b with
      circuits := b.circuits.filter (·.cfg.name ≠ name)
      levelCap := keptLevels s.circuits name }.setLSPBufferSize
    let s' := { s with
      toIsisServer := b
      circuitPrefixes := setCircuitPrefixes s.circuitPrefixes name [] }
    (if b.lspBufferSize ≠ s.lspBufferSize then s'.regenerateLSPs false now jitter
      else s'.withBase b.requestLSPRegen, r.events)

/-! ## Configuration calls -/

/-- A call of `mutate.go` about locators, algorithms or prefixes: a refusal changes nothing. -/
def configure (r : Except MutateError Managed) : NodeServer :=
  match r with
  | .error _ => s
  | .ok m =>
    { s with
      toIsisServer := s.requestLSPRegen
      locators := m.locators
      flexAlgos := m.flexAlgos
      optionPrefixes := m.optionPrefixes }

/-- `SetOverload(on)`. -/
def setOverload (on : Bool) : NodeServer :=
  s.withBase { s.toIsisServer with overloadManual := on }.requestLSPRegen

/-! ## Housekeeping -/

/-- `drainLSPGen(now)`. -/
def drainLSPGen (now : Int) (jitter : Level → LSPID → Int) : NodeServer :=
  if !s.lspGenPending || s.nextLSPGen.any (now < ·) then s
  else
    let s := (s.withBase { s.toIsisServer with lspGenPending := false }).regenerateLSPs false
      now jitter
    { s with nextLSPGen := some (now + second) }

/-- `expireAdjacencies` for every circuit. -/
def expireAdjacencies (now : Int) (scan : AdjScan) : NodeServer × List AdjacencyInfo :=
  s.circuits.foldl (fun r c =>
    let r' := r.1.onHeard c.cfg.name (·.dropAdjacencies s.systemID (·.expired now) scan now) now
    (r'.1, r.2 ++ r'.2)) (s, [])

/-- The startup overload bit is cleared once its timer elapses. -/
def clearStartupOverload (now : Int) (jitter : Level → LSPID → Int) : NodeServer :=
  if s.overloadUntil.any (· ≤ now) then
    (s.withBase { s.toIsisServer with overloadUntil := none }).regenerateLSPs false now jitter
  else s

/-- The first half of `refreshOwnLSPs`: elapsed hold-downs are released. -/
def releaseOwnLSPs (now : Int) (jitter : Level → LSPID → Int) : NodeServer :=
  if s.releases now then (s.withBase (s.releaseHolds now)).regenerateLSPs false now jitter else s

/-- `refreshOwnLSPs(now)`. -/
def refreshOwnLSPs (now : Int) (jitter : Level → LSPID → Int) : NodeServer :=
  let s := s.releaseOwnLSPs now jitter
  if s.refreshDue now then s.regenerateLSPs true now jitter else s

/-- `housekeeping(now)`. -/
def housekeeping (now : Int) (scan : AdjScan) (send : Sending) (jitter : Level → LSPID → Int) :
    NodeServer × List AdjacencyInfo :=
  let r := s.expireAdjacencies now scan
  let s := r.1.clearStartupOverload now jitter
  let s := s.drainLSPGen now jitter
  let s := s.withBase (s.ageLSPs now)
  let s := s.refreshOwnLSPs now jitter
  (s.withBase (s.floodTransmit send now), r.2)

end NodeServer

/-! ## Events -/

/-- A configuration call about locators, algorithms or prefixes. -/
inductive ConfigCall where
  | addLocator (cfg : SRv6LocatorConfig)
  | deleteLocator (p : Prefix)
  | addFlexAlgo (cfg : FlexAlgoConfig)
  | deleteFlexAlgo (algo : UInt8)
  | addPrefix (cfg : AdvertisedPrefix)
  | deletePrefix (p : Prefix)

/-- What the call makes of the configuration. -/
def ConfigCall.apply (call : ConfigCall) (m : Managed) : Except MutateError Managed :=
  match call with
  | .addLocator cfg => m.addLocator cfg
  | .deleteLocator p => m.deleteLocator p
  | .addFlexAlgo cfg => m.addFlexAlgo cfg
  | .deleteFlexAlgo algo => m.deleteFlexAlgo algo
  | .addPrefix cfg => m.addPrefix cfg
  | .deletePrefix p => m.deletePrefix p

/-- One turn of the Serve loop, or one of the steps it takes between two events. -/
inductive NodeEvent where
  /-- The LSPs `Serve` originates before the loop. -/
  | start (jitter : Level → LSPID → Int)
  | rx (cn : String) (frame : Frame) (jitter : Int) (scan : AdjScan)
  | linkState (cn : String) (up : Bool) (scan : AdjScan)
  | setAddresses (cn : String) (v4 v6 : List Addr) (connected : List Prefix)
  | addCircuit (cfg : CircuitConfig) (jitter : Level → LSPID → Int)
  | deleteCircuit (name : String) (scan : AdjScan) (jitter : Level → LSPID → Int)
  | configure (call : ConfigCall)
  | setOverload (on : Bool)
  | clearAdjacency (cn : String) (id : Option SystemID) (scan : AdjScan)
  | housekeeping (scan : AdjScan) (send : Sending) (jitter : Level → LSPID → Int)
  /-- `drainLSPGen` after an event. -/
  | drain (jitter : Level → LSPID → Int)
  /-- The recomputation of the routes after an event, once the SPF hold is over. -/
  | recompute (o : Level → UInt8 → SpfOrder)

/-- The node after an event at an instant, and the adjacency events the subscribers were sent. -/
def NodeEvent.exec (ev : NodeEvent) (now : Int) (s : NodeServer) :
    NodeServer × List AdjacencyInfo :=
  match ev with
  | .start jitter => (s.regenerateLSPs false now jitter, [])
  | .rx cn frame jitter scan => s.handleRx cn frame now jitter scan
  | .linkState cn up scan => s.setCircuitLinkState cn up now scan
  | .setAddresses cn v4 v6 connected => (s.setCircuitAddresses cn v4 v6 connected, [])
  | .addCircuit cfg jitter => (s.addCircuit cfg now jitter, [])
  | .deleteCircuit name scan jitter => s.deleteCircuit name now scan jitter
  | .configure call => (s.configure (call.apply s.managed), [])
  | .setOverload on => (s.setOverload on, [])
  | .clearAdjacency cn id scan => s.clearAdjacency cn id now scan
  | .housekeeping scan send jitter => s.housekeeping now scan send jitter
  | .drain jitter => (s.drainLSPGen now jitter, [])
  | .recompute o =>
    (if s.spfDirty then (s.withBase { s.toIsisServer with spfDirty := false }).updateRIB o now
      else s, [])

end Goisis.Server
