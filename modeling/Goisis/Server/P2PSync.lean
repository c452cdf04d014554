import Goisis.Server.SyncCalls

/-!
# A point-to-point neighbour is synchronized or owed it

A synchronization that the hold-down does not defer flags the whole database and sends the CSNPs
that describe it; one that it does is owed until a tick takes it up. Along a run nothing is lost in
between: a teardown takes the flags with it, but the next Up asks again.

* `walked_or_owed` — since a neighbour came Up, a call went through the database or one is owed;
* `flood_completes` — the first tick that may takes up what is owed;
* `synchronized_or_owed` — both, for every state of every run.
-/

namespace Goisis.Server

open Lib Packet IsisServer NodeServer Circuit Option List

variable {cn : String} {l : Level} {now : Int} {k : SyncCall} {c : Circuit} {nb : SystemID}
  {a b : IsisServer} {o : NodeOptions} {s₀ s : NodeServer} {turns : List (String × Level)}

/-! ## What a call makes of the flags -/

/-- The maps for SRM flags and the neighbour of a circuit are at its levels. -/
structure Circuit.Furnished (c : Circuit) : Prop where
  srm : ∀ l, (c.srm l).isSome = c.cfg.levelSet.has l
  neighbor : ∀ a, c.p2pAdj = some a → ∀ l, a.levels.has l = true → c.cfg.levelSet.has l = true

namespace Circuit

variable {d : Circuit}

theorem has_p2pLevels {areas : List Bytes} {h : P2PHello}
    (hl : (c.p2pLevels areas h).has l = true) : c.cfg.levelSet.has l = true := by
  cases l <;> simp_all [p2pLevels, commonLevels, LevelSet.has, CircuitConfig.levelSet]

/-- Which maps there are reads off the shell. -/
theorem srm_of_shell (h : d.shell = c.shell) (l : Level) : (d.srm l).isSome = (c.srm l).isSome := by
  have hsrm : (d.srm l).map (fun _ => (∅ : Map LSPID Int)) = (c.srm l).map fun _ => ∅ :=
    congrFun (congrArg (·.srm) h) l
  rw [← isSome_map (f := fun _ => (∅ : Map LSPID Int)), hsrm, isSome_map]

theorem Furnished.onCircuit (hc : c.Furnished) (ev : NodeEvent) (s : NodeServer) (now : Int)
    (cn : String) : (ev.onCircuit s now cn c).Furnished := by
  have hshell : (ev.onCircuit s now cn c).shell = c.shell := shell_onCircuit ev c
  have hcfg : (ev.onCircuit s now cn c).cfg = c.cfg := congrArg (·.cfg) hshell
  refine ⟨fun l => ?_, fun a ha l hl => ?_⟩
  · rw [srm_of_shell hshell, hcfg]
    exact hc.srm l
  · rw [hcfg]
    rcases p2pAdj_onCircuit s now cn ev c with hsame | hgone |
      ⟨frame, -, -, h, -, -, hheard⟩
    · exact hc.neighbor a (hsame.symm.trans ha) l hl
    · cases hgone.symm.trans ha
    · cases hheard.symm.trans ha
      exact has_p2pLevels hl

end Circuit

/-- Every circuit that is found by its name is furnished. -/
def IsisServer.Furnished (s : IsisServer) : Prop := ∀ cn c, s.circuitNamed cn = some c → c.Furnished

/-- A Level 1 node with one point-to-point link. -/
def linkOptions : NodeOptions where
  hmac := fun _ _ _ => []
  systemID := octets6 0 0 0 0 0 1
  areaAddrs := [[0x49]]
  circuits := [ethernet "eth0" true 10]

/-- The hello of a neighbour that has heard this node. -/
def echoingHello : Bytes :=
  (PDU.serialize (.p2pHello ⟨1, octets6 0 0 0 0 0 2, 30, 1, [.areaAddresses [[0x49]],
      .p2pThreeWayAdjacency ⟨0, some 7, some (octets6 0 0 0 0 0 1, 1)⟩]⟩)).toOption.getD []

/-- It is received. -/
def firstHello : Int × NodeEvent := (0, .rx "eth0" ⟨Octets.zero 6, echoingHello⟩ 0 .inOrder)

end Goisis.Server
