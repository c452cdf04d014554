import Goisis.Server.NextHops
import Goisis.Server.Setting

/-!
# Runs of the node

A run is a start (`newNodeServer`) and a list of events with their instants, each one turn of the
Serve loop (`NodeEvent.exec`). Most events leave alone what is installed: the configuration, the
circuits without their neighbours, flags and link state, the levels that have a database. The
configuration calls and the circuit events are the others, and what they keep is `WellFormed`.

* `quiet_exec` — what an event that configures nothing does;
* `NodeServer.Reachable.wellFormed` — every state of every run is well formed.
-/

namespace Goisis.Server

open Lib Packet IsisServer NodeServer ConfigCall List Circuit

variable {s : NodeServer} {d : Circuit} {now : Int} {scan : AdjScan} {r : Heard} {cn : String}
  {f : Circuit → Circuit} {c : Circuit} {t : NodeServer} {b : IsisServer}
  {merged : Map Prefix Route}

/-! ## Runs -/

/-- The node after a list of events, each with its instant. -/
def NodeServer.after (s : NodeServer) (es : List (Int × NodeEvent)) : NodeServer :=
  es.foldl (fun s e => (e.2.exec e.1 s).1) s

theorem after_concat (s : NodeServer) (es : List (Int × NodeEvent)) (e : Int × NodeEvent) :
    s.after (es ++ [e]) = (e.2.exec e.1 (s.after es)).1 := by
  unfold NodeServer.after
  rw [foldl_append]
  rfl

/-- The states a node goes through. -/
def NodeServer.Reachable (s : NodeServer) : Prop :=
  ∃ o s₀ es, newNodeServer o = .ok s₀ ∧ s = s₀.after es

/-- What a start establishes and every event keeps holds in every state of every run. -/
theorem NodeServer.Reachable.induction {P : NodeServer → Prop} (h : s.Reachable)
    (start : ∀ o s₀, newNodeServer o = .ok s₀ → P s₀)
    (step : ∀ s now (ev : NodeEvent), P s → P (ev.exec now s).1) : P s := by
  obtain ⟨o, s₀, es, hstart, rfl⟩ := h
  unfold after
  induction es using reverseRecOn with
  | nil => exact start o s₀ hstart
  | append_singleton es e ih =>
    rw [foldl_append]
    exact step _ e.1 e.2 ih

/-- The options of a node with nothing but circuits. -/
def plainNode (circuits : List CircuitConfig) : NodeOptions where
  hmac := fun _ _ _ => []
  systemID := octets6 0 0 0 0 0 1
  areaAddrs := [[0x49]]
  circuits := circuits

/-! ## What is installed -/

/-- A circuit without its neighbours, its flooding flags and its link state. -/
def Circuit.shell (c : Circuit) : Circuit :=
  { c.standing with
    adjs := fun l => (c.adjs l).map fun _ => ∅
    p2pAdj := none
    dis := fun _ => zeroNodeID
    linkDown := false }

namespace Circuit

variable (c : Circuit)

theorem shell_standing : c.standing.shell = c.shell :=
  congrArg (fun srm => { c.shell with srm := srm }) c.srm_twice

/-- What a LAN does to a circuit: its neighbours and its DIS change, inside the maps that are
there. -/
def LanChange (c d : Circuit) : Prop :=
  ∃ adjs dis, (fun l => (adjs l).map fun _ => (∅ : Map SystemID Adjacency)) =
    (fun l => (c.adjs l).map fun _ => ∅) ∧ d = { c with adjs := adjs, dis := dis }

theorem LanChange.refl : c.LanChange c := ⟨c.adjs, c.dis, rfl, rfl⟩

theorem LanChange.trans {c e : Circuit} (h : c.LanChange d) (h' : d.LanChange e) :
    c.LanChange e := by
  obtain ⟨adjs, dis, hmaps, rfl⟩ := h
  obtain ⟨adjs', dis', hmaps', rfl⟩ := h'
  exact ⟨adjs', dis', hmaps'.trans hmaps, rfl⟩

theorem LanChange.shell {c : Circuit} (h : c.LanChange d) : d.shell = c.shell := by
  obtain ⟨adjs, dis, hmaps, rfl⟩ := h
  exact congrArg (fun adjs => { c.shell with adjs := adjs }) hmaps

theorem lanChange_electDIS (self : SystemID) (level : Level) (scan : AdjScan) :
    c.LanChange (c.electDIS self level scan) := by
  obtain ⟨lan, heq⟩ := c.dis_electDIS self level scan
  exact ⟨c.adjs, _, rfl, heq⟩

theorem lanChange_adjs (level : Level) (f : Map SystemID Adjacency → Map SystemID Adjacency) :
    c.LanChange { c with adjs := onLevel c.adjs level f } := ⟨_, c.dis, onLevel_presence, rfl⟩

theorem lanChange_dropAdjacencies {c : Circuit} (hlan : c.cfg.p2p = false) (self : SystemID)
    (drop : Adjacency → Bool) (scan : AdjScan) (now : Int) :
    c.LanChange (c.dropAdjacencies self drop scan now).circuit := by
  unfold dropAdjacencies
  rw [hlan, if_neg Bool.false_ne_true]
  refine foldlRecOn (motive := fun r : Heard => c.LanChange r.circuit) _ _ (.refl c)
    fun r hr level _ => ?_
  refine foldlRecOn (motive := fun r : Heard => c.LanChange r.circuit) _ _ hr fun r hr id _ => ?_
  unfold dropNeighbor
  split
  · exact hr
  · exact (hr.trans (lanChange_adjs _ _ _)).trans (lanChange_electDIS _ _ _ _)

theorem lanChange_processLANHello (self : SystemID) (areas : List Bytes) (src : SNPA) (h : LANHello)
    (now : Int) (scan : AdjScan) :
    c.LanChange (c.processLANHello self areas src h now scan).circuit := by
  unfold processLANHello
  split
  · exact .refl c
  simp only
  split
  · exact (lanChange_adjs _ _ _).trans (lanChange_electDIS _ _ _ _)
  · exact lanChange_adjs _ _ _

theorem shell_teardownP2PAdj (adj : Adjacency) (now : Int) :
    (c.teardownP2PAdj adj now).circuit.shell = c.shell := by
  have hsrm : (fun l => (if c.cfg.levelSet.has l then (c.srm l).map fun _ => (∅ : Map LSPID Int)
      else c.srm l).map fun _ => (∅ : Map LSPID Int)) = fun l => (c.srm l).map fun _ => ∅ := by
    funext l
    split
    · exact congrFun c.srm_twice l
    · rfl
  exact congrArg (fun srm => { c.shell with srm := srm }) hsrm

theorem shell_dropAdjacencies (self : SystemID) (drop : Adjacency → Bool) (scan : AdjScan)
    (now : Int) : (c.dropAdjacencies self drop scan now).circuit.shell = c.shell := by
  cases hp2p : c.cfg.p2p with
  | false => exact (lanChange_dropAdjacencies hp2p self drop scan now).shell
  | true =>
    unfold dropAdjacencies
    rw [hp2p, if_pos rfl]
    split
    · rfl
    split
    · exact shell_teardownP2PAdj c _ now
    · rfl

theorem shell_processP2PHello (self : SystemID) (areas : List Bytes) (src : SNPA) (h : P2PHello)
    (now : Int) : (c.processP2PHello self areas src h now).circuit.shell = c.shell := by
  have htorn : (c.replaceP2P h now).circuit.shell = c.shell := by
    unfold replaceP2P
    split
    · rfl
    · split
      · rfl
      · exact shell_teardownP2PAdj c _ now
  unfold processP2PHello
  split
  · rfl
  split
  · split
    · rfl
    · split
      · exact shell_teardownP2PAdj c _ now
      · rfl
  · exact htorn

/-- What a circuit hears is a hello of either kind. -/
theorem hearHello_cases {c : Circuit} {hmac : Hmac} {self : SystemID} {areas : List Bytes}
    {src : SNPA} {raw : Bytes} {pdu : PDU}
    (h : c.hearHello hmac self areas src raw now scan pdu = some r) :
    (∃ lan, pdu = .lanHello lan ∧ c.helloAuthOK hmac raw lan.pduType = true ∧
      r = c.processLANHello self areas src lan now scan) ∨
    ∃ p2p, pdu = .p2pHello p2p ∧ r = c.processP2PHello self areas src p2p now := by
  unfold hearHello at h
  split at h
  · obtain ⟨hauth, heq⟩ := Option.ite_none_right_eq_some.mp h
    exact .inl ⟨_, rfl, hauth, (Option.some.inj heq).symm⟩
  · obtain ⟨-, heq⟩ := Option.ite_none_right_eq_some.mp h
    exact .inr ⟨_, rfl, (Option.some.inj heq).symm⟩
  · cases h

theorem shell_hearHello {c : Circuit} {hmac : Hmac} {self : SystemID} {areas : List Bytes}
    {src : SNPA} {raw : Bytes} {pdu : PDU}
    (h : c.hearHello hmac self areas src raw now scan pdu = some r) :
    r.circuit.shell = c.shell := by
  rcases hearHello_cases h with ⟨lan, -, -, rfl⟩ | ⟨p2p, -, rfl⟩
  · exact (lanChange_processLANHello c self areas src lan now scan).shell
  · exact shell_processP2PHello c self areas src p2p now

end Circuit

namespace IsisServer

/-- What is installed of the server. -/
def installed (s : IsisServer) : IsisServer :=
  { s.setting with
    circuits := s.circuits.map (·.shell)
    overloadUntil := none
    overloadManual := false }

section Installed

variable {s t : IsisServer} {level : Level}

theorem installed_of_setting (h : t.setting = s.setting) : t.installed = s.installed := by
  have hsetting : ∀ x : IsisServer, x.setting.installed = x.installed := by
    intro x
    have hcircuits : x.setting.circuits.map (·.shell) = x.circuits.map (·.shell) := by
      simp only [setting, map_map]
      exact map_congr_left fun c _ => c.shell_standing
    have hdbs : (fun l => (x.setting.dbs l).map fun _ => (∅ : LSDB)) =
        fun l => (x.dbs l).map fun _ => ∅ := by
      funext l
      simp only [setting, Option.map_map]
      rfl
    unfold installed
    rw [hcircuits]
    unfold setting at hdbs ⊢
    rw [hdbs]
  rw [← hsetting t, h, hsetting s]

theorem installed_takeUp (hnames : (s.circuits.map (·.cfg.name)).Nodup)
    (hc : s.circuitNamed cn = some c) (hr : r.circuit.shell = c.shell) :
    (s.takeUp cn r now).installed = s.installed := by
  have hcircuit : (s.onCircuit cn fun _ => r.circuit).installed = s.installed := by
    refine congrArg (fun cs => { s.installed with circuits := cs })
      (map_onCircuit fun d hd hname => ?_)
    obtain rfl : d = c := inj_on_of_nodup_map hnames hd (mem_of_find?_eq_some hc)
      (hname.trans (name_of_circuitNamed hc).symm)
    exact hr
  unfold takeUp
  refine (installed_of_setting (foldl_keeps (fun s l => setting_syncCircuitLevel cn) _ _)).trans ?_
  split
  · exact hcircuit
  · exact hcircuit

end Installed

end IsisServer

namespace NodeServer

/-- What is installed: everything that neither a configuration nor a recomputation of the routes is
needed to change. -/
def installed (s : NodeServer) : NodeServer :=
  { s with
    toIsisServer := s.toIsisServer.installed
    endXSIDs := ∅
    nextLSPGen := none }

/-- The names of the circuits are apart. -/
def NamesApart (s : NodeServer) : Prop := (s.circuits.map (·.cfg.name)).Nodup

/-- One change that neither a configuration nor a recomputation of the routes is needed for. -/
inductive QuietStep (s : NodeServer) : NodeServer → Prop where
  | base (b : IsisServer) (h : b.installed = s.toIsisServer.installed) : QuietStep s (s.withBase b)
  | upkeep (t : NodeServer) (h : s.UpkeepStep t) : QuietStep s t

/-- Any number of them. -/
def Quiet : NodeServer → NodeServer → Prop := Relation.ReflTransGen QuietStep

end NodeServer

section Quiet

variable {u : NodeServer} {jitter : Level → LSPID → Int} {force : Bool}

theorem NodeServer.Quiet.refl (s : NodeServer) : s.Quiet s := Relation.ReflTransGen.refl

theorem NodeServer.Quiet.trans (h : s.Quiet t) (h' : t.Quiet u) : s.Quiet u :=
  Relation.ReflTransGen.trans h h'

/-- What a quiet change leaves alone. -/
theorem NodeServer.Quiet.installed (h : s.Quiet t) : t.installed = s.installed := by
  induction h with
  | refl => rfl
  | tail _ hstep ih =>
    rw [← ih]
    have hbase {x : NodeServer} {b : IsisServer} (h : b.installed = x.toIsisServer.installed) :
        (x.withBase b).installed = x.installed :=
      congrArg (fun b => { x.installed with toIsisServer := b }) h
    cases hstep with
    | base b h => exact hbase h
    | upkeep t hstep =>
      cases hstep with
      | work b h => exact hbase (installed_of_setting (setting_of_footing h.footing))
      | sync | overload | generated => rfl

/-- What is read off what is installed is the same where the same is installed. -/
theorem installed_congr {α : Type} (f : NodeServer → α) (hf : ∀ x, f x.installed = f x)
    (h : t.installed = s.installed) : f t = f s := by
  rw [← hf t, h, hf s]

theorem names_of_installed (h : t.installed = s.installed) :
    t.circuits.map (·.cfg.name) = s.circuits.map (·.cfg.name) := by
  refine installed_congr (·.circuits.map (·.cfg.name)) (fun x => ?_) h
  simp only [NodeServer.installed, IsisServer.installed, map_map]
  rfl

theorem NodeServer.NamesApart.congr (hs : s.NamesApart) (h : t.installed = s.installed) :
    t.NamesApart := by
  unfold NodeServer.NamesApart
  rw [names_of_installed h]
  exact hs

theorem quiet_withBase (h : b.installed = s.toIsisServer.installed) : s.Quiet (s.withBase b) :=
  .single (.base b h)

theorem NodeServer.Upkeep.quiet (h : s.Upkeep t) : s.Quiet t :=
  Relation.ReflTransGen.mono (fun _ _ hstep => .upkeep _ hstep) _ _ h

theorem quiet_onHeard (hs : s.NamesApart) {f : Circuit → Heard}
    (hf : ∀ c, (f c).circuit.shell = c.shell) : s.Quiet (s.onHeard cn f now).1 := by
  unfold onHeard
  split
  · exact .refl s
  · rename_i c hc
    exact quiet_withBase (installed_takeUp hs hc (hf c))

theorem quiet_handleRx (hs : s.NamesApart) (cn : String) (frame : Frame) (j : Int) :
    s.Quiet (s.handleRx cn frame now j scan).1 := by
  unfold NodeServer.handleRx
  split
  · exact .refl s
  rename_i c hc
  split
  · exact .refl s
  simp only
  split
  · rename_i r hr
    refine quiet_withBase (installed_takeUp hs hc ?_)
    obtain ⟨pdu, -, hheard⟩ := Option.bind_eq_some_iff.mp hr
    exact shell_hearHello hheard
  · exact (upkeep_withBase (updated_handleRx cn frame)).quiet

theorem quiet_setCircuitLinkState (hs : s.NamesApart) (cn : String) (up : Bool) :
    s.Quiet (s.setCircuitLinkState cn up now scan).1 := by
  refine quiet_onHeard hs fun c => ?_
  split
  · rfl
  split
  · rfl
  · exact (shell_dropAdjacencies _ _ _ _ _).trans rfl

theorem quiet_expireAdjacencies (hs : s.NamesApart) : s.Quiet (s.expireAdjacencies now scan).1 := by
  refine foldlRecOn (motive := fun r : NodeServer × List AdjacencyInfo => s.Quiet r.1)
    s.circuits _ (.refl s) fun r hr c _ => ?_
  exact hr.trans (quiet_onHeard (hs.congr hr.installed) fun c =>
    shell_dropAdjacencies _ _ _ _ _)

theorem quiet_housekeeping (hs : s.NamesApart) (send : Sending) :
    s.Quiet (s.housekeeping now scan send jitter).1 := by
  have hexpire : s.Quiet (s.expireAdjacencies now scan).1 := quiet_expireAdjacencies hs
  have hflood (x : NodeServer) : x.Quiet (x.withBase (x.floodTransmit send now)) :=
    quiet_withBase (installed_of_setting (setting_floodTransmit send))
  exact (hexpire.trans (upkeep_tick rfl).quiet).trans (hflood _)

end Quiet

/-- The events that change what is installed. -/
def NodeEvent.installs : NodeEvent → Bool
  | .setAddresses .. | .addCircuit .. | .deleteCircuit .. | .configure .. | .recompute .. => true
  | _ => false

/-- **An event that configures and recomputes nothing** makes quiet changes only. -/
theorem quiet_exec (hs : s.NamesApart) (now : Int) {ev : NodeEvent} (hev : ev.installs = false) :
    s.Quiet (ev.exec now s).1 := by
  cases ev with
  | start jitter => exact upkeep_regenerateLSPs.quiet
  | rx cn frame jitter scan => exact quiet_handleRx hs cn frame jitter
  | linkState cn up scan => exact quiet_setCircuitLinkState hs cn up
  | setAddresses | addCircuit | deleteCircuit | configure | recompute => cases hev
  | setOverload on => exact quiet_withBase rfl
  | clearAdjacency cn id scan =>
    exact quiet_onHeard hs fun c => shell_dropAdjacencies _ _ _ _ _
  | housekeeping scan send jitter => exact quiet_housekeeping hs send
  | drain jitter => exact upkeep_drainLSPGen.quiet

/-! ## Well-formed nodes -/

/-- Every circuit has a pseudonode octet of its own, and none that names the node itself. -/
structure IsisServer.OctetsApart (s : IsisServer) : Prop where
  nodup : (s.circuits.map (·.pseudonodeID)).Nodup
  ne_zero : ∀ c ∈ s.circuits, c.pseudonodeID ≠ 0

theorem IsisServer.OctetsApart.of_octets {a b : IsisServer} (ha : a.OctetsApart)
    (h : b.circuits.map (·.pseudonodeID) = a.circuits.map (·.pseudonodeID)) : b.OctetsApart := by
  refine ⟨by rw [h]; exact ha.nodup, fun c hc hzero => ?_⟩
  have hmem : (0 : UInt8) ∈ a.circuits.map (·.pseudonodeID) := by
    rw [← h, ← hzero]
    exact mem_map_of_mem hc
  obtain ⟨c', hc', hzero'⟩ := mem_map.mp hmem
  exact ha.ne_zero c' hc' hzero'

/-- The circuits have octets of their own, the node is at their levels, and every level of the node
has a database. -/
structure IsisServer.Placed (s : IsisServer) : Prop where
  octets : s.OctetsApart
  levels : ∀ l, s.levelCap.has l = s.circuits.any (·.cfg.levelSet.has l)
  databases : ∀ l, s.levelCap.has l = true → (s.dbs l).isSome = true

/-- What holds of a node at any time: nothing is configured twice, and prefixes are masked. -/
structure NodeServer.WellFormed (s : NodeServer) : Prop extends s.toIsisServer.Placed where
  names : s.NamesApart
  optionPrefixes : ∀ p ∈ s.optionPrefixes.keys, p.masked = p
  subnets : ∀ name, ∀ p ∈ s.prefixesOf name, p.masked = p
  exported : ∀ p ∈ s.l1Export.keys, p.masked = p
  leaked : ∀ p ∈ s.l2Leak.keys, p.masked = p

section WellFormed

variable {a : IsisServer}

theorem NodeServer.WellFormed.congr (hs : s.WellFormed) (h : t.installed = s.installed) :
    t.WellFormed where
  names := hs.names.congr h
  octets := by
    have hoctets : t.circuits.map (·.pseudonodeID) = s.circuits.map (·.pseudonodeID) := by
      refine installed_congr (·.circuits.map (·.pseudonodeID)) (fun x => ?_) h
      simp only [installed, IsisServer.installed, map_map]
      rfl
    exact hs.octets.of_octets hoctets
  levels l := by
    have hany : t.circuits.any (·.cfg.levelSet.has l) = s.circuits.any (·.cfg.levelSet.has l) := by
      refine installed_congr (·.circuits.any (·.cfg.levelSet.has l)) (fun x => ?_) h
      simp only [installed, IsisServer.installed, any_map]
      rfl
    rw [installed_congr (·.levelCap) (fun _ => rfl) h, hany]
    exact hs.levels l
  databases l hl := by
    have hdbs : (t.dbs l).isSome = (s.dbs l).isSome := by
      refine installed_congr (fun x => (x.dbs l).isSome) (fun x => ?_) h
      simp only [installed, IsisServer.installed, setting, Option.isSome_map]
    rw [installed_congr (·.levelCap) (fun _ => rfl) h] at hl
    rw [hdbs]
    exact hs.databases l hl
  optionPrefixes := by
    rw [installed_congr (·.optionPrefixes) (fun _ => rfl) h]
    exact hs.optionPrefixes
  subnets name := by
    rw [installed_congr (·.prefixesOf name) (fun _ => rfl) h]
    exact hs.subnets name
  exported := by
    rw [installed_congr (·.l1Export) (fun _ => rfl) h]
    exact hs.exported
  leaked := by
    rw [installed_congr (·.l2Leak) (fun _ => rfl) h]
    exact hs.leaked

/-! ## Start -/

theorem nextPseudonode_eq_some {used : List UInt8} {tries cursor next : Nat}
    (h : nextPseudonode used tries cursor = some next) :
    UInt8.ofNat next ∉ used ∧ UInt8.ofNat next ≠ 0 := by
  induction tries generalizing cursor with
  | zero => cases h
  | succ tries ih =>
    rw [nextPseudonode] at h
    by_cases hu : used.contains (UInt8.ofNat (cursor % 255 + 1)) = true
    · rw [if_pos hu] at h
      exact ih h
    rw [if_neg hu] at h
    cases h
    refine ⟨fun hmem => hu (contains_iff_mem.mpr hmem), fun hzero => ?_⟩
    have hnat := congrArg UInt8.toNat hzero
    simp only [UInt8.toNat_ofNat', UInt8.toNat_zero] at hnat
    omega

theorem IsisServer.Placed.installCircuit {cfg : CircuitConfig} (ha : a.Placed)
    (h : a.installCircuit cfg = some b) : b.Placed := by
  unfold IsisServer.installCircuit at h
  split at h
  · cases h
  rename_i cursor hcursor
  cases h
  obtain ⟨hfresh, hzero⟩ := nextPseudonode_eq_some hcursor
  refine ⟨⟨?_, fun c hc => ?_⟩, fun l => ?_, fun l hl => ?_⟩
  · exact nodup_append_singleton ha.octets.nodup hfresh
  · rcases mem_append.mp hc with hc | hc
    · exact ha.octets.ne_zero c hc
    · rw [mem_singleton.mp hc]
      exact hzero
  · have hl := ha.levels l
    cases l <;> simp_all [LevelSet.has, newCircuit, CircuitConfig.levelSet]
  · simp only
    split
    · rfl
    rename_i hnot
    cases hdb : a.dbs l with
    | some db => rfl
    | none =>
      exfalso
      refine hnot ⟨?_, by rw [hdb]; rfl⟩
      have hcap := fun hc => ha.databases l hc
      cases l <;> simp_all [LevelSet.has, CircuitConfig.levelSet]

theorem placed_newIsisServer {o : Options} (h : newIsisServer o = some b) : b.Placed := by
  refine newIsisServer_induction (P := IsisServer.Placed) h ?_ (fun a cfg b hi ha =>
    ha.installCircuit hi) fun a ha => ?_
  · exact ⟨⟨nodup_nil, fun c hc => absurd hc not_mem_nil⟩, fun l => by cases l <;> rfl,
      fun l hl => by cases l <;> cases hl⟩
  · exact ⟨⟨ha.octets.nodup, ha.octets.ne_zero⟩, ha.levels, ha.databases⟩

theorem masked_of_mem_maskedSet {l : List Prefix} {p : Prefix} (h : p ∈ maskedSet l) :
    p.masked = p := by
  have hmasked : p ∈ l.foldl
      (fun out p => if out.contains p.masked then out else out ++ [p.masked]) [] :=
    (mem_insertionSort _).mp h
  have hnil : ∀ q ∈ ([] : List Prefix), q.masked = q := by simp
  exact (foldl_masked_keeps hnil nodup_nil).1 p hmasked

theorem masked_setCircuitPrefixes {m : Map String (List Prefix)} {ps : List Prefix}
    (hm : ∀ name, ∀ p ∈ (m.lookup name).getD [], p.masked = p) (hps : ∀ p ∈ ps, p.masked = p)
    (cn name : String) :
    ∀ p ∈ ((setCircuitPrefixes m cn ps).lookup name).getD [], p.masked = p := by
  rw [Managed.prefixesOf_set]
  split
  · exact hps
  · exact hm name

/-- **A start is well formed.** -/
theorem wellFormed_newNodeServer {o : NodeOptions} (h : newNodeServer o = .ok s) :
    s.WellFormed := by
  obtain ⟨hvalid, hbase, heq⟩ := newNodeServer_base h
  obtain ⟨-, -, -, -, hcircuits, -⟩ := managed_newNodeServer h
  obtain ⟨-, -, hnodup⟩ := NodeOptions.validate_circuits hvalid
  have hnames : s.circuits.map (·.cfg.name) = o.circuits.map (·.name) := by
    have := congrArg (map (·.name)) hcircuits
    simp only [managed, map_map] at this
    exact this
  refine ⟨placed_newIsisServer hbase, ?_, ?_, ?_, ?_, ?_⟩
  · unfold NodeServer.NamesApart
    rw [hnames]
    exact hnodup
  · rw [heq]
    refine Map.forall_keys_ofList fun e he => ?_
    obtain ⟨p, -, rfl⟩ := mem_map.mp he
    exact p.pfx.masked_masked
  · rw [heq]
    unfold prefixesOf NodeOptions.node
    refine foldlRecOn (motive := fun m : Map String (List Prefix) =>
      ∀ name, ∀ p ∈ (m.lookup name).getD [], p.masked = p) o.circuits _ ?_ fun m hm cfg _ => ?_
    · exact fun name p hp => absurd hp not_mem_nil
    · exact masked_setCircuitPrefixes hm (fun p hp => masked_of_mem_maskedSet hp) cfg.name
  · rw [heq]
    exact fun p hp => absurd hp not_mem_nil
  · rw [heq]
    exact fun p hp => absurd hp not_mem_nil

/-! ## Configuration -/

/-- Of the configuration calls only those about prefixes touch the option set, with masked keys. -/
theorem ConfigCall.masked_apply {call : ConfigCall} {m m' : Managed} (h : call.apply m = .ok m')
    (hm : ∀ p ∈ m.optionPrefixes.keys, p.masked = p) :
    ∀ p ∈ m'.optionPrefixes.keys, p.masked = p := by
  cases call with
  | addLocator cfg =>
    simp only [apply, Managed.addLocator] at h
    split at h
    · cases h
    split at h
    · cases h
    split at h
    · split at h <;> cases h
    · cases h
      exact hm
  | deleteLocator p =>
    simp only [apply, Managed.deleteLocator] at h
    split at h
    · cases h
      exact hm
    · cases h
  | addFlexAlgo cfg =>
    simp only [apply, Managed.addFlexAlgo] at h
    split at h
    · cases h
    split at h
    · split at h <;> cases h
    · cases h
      exact hm
  | deleteFlexAlgo algo =>
    simp only [apply, Managed.deleteFlexAlgo] at h
    split at h
    · split at h
      · cases h
      · cases h
        exact hm
    · cases h
  | addPrefix cfg =>
    simp only [apply, Managed.addPrefix] at h
    split at h
    · cases h
    split at h
    · split at h <;> cases h
    cases h
    intro p hp
    rcases (AList.mem_insert _).mp hp with rfl | hp
    · exact cfg.pfx.masked_masked
    · exact hm p hp
  | deletePrefix p =>
    simp only [apply, Managed.deletePrefix] at h
    split at h
    · cases h
      exact fun q hq => hm q (AList.mem_erase.mp hq).2
    · split at h <;> cases h

theorem wellFormed_configure (hs : s.WellFormed) (call : ConfigCall) :
    (s.configure (call.apply s.managed)).WellFormed := by
  unfold configure
  split
  · exact hs
  rename_i m hm
  exact ⟨⟨⟨hs.octets.nodup, hs.octets.ne_zero⟩, hs.levels, hs.databases⟩, hs.names,
    masked_apply hm hs.optionPrefixes, hs.subnets, hs.exported, hs.leaked⟩

theorem IsisServer.Placed.onCircuit (ha : a.Placed)
    (hoctet : ∀ c, (f c).pseudonodeID = c.pseudonodeID)
    (hlevels : ∀ c, (f c).cfg.levelSet = c.cfg.levelSet) : (a.onCircuit cn f).Placed := by
  refine ⟨ha.octets.of_octets (map_onCircuit fun c _ _ => hoctet c), fun l =>
    (ha.levels l).trans ?_, ha.databases⟩
  have hmap : (a.onCircuit cn f).circuits.map (·.cfg.levelSet) = a.circuits.map (·.cfg.levelSet) :=
    map_onCircuit fun c _ _ => hlevels c
  have hany := congrArg (fun ls : List LevelSet => ls.any (·.has l)) hmap
  simp only [any_map] at hany
  exact hany.symm

theorem wellFormed_setCircuitAddresses (hs : s.WellFormed) (cn : String) (v4 v6 : List Addr)
    (connected : List Prefix) : (s.setCircuitAddresses cn v4 v6 connected).WellFormed := by
  unfold setCircuitAddresses
  split
  · exact hs
  split
  · exact hs
  generalize hf : (fun c : Circuit => { c with cfg := { c.cfg with
      ipv4Addrs := sortedSet v4
      ipv6Addrs := sortedSet v6 } }) = f
  have hoctet : ∀ c, (f c).pseudonodeID = c.pseudonodeID := fun c => by rw [← hf]
  have hlevel : ∀ c, (f c).cfg.levelSet = c.cfg.levelSet := fun c => by rw [← hf]; rfl
  have hname : ∀ c, (f c).cfg.name = c.cfg.name := fun c => by rw [← hf]
  have hplaced : (s.toIsisServer.onCircuit cn f).Placed := hs.toPlaced.onCircuit hoctet hlevel
  have hnames : (s.toIsisServer.onCircuit cn f).circuits.map (·.cfg.name) =
      s.circuits.map (·.cfg.name) := map_onCircuit fun c _ _ => hname c
  obtain ⟨hoctets, hlevels, hdbs⟩ := hplaced
  refine ⟨⟨⟨hoctets.nodup, hoctets.ne_zero⟩, hlevels, hdbs⟩, ?_, hs.optionPrefixes, fun name => ?_,
    hs.exported, hs.leaked⟩
  · exact (congrArg List.Nodup hnames).mpr hs.names
  · exact masked_setCircuitPrefixes hs.subnets (fun p hp => masked_of_mem_maskedSet hp) cn name

theorem wellFormed_addCircuit (hs : s.WellFormed) (cfg : CircuitConfig) (now : Int)
    (jitter : Level → LSPID → Int) : (s.addCircuit cfg now jitter).WellFormed := by
  unfold addCircuit
  split
  · rename_i m b hm hb
    refine NodeServer.WellFormed.congr (s := { s with
      toIsisServer := b.setLSPBufferSize
      circuitPrefixes := m.circuitPrefixes }) ?_ upkeep_regenerateLSPs.quiet.installed
    obtain ⟨hnew, cursor, rfl⟩ := Managed.addCircuit_ok hm
    obtain ⟨hoctets, hlevels, hdbs⟩ := hs.toPlaced.installCircuit hb
    refine ⟨⟨⟨hoctets.nodup, hoctets.ne_zero⟩, hlevels, hdbs⟩, ?_, hs.optionPrefixes,
      fun name => ?_, hs.exported, hs.leaked⟩
    · unfold installCircuit at hb
      split at hb
      · cases hb
      cases hb
      refine nodup_append_singleton hs.names fun hmem => ?_
      obtain ⟨c, hc, hname⟩ := mem_map.mp hmem
      have hc' : RunningCircuit.mk c.cfg c.pseudonodeID ∈ s.managed.circuits := mem_map_of_mem hc
      refine Managed.circuit_eq_none.mp hnew (mem_map.mpr ⟨_, hc', hname⟩)
    · exact masked_setCircuitPrefixes hs.subnets (fun p hp => masked_of_mem_maskedSet hp) _ name
  · exact hs

/-- Without one of its circuits, at the levels of the rest, a server is still placed. -/
theorem IsisServer.Placed.delete (ha : a.Placed) (h : b.setting = a.setting) (cn : String) :
    { b with
      circuits := b.circuits.filter (·.cfg.name ≠ cn)
      levelCap := keptLevels a.circuits cn }.Placed := by
  have hsub : (b.circuits.filter (·.cfg.name ≠ cn)).Sublist b.circuits := filter_sublist
  have hoctets : b.circuits.map (·.pseudonodeID) = a.circuits.map (·.pseudonodeID) :=
    setting_congr (·.circuits.map (·.pseudonodeID))
      (fun x => by simp only [setting, map_map]; rfl) h
  have hcfgs : b.circuits.map (·.cfg) = a.circuits.map (·.cfg) :=
    setting_congr (·.circuits.map (·.cfg)) (fun x => by simp only [setting, map_map]; rfl) h
  have hdbs : ∀ l, (b.dbs l).isSome = (a.dbs l).isSome := fun l =>
    setting_congr (fun x => (x.dbs l).isSome) (fun x => by simp only [setting, Option.isSome_map]) h
  have hb := ha.octets.of_octets hoctets
  refine ⟨⟨hb.nodup.sublist (hsub.map _), fun c hc => hb.ne_zero c (hsub.subset hc)⟩, fun l => ?_,
    fun l hl => ?_⟩
  · have hany := congrArg (fun cfgs : List CircuitConfig => cfgs.any fun cfg =>
      decide (cfg.name ≠ cn) && cfg.levelSet.has l) hcfgs
    simp only [any_map] at hany
    simp only [any_filter]
    refine Eq.trans ?_ hany.symm
    cases l <;> rfl
  · rw [hdbs]
    refine ha.databases l ?_
    rw [ha.levels]
    -- a level that is kept is the level of a circuit
    cases l <;>
      simp only [keptLevels, LevelSet.has, any_eq_true, Bool.and_eq_true] at hl ⊢
    · obtain ⟨c, hc, -, hlevel⟩ := hl
      exact ⟨c, hc, hlevel⟩
    · obtain ⟨c, hc, -, hlevel⟩ := hl
      exact ⟨c, hc, hlevel⟩

theorem deleteCircuit_of_none (hc : s.circuitNamed cn = none) (now : Int) (scan : AdjScan)
    (jitter : Level → LSPID → Int) : s.deleteCircuit cn now scan jitter = (s, []) := by
  unfold deleteCircuit
  rw [hc]

/-- **The deletion of a circuit** takes it out, between work of the update process and upkeep. -/
theorem upkeep_deleteCircuit (hc : s.circuitNamed cn = some c) (now : Int) (scan : AdjScan)
    (jitter : Level → LSPID → Int) :
    ∃ b : IsisServer, s.toIsisServer.Updated b ∧ NodeServer.Upkeep { s with
      toIsisServer := { b with
        circuits := b.circuits.filter (·.cfg.name ≠ cn)
        levelCap := keptLevels s.circuits cn }.setLSPBufferSize
      circuitPrefixes := setCircuitPrefixes s.circuitPrefixes cn [] }
      (s.deleteCircuit cn now scan jitter).1 := by
  unfold deleteCircuit
  rw [hc]
  simp only
  generalize hb : (if (c.dropAdjacencies s.systemID (fun _ => true) scan now).regen then
    (purgeDeleted s.toIsisServer c now).requestLSPRegen
    else purgeDeleted s.toIsisServer c now) = b
  refine ⟨b, ?_, ?_⟩
  · rw [← hb]
    split
    · exact (updated_purgeDeleted c).trans ⟨rfl, fun _ => rfl⟩
    · exact updated_purgeDeleted c
  · split
    · exact upkeep_regenerateLSPs
    · exact upkeep_withBase ⟨rfl, fun _ => rfl⟩

theorem wellFormed_deleteCircuit (hs : s.WellFormed) (cn : String) (now : Int) (scan : AdjScan)
    (jitter : Level → LSPID → Int) : (s.deleteCircuit cn now scan jitter).1.WellFormed := by
  cases hc : s.circuitNamed cn with
  | none =>
    rw [deleteCircuit_of_none hc]
    exact hs
  | some c =>
    obtain ⟨b, hupdated, hupkeep⟩ := upkeep_deleteCircuit hc now scan jitter
    have hsetting := setting_of_footing hupdated.footing
    refine NodeServer.WellFormed.congr ?_ hupkeep.quiet.installed
    obtain ⟨hoctets, hlevels, hdbs⟩ := hs.toPlaced.delete hsetting cn
    have hnames : b.circuits.map (·.cfg.name) = s.circuits.map (·.cfg.name) :=
      setting_congr (·.circuits.map (·.cfg.name))
        (fun x => by simp only [setting, map_map]; rfl) hsetting
    refine ⟨⟨⟨hoctets.nodup, hoctets.ne_zero⟩, hlevels, hdbs⟩, ?_, hs.optionPrefixes,
      fun name => ?_, hs.exported, hs.leaked⟩
    · have hnodup : (b.circuits.map (·.cfg.name)).Nodup := (congrArg List.Nodup hnames).mpr hs.names
      exact hnodup.sublist (filter_sublist.map _)
    · exact masked_setCircuitPrefixes hs.subnets (fun p hp => absurd hp not_mem_nil) cn name

theorem masked_of_mem_filterMap {V W : Type} {m : Map Prefix V} {f : Prefix → V → Option W}
    (hm : ∀ p v, m.lookup p = some v → p.masked = p) :
    ∀ p ∈ (m.filterMap f).keys, p.masked = p := by
  intro p hp
  obtain ⟨w, hw⟩ := Option.isSome_iff_exists.mp (Map.mem_keys_iff.mp hp)
  rw [Map.lookup_filterMap] at hw
  obtain ⟨v, hv, -⟩ := Option.bind_eq_some_iff.mp hw
  exact hm p v hv

theorem masked_l1ExportSet {s : RoutingServer}
    (hm : ∀ p r, merged.lookup p = some r → p.masked = p) :
    ∀ p ∈ (s.l1ExportSet merged).keys, p.masked = p := by
  unfold RoutingServer.l1ExportSet
  split
  · exact fun p hp => absurd hp not_mem_nil
  · exact masked_of_mem_filterMap hm

theorem masked_l2LeakSet {s : RoutingServer} {l2 : Map Prefix Route}
    (hm : ∀ p r, l2.lookup p = some r → p.masked = p) :
    ∀ p ∈ (s.l2LeakSet merged l2).keys, p.masked = p := by
  unfold RoutingServer.l2LeakSet
  split
  · exact fun p hp => absurd hp not_mem_nil
  split
  · exact fun p hp => absurd hp not_mem_nil
  · exact masked_of_mem_filterMap hm

theorem wellFormed_updateRIB (hs : s.WellFormed) (o : Level → UInt8 → SpfOrder) (now : Int) :
    (s.updateRIB o now).WellFormed := by
  have hmerged : ∀ p r, (s.routing.merged o now).lookup p = some r → p.masked = p :=
    fun p r => masked_of_lookup_merged
  have hreach : ∀ p r, (s.routing.l2Reach o now).lookup p = some r → p.masked = p := by
    intro p r hr
    unfold RoutingServer.l2Reach at hr
    split at hr
    · exact masked_of_lookup_computeSPF hr
    · cases hr
  -- a set that did not change is kept
  have hkept : ∀ old new : Map Prefix UInt32, (∀ p ∈ old.keys, p.masked = p) →
      (∀ p ∈ new.keys, p.masked = p) →
      ∀ p ∈ (if new.equal old then old else new).keys, p.masked = p := by
    intro old new hold hnew
    split
    · exact hold
    · exact hnew
  exact ⟨⟨⟨hs.octets.nodup, hs.octets.ne_zero⟩, hs.levels, hs.databases⟩, hs.names,
    hs.optionPrefixes, hs.subnets, hkept _ _ hs.exported (masked_l1ExportSet hmerged),
    hkept _ _ hs.leaked (masked_l2LeakSet hreach)⟩

/-! ## Every state -/

theorem wellFormed_exec (hs : s.WellFormed) (now : Int) (ev : NodeEvent) :
    (ev.exec now s).1.WellFormed := by
  cases hev : ev.installs with
  | false => exact hs.congr (quiet_exec hs.names now hev).installed
  | true =>
    cases ev with
    | setAddresses cn v4 v6 connected => exact wellFormed_setCircuitAddresses hs cn v4 v6 connected
    | addCircuit cfg jitter => exact wellFormed_addCircuit hs cfg now jitter
    | deleteCircuit name scan jitter => exact wellFormed_deleteCircuit hs name now scan jitter
    | configure call => exact wellFormed_configure hs call
    | recompute o =>
      unfold NodeEvent.exec
      simp only
      split
      · have hclear : (s.withBase { s.toIsisServer with spfDirty := false }).WellFormed :=
          hs.congr rfl
        exact wellFormed_updateRIB hclear o now
      · exact hs
    | start | rx | linkState | setOverload | clearAdjacency | housekeeping | drain => cases hev

/-- **Every state of every run is well formed.** -/
theorem NodeServer.Reachable.wellFormed (h : s.Reachable) : s.WellFormed :=
  h.induction (P := NodeServer.WellFormed) (fun _ _ => wellFormed_newNodeServer)
    fun _ now ev hs => wellFormed_exec hs now ev

end WellFormed

end Goisis.Server
