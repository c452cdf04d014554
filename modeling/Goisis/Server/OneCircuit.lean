import Goisis.Server.NodeRun

/-!
# One circuit along a run

What an event of the node does to the circuit of a given name, as a function of that circuit
(`NodeEvent.onCircuit`): a hello received on it, a change of its link, the end of adjacencies. Every
other event leaves it alone but for its flooding flags, its synchronization state and its interface
addresses (`Circuit.bare`).

A circuit is there from the event that adds it to the one that deletes it; another circuit of the
same name starts afresh.

* `bareAt_exec` — one event on a circuit that stays;
* `bareAt_exec_deleted`, `bareAt_exec_none` — the end and the start of a circuit;
* `circuit_induction` — the induction rule for one circuit along a run.
-/

namespace Goisis.Server

open Lib Packet List NodeServer

variable {cn : String} {d : Circuit} {b : IsisServer} {cn' : String} {c : Circuit} {a : IsisServer}
  {now : Int} {s : NodeServer} {scan : AdjScan}

/-! ## Circuits by name -/

section Named

open IsisServer

variable {s t : IsisServer}

/-- What is kept of every circuit, its name with it, is found where it was. -/
theorem circuitNamed_of_map {g : Circuit → Circuit} (hg : ∀ c, (g c).cfg.name = c.cfg.name)
    (h : t.circuits.map g = s.circuits.map g) :
    (t.circuitNamed cn).map g = (s.circuitNamed cn).map g := by
  have hfind : ∀ x : IsisServer, (x.circuitNamed cn).map g =
      (x.circuits.map g).find? fun c => c.cfg.name = cn := by
    intro x
    have hname : (fun c : Circuit => decide (c.cfg.name = cn)) ∘ g =
        fun c => decide (c.cfg.name = cn) := by
      funext c
      rw [Function.comp_apply, hg]
    rw [find?_map, hname]
    rfl
  rw [hfind, hfind, h]

/-- A circuit put in the place of the one of its name. -/
theorem circuitNamed_replaced (hc : b.circuitNamed cn' = some c) (hd : d.cfg.name = cn') :
    (b.onCircuit cn' fun _ => d).circuitNamed cn = if cn = cn' then some d else
      b.circuitNamed cn := by
  have hname : (fun c : Circuit => decide (c.cfg.name = cn)) ∘
      (fun c => if c.cfg.name = cn' then d else c) = fun c => decide (c.cfg.name = cn) := by
    funext c
    simp only [Function.comp_apply]
    split
    · rw [hd, ‹c.cfg.name = cn'›]
    · rfl
  have hmap : (b.onCircuit cn' fun _ => d).circuitNamed cn =
      (b.circuitNamed cn).map fun c => if c.cfg.name = cn' then d else c := by
    unfold circuitNamed onCircuit
    rw [find?_map, hname]
  rw [hmap]
  by_cases hcn : cn = cn'
  · rw [if_pos hcn, hcn, hc, Option.map_some, if_pos (name_of_circuitNamed hc)]
  rw [if_neg hcn]
  cases hfound : b.circuitNamed cn with
  | none => rfl
  | some x =>
    have hx : x.cfg.name ≠ cn' := fun h => hcn ((name_of_circuitNamed hfound).symm.trans h)
    rw [Option.map_some, if_neg hx]

/-- A circuit added at the end is found if none of its name is there already. -/
theorem circuitNamed_append (h : b.circuits = a.circuits ++ [d]) :
    b.circuitNamed cn = (a.circuitNamed cn).or ([d].find? fun c => c.cfg.name = cn) := by
  unfold circuitNamed
  rw [h, find?_append]

/-- Without the circuits of a name the others are found where they were. -/
theorem circuitNamed_filter {name : String}
    (h : b.circuits = a.circuits.filter (·.cfg.name ≠ name)) :
    b.circuitNamed cn = if cn = name then none else a.circuitNamed cn := by
  have hfound : b.circuitNamed cn =
      a.circuits.find? fun c => decide (c.cfg.name ≠ name) && decide (c.cfg.name = cn) := by
    unfold circuitNamed
    rw [h, find?_filter]
    congr 1
    funext c
    rw [Bool.decide_and, Bool.decide_eq_true, Bool.decide_eq_true]
  rw [hfound]
  by_cases hcn : cn = name
  · rw [if_pos hcn, find?_eq_none]
    intro c _ hboth
    simp only [Bool.and_eq_true, decide_eq_true_eq] at hboth
    exact hboth.1 (hboth.2.trans hcn)
  · rw [if_neg hcn]
    congr 1
    funext c
    by_cases hname : c.cfg.name = cn
    · simp [hname, hcn]
    · simp [hname]

end Named

/-! ## The effect of an event -/

/-- A circuit without its flooding flags, its synchronization state and its interface addresses. -/
def Circuit.bare (c : Circuit) : Circuit :=
  { c.standing with
    cfg := { c.cfg with
      ipv4Addrs := []
      ipv6Addrs := [] } }

/-- The hello arms of `handleRx` on a circuit. -/
def Circuit.afterFrame (c : Circuit) (s : NodeServer) (frame : Frame) (now : Int) (scan : AdjScan) :
    Circuit :=
  if c.linkDown then c
  else
    (((decodePDU (trimToPDULength frame.pdu)).toOption.bind
      (c.hearHello s.hmac s.systemID s.areaAddrs
      frame.src (trimToPDULength frame.pdu) now scan)).map (·.circuit)).getD c

/-- `SetCircuitLinkState` on a circuit. -/
def Circuit.afterLinkState (c : Circuit) (self : SystemID) (up : Bool) (now : Int)
    (scan : AdjScan) : Heard :=
  if c.linkDown = !up then ⟨c, [], false, []⟩
  else
    let c := { c with linkDown := !up }
    if up then ⟨c, [], false, []⟩ else c.dropAdjacencies self (fun _ => true) scan now

/-- What an event makes of the circuit of a name, unless it deletes it. -/
def NodeEvent.onCircuit (ev : NodeEvent) (s : NodeServer) (now : Int) (cn : String) (c : Circuit) :
    Circuit :=
  match ev with
  | .rx cn' frame _ scan => if cn' = cn then c.afterFrame s frame now scan else c
  | .linkState cn' up scan => if cn' = cn then
    (c.afterLinkState s.systemID up now scan).circuit else c
  | .clearAdjacency cn' id scan =>
    if cn' = cn then
      (c.dropAdjacencies s.systemID (fun adj => id.all (· = adj.systemID)) scan now).circuit
    else c
  | .housekeeping scan _ _ => (c.dropAdjacencies s.systemID (·.expired now) scan now).circuit
  | _ => c

/-- The event deletes the circuit of a name. -/
def NodeEvent.deletes (ev : NodeEvent) (cn : String) : Bool :=
  match ev with
  | .deleteCircuit name _ _ => name = cn
  | _ => false

/-- The extended circuit ID an event gives out. -/
def NodeEvent.gives (ev : NodeEvent) (s : NodeServer) : List UInt32 :=
  match ev with
  | .addCircuit cfg _ =>
    match s.managed.addCircuit cfg, s.installCircuit cfg.withDefaults with
    | .ok _, some b => [b.nextExtCircID]
    | _, _ => []
  | _ => []

/-- `takeUp` up to the synchronizations. -/
def IsisServer.heard (s : IsisServer) (cn : String) (r : Heard) : IsisServer :=
  let s := s.onCircuit cn fun _ => r.circuit
  if r.regen then s.requestLSPRegen else s

/-- The circuit of a name, bare. -/
def IsisServer.bareAt (s : IsisServer) (cn : String) : Option Circuit :=
  (s.circuitNamed cn).map (·.bare)

/-- The IDs of a node and of its circuits, and what `allocCircuitIDs` counts with. -/
structure Roster where
  systemID : SystemID
  nextExtCircID : UInt32
  pseudonodeCursor : Nat
  circuits : List (UInt8 × UInt32)

/-- The IDs in use and the counters. -/
def IsisServer.roster (s : IsisServer) : Roster where
  systemID := s.systemID
  nextExtCircID := s.nextExtCircID
  pseudonodeCursor := s.pseudonodeCursor
  circuits := s.circuits.map fun c => (c.pseudonodeID, c.extCircID)

theorem Circuit.bare_standing (c : Circuit) : c.standing.bare = c.bare :=
  congrArg (fun srm => { c.bare with srm := srm }) c.srm_twice

/-! ## Reading a circuit -/

open IsisServer NodeServer Circuit

theorem bareAt_of_setting (h : b.setting = a.setting) : b.bareAt cn = a.bareAt cn := by
  have hfound : (b.circuitNamed cn).map (·.standing) = (a.circuitNamed cn).map (·.standing) :=
    circuitNamed_of_map (fun _ => rfl) (congrArg circuits h)
  have hread : ∀ x : IsisServer,
      x.bareAt cn = ((x.circuitNamed cn).map (·.standing)).map (·.bare) := by
    intro x
    rw [Option.map_map]
    exact Option.map_congr fun c _ => c.bare_standing.symm
  rw [hread, hread, hfound]

theorem bareAt_of_circuits (h : b.circuits = a.circuits) : b.bareAt cn = a.bareAt cn := by
  unfold bareAt circuitNamed
  rw [h]

theorem bareAt_takeUp {r : Heard} (hc : b.circuitNamed cn' = some c)
    (hr : r.circuit.shell = c.shell) :
    (b.takeUp cn' r now).bareAt cn = if cn = cn' then some r.circuit.bare else b.bareAt cn := by
  have hcfg : r.circuit.cfg = c.cfg := congrArg (·.cfg) hr
  have hname : r.circuit.cfg.name = cn' := by
    rw [hcfg]
    exact name_of_circuitNamed hc
  have hsyncs : (b.takeUp cn' r now).setting = (b.heard cn' r).setting :=
    foldl_keeps (fun _ _ => setting_syncCircuitLevel cn') _ _
  have hheard : (b.heard cn' r).circuitNamed cn =
      if cn = cn' then some r.circuit else b.circuitNamed cn := by
    rw [← circuitNamed_replaced hc hname]
    unfold heard
    split <;> rfl
  rw [bareAt_of_setting hsyncs, bareAt, hheard]
  split <;> rfl

section Node

variable {t : NodeServer} {jitter : Level → LSPID → Int} {force : Bool} {ev : NodeEvent}

theorem NodeServer.Upkeep.bareAt (h : s.Upkeep t) : t.bareAt cn = s.bareAt cn := by
  refine h.congr (·.bareAt cn) fun hstep => ?_
  cases hstep with
  | work b h => exact bareAt_of_setting (setting_of_footing h.footing)
  | sync | overload | generated => rfl

theorem bareAt_onHeard {f : Circuit → Heard} (hf : ∀ c, (f c).circuit.shell = c.shell)
    (hc : s.circuitNamed cn = some c) :
    (s.onHeard cn' f now).1.bareAt cn = some (if cn' = cn then (f c).circuit else c).bare := by
  have hbare : s.bareAt cn = some c.bare := by
    rw [bareAt, hc]
    rfl
  unfold onHeard
  by_cases hcn : cn' = cn
  · subst hcn
    rw [hc, if_pos rfl]
    exact (bareAt_takeUp hc (hf c)).trans (if_pos rfl)
  · rw [if_neg hcn]
    cases hc' : s.circuitNamed cn' with
    | none => exact hbare
    | some d =>
      exact (bareAt_takeUp hc' (hf d)).trans ((if_neg fun h => hcn h.symm).trans hbare)

theorem bareAt_handleRx (hc : s.circuitNamed cn = some c) (cn' : String) (frame : Frame) (j : Int) :
    (s.handleRx cn' frame now j scan).1.bareAt cn =
      some (if cn' = cn then c.afterFrame s frame now scan else c).bare := by
  have hbare : s.bareAt cn = some c.bare := by
    rw [bareAt, hc]
    rfl
  unfold NodeServer.handleRx
  cases hd : s.circuitNamed cn' with
  | none =>
    have hne : cn' ≠ cn := by
      rintro rfl
      cases hc.symm.trans hd
    rw [if_neg hne]
    exact hbare
  | some d =>
    have hsame : cn' = cn → d = c := by
      rintro rfl
      exact Option.some.inj (hd.symm.trans hc)
    unfold afterFrame
    simp only
    cases hdown : d.linkDown with
    | true =>
      by_cases hcn : cn' = cn
      · obtain rfl := hsame hcn
        rw [if_pos hcn, hdown, if_pos rfl]
        exact hbare
      · rw [if_neg hcn]
        exact hbare
    | false =>
      cases hr : (decodePDU (trimToPDULength frame.pdu)).toOption.bind
          (d.hearHello s.hmac s.systemID s.areaAddrs frame.src (trimToPDULength frame.pdu) now
            scan) with
      | none =>
        have hkept : (s.toIsisServer.handleRx (fun b _ _ => b) false cn' frame now j).bareAt cn =
            s.bareAt cn :=
          bareAt_of_setting (setting_of_footing (updated_handleRx cn' frame).footing)
        refine (hkept.trans hbare).trans ?_
        by_cases hcn : cn' = cn
        · obtain rfl := hsame hcn
          rw [if_pos hcn, hdown, hr]
          rfl
        · rw [if_neg hcn]
      | some r =>
        obtain ⟨pdu, -, hheard⟩ := Option.bind_eq_some_iff.mp hr
        refine (bareAt_takeUp hd (shell_hearHello hheard)).trans ?_
        by_cases hcn : cn' = cn
        · obtain rfl := hsame hcn
          rw [if_pos hcn, if_pos hcn.symm, hdown, hr]
          rfl
        · rw [if_neg hcn, if_neg fun h => hcn h.symm, hbare]

/-- What takes adjacencies down asks for no synchronization. -/
theorem Circuit.syncs_dropAdjacencies (c : Circuit) (self : SystemID) (drop : Adjacency → Bool)
    (scan : AdjScan) (now : Int) : (c.dropAdjacencies self drop scan now).syncs = [] := by
  have hneighbor : ∀ level r id, r.syncs = [] →
      (dropNeighbor self level scan now r id).syncs = [] := by
    intro level r id hr
    unfold dropNeighbor
    split <;> exact hr
  unfold dropAdjacencies
  split
  · split
    · rfl
    · split <;> rfl
  · refine foldlRecOn (motive := fun r : Heard => r.syncs = []) _ _ rfl fun r hr level _ => ?_
    exact foldlRecOn (motive := fun r : Heard => r.syncs = []) _ _ hr
      fun r hr id _ => hneighbor level r id hr

/-- What takes adjacencies down on one circuit leaves the others as they are. -/
theorem circuitNamed_drop (cn' : String) (drop : Adjacency → Bool) (self : SystemID) :
    (s.onHeard cn' (·.dropAdjacencies self drop scan now) now).1.circuitNamed cn =
      (s.circuitNamed cn).map fun c =>
        if cn' = cn then (c.dropAdjacencies self drop scan now).circuit else c := by
  unfold onHeard
  cases hd : s.circuitNamed cn' with
  | none =>
    by_cases hcn : cn' = cn
    · subst hcn
      rw [hd]
      rfl
    · simp only [if_neg hcn, Option.map_id']
  | some d =>
    have hcfg : (d.dropAdjacencies self drop scan now).circuit.cfg = d.cfg :=
      congrArg (·.cfg) (shell_dropAdjacencies d self drop scan now)
    have hname : (d.dropAdjacencies self drop scan now).circuit.cfg.name = cn' := by
      rw [hcfg]
      exact name_of_circuitNamed hd
    have htaken : (s.takeUp cn' (d.dropAdjacencies self drop scan now) now).circuitNamed cn =
        if cn = cn' then some (d.dropAdjacencies self drop scan now).circuit else
        s.circuitNamed cn := by
      rw [← circuitNamed_replaced hd hname]
      unfold takeUp
      rw [syncs_dropAdjacencies]
      split <;> rfl
    refine htaken.trans ?_
    by_cases hcn : cn' = cn
    · subst hcn
      rw [if_pos rfl, hd, Option.map_some, if_pos rfl]
    · simp only [if_neg hcn, if_neg (Ne.symm hcn), Option.map_id']

/-- The expiry visits each circuit once. -/
theorem circuitNamed_expire (self : SystemID) (l : List Circuit) (hl : (l.map (·.cfg.name)).Nodup)
    (r : NodeServer × List AdjacencyInfo) :
    (l.foldl (fun r c =>
      let r' := r.1.onHeard c.cfg.name (·.dropAdjacencies self (·.expired now) scan now) now
      (r'.1, r.2 ++ r'.2)) r).1.circuitNamed cn =
      (r.1.circuitNamed cn).map fun c =>
        if cn ∈ l.map (·.cfg.name) then (c.dropAdjacencies self (·.expired now) scan now).circuit
        else c := by
  induction l generalizing r with
  | nil => simp
  | cons d l ih =>
    rw [map_cons, nodup_cons] at hl
    rw [foldl_cons, ih hl.2, circuitNamed_drop, Option.map_map]
    congr 1
    funext c
    simp only [Function.comp_apply, map_cons, mem_cons]
    by_cases hcn : d.cfg.name = cn
    · rw [if_pos hcn, if_neg (hcn ▸ hl.1), if_pos (.inl hcn.symm)]
    rw [if_neg hcn]
    by_cases hmem : cn ∈ l.map (·.cfg.name)
    · rw [if_pos hmem, if_pos (.inr hmem)]
    · rw [if_neg hmem, if_neg (not_or.mpr ⟨fun h => hcn h.symm, hmem⟩)]

theorem circuitNamed_expireAdjacencies (hs : s.NamesApart) (hc : s.circuitNamed cn = some c) :
    (s.expireAdjacencies now scan).1.circuitNamed cn =
      some (c.dropAdjacencies s.systemID (·.expired now) scan now).circuit := by
  have hmem : cn ∈ s.circuits.map (·.cfg.name) :=
    mem_map.mpr ⟨c, mem_of_find?_eq_some hc, name_of_circuitNamed hc⟩
  refine (circuitNamed_expire s.systemID s.circuits hs (s, [])).trans ?_
  rw [hc, Option.map_some, if_pos hmem]

theorem bareAt_setCircuitAddresses (cn' : String) (v4 v6 : List Addr) (connected : List Prefix) :
    (s.setCircuitAddresses cn' v4 v6 connected).bareAt cn = s.bareAt cn := by
  unfold setCircuitAddresses
  split
  · rfl
  split
  · rfl
  · exact circuitNamed_of_map (fun _ => rfl) (map_onCircuit fun _ _ _ => rfl)

/-- Adding a circuit leaves the one of a name that is taken alone. -/
theorem bareAt_addCircuit (hc : s.circuitNamed cn = some c) (cfg : CircuitConfig) :
    (s.addCircuit cfg now jitter).bareAt cn = some c.bare := by
  have hbare : s.bareAt cn = some c.bare := by
    rw [bareAt, hc]
    rfl
  unfold addCircuit
  split
  · rename_i m b hm hb
    refine upkeep_regenerateLSPs.bareAt.trans ?_
    unfold installCircuit at hb
    split at hb
    · cases hb
    · cases hb
      rw [bareAt, circuitNamed_append rfl, hc]
      rfl
  · exact hbare

/-- A circuit that is deleted is gone; the others stay. -/
theorem bareAt_deleteCircuit (name : String) :
    (s.deleteCircuit name now scan jitter).1.bareAt cn = if cn = name then none else
      s.bareAt cn := by
  cases hc : s.circuitNamed name with
  | none =>
    rw [deleteCircuit_of_none hc]
    by_cases hcn : cn = name
    · rw [if_pos hcn, bareAt, hcn, hc]
      rfl
    · rw [if_neg hcn]
  | some c =>
    obtain ⟨b, hupdated, hupkeep⟩ := upkeep_deleteCircuit hc now scan jitter
    refine hupkeep.bareAt.trans ?_
    rw [← bareAt_of_setting (setting_of_footing hupdated.footing), bareAt, circuitNamed_filter rfl]
    split <;> rfl

/-! ## Events -/

/-- **One event on a circuit that stays.** -/
theorem bareAt_exec (hs : s.NamesApart) (hc : s.circuitNamed cn = some c)
    (hstays : ev.deletes cn = false) :
    (ev.exec now s).1.bareAt cn = some (ev.onCircuit s now cn c).bare := by
  have hbare : s.bareAt cn = some c.bare := by
    rw [bareAt, hc]
    rfl
  cases ev with
  | start jitter => exact upkeep_regenerateLSPs.bareAt.trans hbare
  | rx cn' frame jitter scan => exact bareAt_handleRx hc cn' frame jitter
  | linkState cn' up scan =>
    refine bareAt_onHeard (fun d => ?_) hc
    split
    · rfl
    · split
      · rfl
      · exact (shell_dropAdjacencies _ _ _ _ _).trans rfl
  | setAddresses cn' v4 v6 connected =>
    exact (bareAt_setCircuitAddresses cn' v4 v6 connected).trans hbare
  | addCircuit cfg jitter => exact bareAt_addCircuit hc cfg
  | deleteCircuit name scan jitter =>
    have hne : cn ≠ name := fun h => of_decide_eq_false hstays h.symm
    exact (bareAt_deleteCircuit name).trans ((if_neg hne).trans hbare)
  | configure call =>
    unfold NodeEvent.exec configure
    simp only
    split
    · exact hbare
    · exact (bareAt_of_circuits rfl).trans hbare
  | setOverload on => exact (bareAt_of_circuits rfl).trans hbare
  | clearAdjacency cn' id scan =>
    exact bareAt_onHeard (fun d => shell_dropAdjacencies _ _ _ _ _) hc
  | housekeeping scan send jitter =>
    refine ((bareAt_of_setting (setting_floodTransmit send)).trans
      (upkeep_tick rfl).bareAt).trans ?_
    rw [bareAt, circuitNamed_expireAdjacencies hs hc]
    rfl
  | drain jitter => exact upkeep_drainLSPGen.bareAt.trans hbare
  | recompute o =>
    unfold NodeEvent.exec
    simp only
    split
    · exact (bareAt_of_circuits rfl).trans hbare
    · exact hbare

/-- **A circuit that is deleted is gone.** -/
theorem bareAt_exec_deleted (h : ev.deletes cn = true) : (ev.exec now s).1.bareAt cn = none := by
  cases ev with
  | deleteCircuit name scan jitter =>
    exact (bareAt_deleteCircuit name).trans (if_pos (of_decide_eq_true h).symm)
  | _ => cases h

theorem circuitNamed_eq_none : b.circuitNamed cn = none ↔ cn ∉ b.circuits.map (·.cfg.name) := by
  unfold circuitNamed
  rw [find?_eq_none, mem_map, not_exists]
  simp only [decide_eq_true_eq, not_and]

/-- An event that installs nothing brings no circuit in. -/
theorem circuitNamed_of_quiet (hnone : s.circuitNamed cn = none) (h : s.Quiet t) :
    t.circuitNamed cn = none := by
  rw [circuitNamed_eq_none] at hnone ⊢
  rw [names_of_installed h.installed]
  exact hnone

/-- **A circuit that was not there is a new one.** -/
theorem bareAt_exec_none (hs : s.NamesApart) (hnone : s.circuitNamed cn = none)
    (hd : (ev.exec now s).1.bareAt cn = some d) :
    ∃ cfg pn ext, d = (newCircuit cfg pn ext).bare := by
  have hbare : s.bareAt cn = none := by
    rw [bareAt, hnone]
    rfl
  have hquiet : ∀ t : NodeServer, s.Quiet t → t.bareAt cn = none := by
    intro t ht
    rw [bareAt, circuitNamed_of_quiet hnone ht]
    rfl
  have hgone : (ev.exec now s).1.bareAt cn = none → False := fun h => nomatch h.symm.trans hd
  by_cases hev : ev.installs = false
  · exact (hgone (hquiet _ (quiet_exec hs now hev))).elim
  cases ev with
  | setAddresses cn' v4 v6 connected =>
    exact (hgone ((bareAt_setCircuitAddresses cn' v4 v6 connected).trans hbare)).elim
  | addCircuit cfg jitter =>
    unfold NodeEvent.exec addCircuit at hd
    simp only at hd
    split at hd
    · rename_i m b hm hb
      rw [upkeep_regenerateLSPs.bareAt] at hd
      unfold installCircuit at hb
      split at hb
      · cases hb
      cases hb
      rw [bareAt, circuitNamed_append rfl, hnone, Option.none_or] at hd
      obtain ⟨c, hc, rfl⟩ := Option.map_eq_some_iff.mp hd
      rw [mem_singleton.mp (mem_of_find?_eq_some hc)]
      exact ⟨_, _, _, rfl⟩
    · cases hbare.symm.trans hd
  | deleteCircuit name scan jitter =>
    refine (hgone ((bareAt_deleteCircuit name).trans ?_)).elim
    rw [hbare, ite_self]
  | configure call =>
    refine (hgone ?_).elim
    unfold NodeEvent.exec configure
    simp only
    split
    · exact hbare
    · exact (bareAt_of_circuits rfl).trans hbare
  | recompute o =>
    refine (hgone ?_).elim
    unfold NodeEvent.exec
    simp only
    split
    · exact (bareAt_of_circuits rfl).trans hbare
    · exact hbare
  | _ => exact absurd rfl hev

/-- **The roster through an event**: a circuit is added, or the circuits that stay keep their
IDs. -/
theorem roster_exec (hs : s.NamesApart) (now : Int) (ev : NodeEvent) :
    (∃ cfg b, s.installCircuit cfg = some b ∧ ev.gives s = [b.nextExtCircID] ∧
      (ev.exec now s).1.roster = b.roster) ∨
    ev.gives s = [] ∧ ∃ ids, ids.Sublist s.roster.circuits ∧
      (ev.exec now s).1.roster = { s.roster with circuits := ids } := by
  have hquiet : ∀ {a b : NodeServer}, a.Quiet b → b.roster = a.roster := by
    intro a b h
    refine installed_congr (·.roster) (fun x => ?_) h.installed
    simp only [roster, NodeServer.installed, IsisServer.installed, List.map_map]
    rfl
  have hsame : (ev.exec now s).1.roster = s.roster → ∃ ids, ids.Sublist s.roster.circuits ∧
      (ev.exec now s).1.roster = { s.roster with circuits := ids } :=
    fun h => ⟨_, Sublist.refl _, h⟩
  by_cases hev : ev.installs = false
  · refine .inr ⟨?_, hsame (hquiet (quiet_exec hs now hev))⟩
    cases ev with
    | addCircuit => cases hev
    | _ => rfl
  · cases ev with
    | setAddresses cn' v4 v6 connected =>
      refine .inr ⟨rfl, hsame ?_⟩
      unfold NodeEvent.exec setCircuitAddresses
      simp only
      split
      · rfl
      · split
        · rfl
        · refine congrArg (fun ids => { s.toIsisServer.roster with circuits := ids }) ?_
          exact map_onCircuit (s := s.toIsisServer) fun _ _ _ => rfl
    | addCircuit cfg jitter =>
      unfold NodeEvent.exec NodeServer.addCircuit NodeEvent.gives
      simp only
      cases s.managed.addCircuit cfg with
      | error e => exact .inr ⟨rfl, _, Sublist.refl _, rfl⟩
      | ok m =>
        cases hb : s.installCircuit cfg.withDefaults with
        | none => exact .inr ⟨rfl, _, Sublist.refl _, rfl⟩
        | some b => exact .inl ⟨cfg.withDefaults, b, hb, rfl, hquiet upkeep_regenerateLSPs.quiet⟩
    | deleteCircuit name scan jitter =>
      cases hc : s.circuitNamed name with
      | none =>
        refine .inr ⟨rfl, hsame ?_⟩
        unfold NodeEvent.exec
        simp only
        rw [deleteCircuit_of_none hc]
      | some c =>
        obtain ⟨b, hupdated, hupkeep⟩ := upkeep_deleteCircuit hc now scan jitter
        have hroster : b.roster = s.roster := setting_congr (·.roster) (fun x => by
          simp only [roster, setting, List.map_map]
          rfl) (setting_of_footing hupdated.footing)
        refine .inr ⟨rfl, (b.circuits.filter (·.cfg.name ≠ name)).map fun c =>
          (c.pseudonodeID, c.extCircID), ?_, ?_⟩
        · rw [← hroster]
          exact (filter_sublist).map _
        · refine (hquiet hupkeep.quiet).trans ?_
          rw [← hroster]
          rfl
    | configure call =>
      refine .inr ⟨rfl, hsame ?_⟩
      unfold NodeEvent.exec configure
      simp only
      split <;> rfl
    | recompute o =>
      refine .inr ⟨rfl, hsame ?_⟩
      unfold NodeEvent.exec
      simp only
      split <;> rfl
    | _ => exact absurd rfl hev

/-- The system ID is set at the start. -/
theorem systemID_exec (hs : s.NamesApart) (ev : NodeEvent) :
    (ev.exec now s).1.systemID = s.systemID := by
  rcases roster_exec hs now ev with ⟨cfg, b, hb, -, heq⟩ | ⟨-, ids, -, heq⟩
  · refine (congrArg Roster.systemID heq).trans ?_
    unfold installCircuit at hb
    split at hb
    · cases hb
    · cases hb
      rfl
  · exact congrArg Roster.systemID heq

end Node

/-! ## A circuit through an event -/

namespace Circuit

variable {self : SystemID}

theorem LanChange.p2pAdj (h : c.LanChange d) : d.p2pAdj = c.p2pAdj := by
  obtain ⟨adjs, dis, -, rfl⟩ := h
  rfl

theorem p2pAdj_dropAdjacencies (drop : Adjacency → Bool) :
    (c.dropAdjacencies self drop scan now).circuit.p2pAdj = c.p2pAdj ∨
      (c.dropAdjacencies self drop scan now).circuit.p2pAdj = none := by
  cases hp2p : c.cfg.p2p with
  | false => exact .inl (lanChange_dropAdjacencies hp2p self drop scan now).p2pAdj
  | true =>
    unfold dropAdjacencies
    rw [hp2p, if_pos rfl]
    split
    · exact .inl rfl
    split
    · exact .inr rfl
    · exact .inl rfl

theorem p2pAdj_processP2PHello (areas : List Bytes) (src : SNPA) (h : P2PHello) :
    (c.processP2PHello self areas src h now).circuit.p2pAdj = c.p2pAdj ∨
      (c.processP2PHello self areas src h now).circuit.p2pAdj = none ∨
      (c.processP2PHello self areas src h now).circuit.p2pAdj =
      some (c.p2pHeard self areas src h now) := by
  unfold processP2PHello
  split
  · exact .inl rfl
  split
  · split
    · exact .inl rfl
    · split
      · exact .inr (.inl rfl)
      · exact .inl rfl
  · exact .inr (.inr rfl)

theorem neighbor_p2pHeard (self : SystemID) (areas : List Bytes) (src : SNPA) (h : P2PHello)
    (now : Int) : (c.p2pHeard self areas src h now).systemID = h.sourceID := by
  have hnoted : ∀ (a : Adjacency) (rt : Option Restart) (held : Bool) (holding : UInt16),
      (a.noteRestart rt held holding now).systemID = a.systemID := by
    intro a rt held holding
    unfold Adjacency.noteRestart
    split
    · rfl
    · split <;> rfl
  refine (hnoted _ _ _ _).trans ?_
  unfold p2pNeighbor
  cases hadj : c.p2pAdj.filter (·.systemID = h.sourceID) with
  | none => rfl
  | some adj =>
    have hsame := (Option.filter_eq_some_iff.mp hadj).2
    exact of_decide_eq_true hsame

end Circuit

/-- What an event can do to the circuit of a name. -/
inductive CircuitStep (ev : NodeEvent) (s : NodeServer) (now : Int) (cn : String) (c : Circuit) :
    Circuit → Prop where
  | link (down : Bool) : CircuitStep ev s now cn c { c with linkDown := down }
  | drop (down : Bool) (drop : Adjacency → Bool) (scan : AdjScan) :
      CircuitStep ev s now cn c
        ({ c with linkDown := down }.dropAdjacencies s.systemID drop scan now).circuit
  | lanHello (frame : Frame) (jitter : Int) (scan : AdjScan) (h : LANHello)
      (hev : ev = .rx cn frame jitter scan) (hup : c.linkDown = false)
      (hpdu : decodePDU (trimToPDULength frame.pdu) = .ok (.lanHello h))
      (hauth : c.helloAuthOK s.hmac (trimToPDULength frame.pdu) h.pduType = true) :
      CircuitStep ev s now cn c
        (c.processLANHello s.systemID s.areaAddrs frame.src h now scan).circuit
  | p2pHello (frame : Frame) (jitter : Int) (scan : AdjScan) (h : P2PHello)
      (hev : ev = .rx cn frame jitter scan)
      (hpdu : decodePDU (trimToPDULength frame.pdu) = .ok (.p2pHello h)) :
      CircuitStep ev s now cn c (c.processP2PHello s.systemID s.areaAddrs frame.src h now).circuit

/-- **The one case analysis of an event on a circuit.** -/
theorem onCircuit_step (ev : NodeEvent) (s : NodeServer) (now : Int) (cn : String) (c : Circuit) :
    CircuitStep ev s now cn c (ev.onCircuit s now cn c) := by
  have hstays : CircuitStep ev s now cn c c := .link c.linkDown
  cases ev with
  | rx cn' frame jitter scan =>
    unfold NodeEvent.onCircuit
    simp only
    split
    · rename_i hcn
      subst hcn
      unfold afterFrame
      cases hup : c.linkDown with
      | true => exact hstays
      | false =>
        cases hpdu : decodePDU (trimToPDULength frame.pdu) with
        | error e => exact hstays
        | ok pdu =>
          simp only [Bool.false_eq_true, if_false, Except.toOption, Option.bind_some]
          cases hr : c.hearHello s.hmac s.systemID s.areaAddrs frame.src
              (trimToPDULength frame.pdu) now scan pdu with
          | none => exact hstays
          | some r =>
            rcases hearHello_cases hr with ⟨h, rfl, hauth, rfl⟩ | ⟨h, rfl, rfl⟩
            · exact .lanHello frame jitter scan h rfl hup hpdu hauth
            · exact .p2pHello frame jitter scan h rfl hpdu
    · exact hstays
  | linkState cn' up scan =>
    unfold NodeEvent.onCircuit
    simp only
    split
    · unfold afterLinkState
      split
      · exact hstays
      · split
        · exact .link _
        · exact .drop _ _ scan
    · exact hstays
  | clearAdjacency cn' id scan =>
    unfold NodeEvent.onCircuit
    simp only
    split
    · exact .drop c.linkDown _ scan
    · exact hstays
  | housekeeping scan send jitter => exact .drop c.linkDown _ scan
  | _ => exact hstays

theorem shell_onCircuit (ev : NodeEvent) (c : Circuit) :
    (ev.onCircuit s now cn c).shell = c.shell := by
  have hstep := onCircuit_step ev s now cn c
  generalize ev.onCircuit s now cn c = d at hstep
  cases hstep with
  | link => rfl
  | drop => exact (shell_dropAdjacencies _ _ _ _ _).trans rfl
  | lanHello => exact (lanChange_processLANHello _ _ _ _ _ _ _).shell
  | p2pHello => exact shell_processP2PHello _ _ _ _ _ _

/-- **The point-to-point neighbour through an event**: it stays, it goes, or a hello received on the
circuit brings it. -/
theorem p2pAdj_onCircuit (s : NodeServer) (now : Int) (cn : String) (ev : NodeEvent) (c : Circuit) :
    (ev.onCircuit s now cn c).p2pAdj = c.p2pAdj ∨ (ev.onCircuit s now cn c).p2pAdj = none ∨
      ∃ frame jitter scan h, ev = .rx cn frame jitter scan ∧
        decodePDU (trimToPDULength frame.pdu) = .ok (.p2pHello h) ∧
        (ev.onCircuit s now cn c).p2pAdj =
          some (c.p2pHeard s.systemID s.areaAddrs frame.src h now) := by
  have hstep := onCircuit_step ev s now cn c
  generalize ev.onCircuit s now cn c = d at hstep
  cases hstep with
  | link => exact .inl rfl
  | drop down drop scan =>
    exact (p2pAdj_dropAdjacencies (c := { c with linkDown := down }) drop).imp_right .inl
  | lanHello => exact .inl (lanChange_processLANHello _ _ _ _ _ _ _).p2pAdj
  | p2pHello frame jitter scan h hev hpdu =>
    rcases c.p2pAdj_processP2PHello s.areaAddrs frame.src h with hsame | hgone | hheard
    · exact .inl hsame
    · exact .inr (.inl hgone)
    · exact .inr (.inr ⟨frame, jitter, scan, h, hev, hpdu, hheard⟩)

/-! ## Runs -/

section Runs

variable {s₀ : NodeServer} {o : NodeOptions}

theorem namesApart_after (h : newNodeServer o = .ok s₀) (es : List (Int × NodeEvent)) :
    (s₀.after es).NamesApart :=
  (NodeServer.Reachable.wellFormed ⟨o, s₀, es, h, rfl⟩).names

theorem systemID_after (h : newNodeServer o = .ok s₀) (es : List (Int × NodeEvent)) :
    (s₀.after es).systemID = s₀.systemID := by
  induction es using reverseRecOn with
  | nil => rfl
  | append_singleton es e ih =>
    rw [after_concat]
    exact (systemID_exec (namesApart_after h es) e.2).trans ih

/-- The circuits of a node that starts are new. -/
theorem circuits_newNodeServer (h : newNodeServer o = .ok s₀) :
    ∀ c ∈ s₀.circuits, ∃ cfg pn ext, c = newCircuit cfg pn ext := by
  obtain ⟨-, hbase, -⟩ := newNodeServer_base h
  refine newIsisServer_induction
    (P := fun s => ∀ c ∈ s.circuits, ∃ cfg pn ext, c = newCircuit cfg pn ext) hbase (fun c hc =>
      absurd hc not_mem_nil)
    (fun a cfg b hi ha c hc => ?_) fun _ ha => ha
  unfold installCircuit at hi
  split at hi
  · cases hi
  cases hi
  rcases mem_append.mp hc with hc | hc
  · exact ha c hc
  · exact ⟨_, _, _, mem_singleton.mp hc⟩

/-- **One circuit along a run.** What holds of a new circuit, reads off a bare one and survives
every event on the circuit holds of the circuit as long as it is there. -/
theorem circuit_induction {P : List (Int × NodeEvent) → Circuit → Prop}
    (h : newNodeServer o = .ok s₀) (cn : String)
    (bare : ∀ es c d, d.bare = c.bare → P es c → P es d)
    (new : ∀ es cfg pn ext, P es (newCircuit cfg pn ext))
    (step : ∀ es now (ev : NodeEvent) c, (s₀.after es).circuitNamed cn = some c →
      ev.deletes cn = false → P es c → P (es ++ [(now, ev)]) (ev.onCircuit (s₀.after es) now cn c))
    (es : List (Int × NodeEvent)) (hc : (s₀.after es).circuitNamed cn = some c) : P es c := by
  induction es using reverseRecOn generalizing c with
  | nil =>
    obtain ⟨cfg, pn, ext, rfl⟩ := circuits_newNodeServer h c (mem_of_find?_eq_some hc)
    exact new [] cfg pn ext
  | append_singleton es e ih =>
    have hnames := namesApart_after h es
    have hbare : (e.2.exec e.1 (s₀.after es)).1.bareAt cn = some c.bare := by
      rw [bareAt, ← after_concat, hc]
      rfl
    cases hd : (s₀.after es).circuitNamed cn with
    | none =>
      obtain ⟨cfg, pn, ext, heq⟩ := bareAt_exec_none hnames hd hbare
      exact bare _ _ c heq (new _ cfg pn ext)
    | some d =>
      cases hdel : e.2.deletes cn with
      | true =>
        rw [bareAt_exec_deleted hdel] at hbare
        cases hbare
      | false =>
        have hexec : (e.2.exec e.1 (s₀.after es)).1.bareAt cn =
            some (e.2.onCircuit (s₀.after es) e.1 cn d).bare := bareAt_exec hnames hd hdel
        exact bare _ _ c (Option.some.inj (hbare.symm.trans hexec))
          (step es e.1 e.2 d hd hdel (ih hd))

end Runs

end Goisis.Server
