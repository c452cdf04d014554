import Goisis.Server.Fib
import Goisis.Server.NextHopFamilies
import Goisis.Server.NodeRun

/-!
# Connected subnets and the forwarding plane

`updateRIB` leaves out the prefixes in `s.connected`. `SetCircuitAddresses` and `AddCircuit` connect
a circuit's subnets while the table is still the one of before, and `housekeeping` programs that
table again while a write is pending.

* `updates_iff` — for which prefixes `programFIB` calls `Update`, read off what the call leaves;
* `retry_touches_pending` — a retry is for the prefixes whose last write failed;
* `connected_never_programmed` — if no subnet is connected while its write is pending, none is
  written;
* `retry_writes_connected` — a run in which one is.
-/

namespace Goisis.Server

open Lib Packet List FibServer IsisServer NodeServer Option FibCell

/-- The server after calls with one policy. -/
def ran (filter : FIBFilter) (ops : List (FibOp × FibFaults)) : FibServer :=
  new.run (ops.map fun x => ⟨x.1, filter, x.2⟩)

/-- `programFIB(next)` calls `Update` for the prefix: the policy lets its route through, and it is
not both unchanged and installed. No other prefix's turn matters (`cell_programFIB`). -/
def FibServer.Updates (f : FibServer) (filter : FIBFilter) (p : Prefix) (next : RouteTable) :
    Prop :=
  ∃ r, wanted filter next p = some r ∧
    ¬ (changedRoute (f.rib.routes.lookup p) r = false ∧ p ∈ f.fibInstalled ∧ p ∉ f.fibPending)

variable {filter : FIBFilter} {ops : List (FibOp × FibFaults)} {p : Prefix}

/-- **A pass calls `Update` for a prefix exactly if it leaves something else there when that call
fails.** -/
theorem updates_iff (f : FibServer) (next : RouteTable) (withdraw : Prefix → Bool) :
    f.Updates filter p next ↔ (f.programFIB filter ⟨fun _ => true, withdraw⟩ next).cell ∅ p ≠
      (f.programFIB filter ⟨fun _ => false, withdraw⟩ next).cell ∅ p := by
  unfold FibServer.Updates wanted
  rw [cell_programFIB, cell_programFIB]
  unfold FibCell.pass
  cases next.routes.lookup p with
  | none => cases f.rib.routes.lookup p <;> simp
  | some r =>
    cases haccepts : filter.accepts r with
    | false => simp [program, haccepts, filter_some]
    | true =>
      by_cases hskip : changedRoute (f.rib.routes.lookup p) r = false ∧ p ∈ f.fibInstalled ∧
          p ∉ f.fibPending
      · simp [program, haccepts, hskip, cell, filter_some]
      refine iff_of_true ⟨r, by simp [haccepts, filter_some], hskip⟩ fun heq => ?_
      have hcall : ∀ fails, ((f.cell ∅ p).program filter ⟨fun _ => fails, withdraw⟩
          (f.rib.routes.lookup p) r).pending = fails := by
        intro fails
        obtain ⟨seen, hprogram⟩ := program_of_accepts (f.cell ∅ p) ⟨fun _ => fails, withdraw⟩
          (f.rib.routes.lookup p) haccepts
        rw [hprogram, if_neg (by simpa [cell] using hskip)]
        cases fails <;> rfl
      have hsame := congrArg pending heq
      rw [hcall true, hcall false] at hsame
      cases hsame

/-! ## Retries -/

theorem ran_concat (x : FibOp × FibFaults) :
    ran filter (ops ++ [x]) = (ran filter ops).exec ⟨x.1, filter, x.2⟩ := by
  rw [ran, map_append]
  exact foldl_concat _ _ _ _

/-- After a pass exactly the wanted prefixes are recorded, as installed or as pending. -/
theorem recorded_pass {faults : FibFaults} {old next : RouteTable} {c c' : FibCell}
    (hc : c.Inv (old.routes.lookup p)) (heq : c.pass filter faults old next p = c') :
    (c'.installed || c'.pending) = (wanted filter next p).isSome := by
  cases hw : wanted filter next p with
  | none =>
    rcases pass_of_unwanted c faults old hw with ⟨-, hold, hpass⟩ | ⟨seen, hpass⟩
    · rw [← heq, hpass, isSome_none, ← Bool.not_eq_true, Bool.or_eq_true]
      exact fun h => hc.listed h hold
    · rw [← heq, hpass]
      rfl
  | some r =>
    obtain ⟨seen, hpass⟩ := program_of_accepts c faults (old.routes.lookup p)
      (filter_eq_some_iff.mp hw).2
    rw [← heq, pass_of_wanted hw, hpass]
    grind

theorem recorded_run :
    (decide (p ∈ (ran filter ops).fibInstalled) || decide (p ∈ (ran filter ops).fibPending)) =
      (wanted filter (ran filter ops).rib p).isSome := by
  induction ops using reverseRecOn with
  | nil => rfl
  | append_singleton ops x ih =>
    rw [ran_concat]
    cases ht : FibCall.table ⟨x.1, filter, x.2⟩ (ran filter ops) with
    | none => rwa [exec_of_table_none ht]
    | some t => exact (rib_exec ht).symm ▸ recorded_pass (inv_exec _ p) (cell_exec ht).symm

theorem unchanged_self (r : RouteInfo) : changedRoute (some r) r = false := by
  simp [changedRoute, sameRoute]

theorem updates_rib_iff :
    (ran filter ops).Updates filter p (ran filter ops).rib ↔ p ∈ (ran filter ops).fibPending := by
  have hrecorded := @recorded_run filter ops p
  constructor
  · rintro ⟨r, hr, hnot⟩
    rw [hr] at hrecorded
    rw [(filter_eq_some_iff.mp hr).1] at hnot
    by_contra hpend
    exact hnot ⟨unchanged_self r, by simpa [hpend] using hrecorded, hpend⟩
  · intro hpend
    obtain ⟨r, hr⟩ := isSome_iff_exists.mp (by rw [← hrecorded]; simp [hpend])
    exact ⟨r, hr, fun h => h.2.2 hpend⟩

theorem cell_housekeeping (faults : FibFaults) (hpend : p ∉ (ran filter ops).fibPending) :
    ((ran filter ops).housekeeping filter faults).cell ∅ p = (ran filter ops).cell ∅ p := by
  unfold FibServer.housekeeping
  split
  · have hrecorded := @recorded_run filter ops p
    rw [cell_programFIB, FibCell.pass]
    simp only [wanted] at hrecorded
    cases hr : (ran filter ops).rib.routes.lookup p with
    | none => rfl
    | some r =>
      have hsame := unchanged_self r
      cases hin : decide (p ∈ (ran filter ops).fibInstalled) <;>
        simp_all [FibCell.program, FibCell.withdraw, cell, filter_some]
  · rfl

section Mark

variable {now : Int} {jitter : Level → LSPID → Int} {scan : AdjScan} {s t : NodeServer}

theorem NodeServer.Upkeep.dirty (h : s.Upkeep t) (hs : s.spfDirty = true) : t.spfDirty = true := by
  induction h with
  | refl => exact hs
  | tail _ hstep ih =>
    cases hstep with
    | work b h => exact h.dirty ih
    | sync | overload | generated => exact ih

theorem dirty_syncCircuitLevel {b : IsisServer} (h : b.spfDirty = true) (cn : String) (l : Level) :
    (b.syncCircuitLevel cn l now).1.spfDirty = true := by
  unfold syncCircuitLevel
  split
  · exact h
  · split <;> exact h

theorem dirty_takeUp {b : IsisServer} (h : b.spfDirty = true) (cn : String) (r : Heard) :
    (b.takeUp cn r now).spfDirty = true := by
  refine foldlRecOn (motive := fun b : IsisServer => b.spfDirty = true) _ _ ?_
    fun _ hb l _ => dirty_syncCircuitLevel hb cn l
  split
  · rfl
  · exact h

theorem dirty_floodTransmit {b : IsisServer} (h : b.spfDirty = true) (send : Sending) :
    (b.floodTransmit send now).spfDirty = true := by
  refine foldlRecOn (motive := fun b : IsisServer => b.spfDirty = true) _ _ h fun d hd c _ => ?_
  refine foldlRecOn (motive := fun b : IsisServer => b.spfDirty = true) _ _ hd fun e he l _ => ?_
  refine ((updated_transmitSRM _ _ _).trans (updated_transmitPSNP _ _)).dirty ?_
  split
  · exact dirty_syncCircuitLevel he c.cfg.name l
  · exact he

variable (h : s.spfDirty = true)
include h

theorem dirty_onHeard (cn : String) (f : Circuit → Heard) :
    (s.onHeard cn f now).1.spfDirty = true := by
  unfold onHeard
  split
  · exact h
  · exact dirty_takeUp h cn _

/-- **Only a recomputation takes the mark back.** -/
theorem dirty_exec (ev : NodeEvent) (hev : ∀ o, ev ≠ .recompute o) :
    (ev.exec now s).1.spfDirty = true := by
  cases ev with
  | start jitter => exact upkeep_regenerateLSPs.dirty h
  | rx cn frame jitter scan =>
    unfold NodeEvent.exec NodeServer.handleRx
    simp only
    split
    · exact h
    split
    · exact h
    · split
      · exact dirty_takeUp h cn _
      · exact (updated_handleRx cn frame).dirty h
  | linkState cn up scan => exact dirty_onHeard h cn _
  | setAddresses cn v4 v6 connected =>
    unfold NodeEvent.exec setCircuitAddresses
    simp only
    split
    · exact h
    · split
      · exact h
      · rfl
  | addCircuit cfg jitter =>
    unfold NodeEvent.exec addCircuit
    simp only
    split
    · rename_i m b hm hb
      refine upkeep_regenerateLSPs.dirty ?_
      unfold installCircuit at hb
      split at hb
      · cases hb
      · cases hb
        exact h
    · exact h
  | deleteCircuit name scan jitter =>
    cases hc : s.circuitNamed name with
    | none => exact (congrArg (·.1.spfDirty) (deleteCircuit_of_none hc now scan jitter)).trans h
    | some c =>
      obtain ⟨b, hupdated, hupkeep⟩ := upkeep_deleteCircuit hc now scan jitter
      exact hupkeep.dirty (hupdated.dirty h)
  | configure call =>
    unfold NodeEvent.exec configure
    simp only
    split
    · exact h
    · rfl
  | setOverload on => rfl
  | clearAdjacency cn id scan => exact dirty_onHeard h cn _
  | housekeeping scan send jitter =>
    have hexpire : (s.expireAdjacencies now scan).1.spfDirty = true :=
      foldlRecOn (motive := fun r : NodeServer × List AdjacencyInfo => r.1.spfDirty = true) _ _ h
        fun _ hr c _ => dirty_onHeard hr c.cfg.name _
    exact dirty_floodTransmit ((upkeep_tick rfl).dirty hexpire) send
  | drain jitter => exact upkeep_drainLSPGen.dirty h
  | recompute o => exact absurd rfl (hev o)

end Mark

/-! ## Connected subnets -/

/-- **The guard of `updateRIB`**: no connected prefix has a route in the table. -/
theorem lookup_table_connected (s : RoutingServer) (o : Level → UInt8 → SpfOrder) (now : Int)
    (hp : p ∈ s.connected) : (s.table o now).routes.lookup p = none := by
  refine eq_none_iff_forall_ne_some.mpr fun r hr => ?_
  obtain ⟨m, hm, hinfo⟩ := bind_eq_some_iff.mp (lookup_rib.symm.trans hr)
  simpa [masked_of_lookup_merged hm, hp] using (routeInfo_some hinfo).1

/-- The calls of an event that reach the forwarding plane. -/
def NodeEvent.fibCalls (s : NodeServer) (now : Int) (faults : FibFaults) :
    NodeEvent → List (FibOp × FibFaults)
  | .recompute o =>
    let cleared := s.withBase { s.toIsisServer with spfDirty := false }
    if s.spfDirty then [(.updateRIB (cleared.routing.table o now), faults)] else []
  | .housekeeping .. => [(.housekeeping, faults)]
  | _ => []

variable (filter) (timely : Prop) in
/-- The runs of a node whose forwarding plane was empty. If they are `timely`, no event connects a
subnet while its write is pending; and one that leaves no recomputation marked (`AddCircuit`, when
no LSP of ours changes) connects none that has a route. -/
inductive ConnectedRun : NodeServer → List (FibOp × FibFaults) → Prop
  | new (s : NodeServer) : ConnectedRun s []
  | event {s ops} (ev : NodeEvent) (now : Int) (faults : FibFaults) : ConnectedRun s ops →
      (timely → ∀ p ∈ (ev.exec now s).1.connected, p ∈ s.connected ∨
        p ∉ (ran filter ops).fibPending ∧
          ((ev.exec now s).1.spfDirty = true ∨ (ran filter ops).rib.routes.lookup p = none)) →
      ConnectedRun (ev.exec now s).1 (ops ++ ev.fibCalls s now faults)

/-- A recomputation leaves a connected subnet without a route. -/
theorem unrouted_recompute {s : NodeServer} {o : Level → UInt8 → SpfOrder} (now : Int)
    (faults : FibFaults) (hdirty : s.spfDirty = true)
    (hp : p ∈ ((NodeEvent.recompute o).exec now s).1.connected) :
    (ran filter (ops ++ (NodeEvent.recompute o).fibCalls s now faults)).rib.routes.lookup p =
      none := by
  simp only [NodeEvent.exec, hdirty, if_true] at hp
  simp only [NodeEvent.fibCalls, hdirty, if_true, ran_concat]
  exact lookup_table_connected _ o now hp

section Calls

variable {s : NodeServer} (ev : NodeEvent) (now : Int) (faults : FibFaults)
  (hp : p ∈ (ev.exec now s).1.connected)
include hp

/-- An event leaves a connected subnet without a route, or marks the recomputation that will. -/
theorem unrouted_fibCalls (h : s.spfDirty = true ∨ (ran filter ops).rib.routes.lookup p = none) :
    (ev.exec now s).1.spfDirty = true ∨
      (ran filter (ops ++ ev.fibCalls s now faults)).rib.routes.lookup p = none := by
  cases ev with
  | recompute o =>
    by_cases hdirty : s.spfDirty = true
    · exact .inr (unrouted_recompute now faults hdirty hp)
    · simpa [NodeEvent.exec, NodeEvent.fibCalls, hdirty] using h
  | housekeeping scan send jitter =>
    refine h.imp (dirty_exec · _ nofun) fun hnone => ?_
    simp only [NodeEvent.fibCalls, ran_concat]
    unfold FibServer.exec FibServer.housekeeping
    dsimp only
    split <;> simpa using hnone
  | _ =>
    refine h.imp (dirty_exec · _ nofun) fun hnone => ?_
    simpa [NodeEvent.fibCalls] using hnone

/-- An event leaves no write of a connected subnet pending. -/
theorem not_pending_fibCalls (hpend : p ∉ (ran filter ops).fibPending) :
    p ∉ (ran filter (ops ++ ev.fibCalls s now faults)).fibPending := by
  cases ev with
  | recompute o =>
    by_cases hdirty : s.spfDirty = true
    · intro hafter
      exact (inv_exec _ p).listed (.inr (decide_eq_true hafter))
        (unrouted_recompute now faults hdirty hp)
    · simpa [NodeEvent.fibCalls, hdirty] using hpend
  | housekeeping scan send jitter =>
    have hcell := congrArg pending (cell_housekeeping faults hpend)
    simp only [NodeEvent.fibCalls, ran_concat]
    exact fun h => hpend ((decide_eq_decide.mp hcell).mp h)
  | _ => simpa [NodeEvent.fibCalls] using hpend

end Calls

/-- **Connected subnets are never programmed** in a timely run: neither a retry nor a recomputation
calls `Update` for one of them, and while no recomputation is marked none has a route or is recorded
as installed. -/
theorem connected_never_programmed {s : NodeServer} (h : ConnectedRun filter True s ops) :
    ∀ p ∈ s.connected, ¬ (ran filter ops).Updates filter p (ran filter ops).rib ∧
      (∀ o now, ¬ (ran filter ops).Updates filter p (s.routing.table o now)) ∧
      (s.spfDirty = false →
        (ran filter ops).rib.routes.lookup p = none ∧ p ∉ (ran filter ops).fibInstalled) := by
  intro p hp
  have hinv : p ∉ (ran filter ops).fibPending ∧
      (s.spfDirty = true ∨ (ran filter ops).rib.routes.lookup p = none) := by
    induction h with
    | new s => exact ⟨Finset.notMem_empty p, .inr rfl⟩
    | event ev now faults _ htimely ih =>
      rcases htimely trivial p hp with hold | ⟨hpend, hmark | hnone⟩
      · obtain ⟨hpend, hmarked⟩ := ih hold
        exact ⟨not_pending_fibCalls ev now faults hp hpend,
          unrouted_fibCalls ev now faults hp hmarked⟩
      · exact ⟨not_pending_fibCalls ev now faults hp hpend, .inl hmark⟩
      · exact ⟨not_pending_fibCalls ev now faults hp hpend,
          unrouted_fibCalls ev now faults hp (.inr hnone)⟩
  obtain ⟨hpend, hmarked⟩ := hinv
  refine ⟨mt updates_rib_iff.mp hpend, fun o now => ?_, fun hclear => ?_⟩
  · rintro ⟨r, hr, -⟩
    cases (lookup_table_connected s.routing o now hp).symm.trans (filter_eq_some_iff.mp hr).1
  · have hnone := hmarked.resolve_left (by simp [hclear])
    exact ⟨hnone, fun hin => (inv_exec _ p).listed (.inl (decide_eq_true hin)) hnone⟩

/-- `pairServer` with an address of its neighbour, as a node with a recomputation marked. -/
def routedNode : NodeServer :=
  { hmac := fun _ _ _ => [], systemID := router 1 : NodeOptions }.node { pairServer with
    circuits := [familyLink "eth0" [testGateway] [] []]
    spfDirty := true }

/-- The prefix of the neighbour becomes the subnet of `eth0`. -/
def subnetHere : NodeEvent := .setAddresses "eth0" [testGateway] [] [testNet]

/-- The neighbour's prefix is routed, and then connected. -/
theorem connect_testNet {timely : Prop} (faults : FibFaults)
    (h : timely → testNet ∉
      (ran none ((NodeEvent.recompute scanOrder).fibCalls routedNode 0 faults)).fibPending) :
    ConnectedRun none timely
      (subnetHere.exec 0 ((NodeEvent.recompute scanOrder).exec 0 routedNode).1).1
      ((NodeEvent.recompute scanOrder).fibCalls routedNode 0 faults) := by
  have hrun :
      ConnectedRun none timely _ ((NodeEvent.recompute scanOrder).fibCalls routedNode 0 faults) :=
    .event (.recompute scanOrder) 0 faults (.new routedNode) fun _ p hp => by
      exact .inl hp
  refine .event subnetHere 0 .none hrun fun ht p hp => .inr ?_
  have hsubnet : p = testNet := by
    revert p
    decide +kernel
  exact ⟨hsubnet ▸ h ht, .inl (by decide +kernel)⟩

/-- **The retry writes a connected subnet**: its `Update` failed, the subnet is connected during the
SPF hold, and the next tick writes the old table again. -/
theorem retry_writes_connected : ∃ s ops, ConnectedRun none False s ops ∧ ∃ p ∈ s.connected,
    0 < (ran none ops).fibPending.card ∧ (ran none ops).Updates none p (ran none ops).rib :=
  ⟨_, _, connect_testNet ⟨fun _ => true, fun _ => false⟩ False.elim, testNet, by decide +kernel,
    by decide +kernel, updates_rib_iff.mpr (by decide +kernel)⟩

theorem connected_never_programmed_testNet : ∃ s ops, ConnectedRun none True s ops ∧
    ∃ p ∈ s.connected, p ∈ (ran none ops).fibInstalled ∧
      ¬ (ran none ops).Updates none p (ran none ops).rib := by
  have hrun := @connect_testNet True .none fun _ => by decide +kernel
  have hp : testNet ∈
      (subnetHere.exec 0 ((NodeEvent.recompute scanOrder).exec 0 routedNode).1).1.connected := by
    decide +kernel
  exact ⟨_, _, hrun, testNet, hp, by decide +kernel, (connected_never_programmed hrun testNet hp).1⟩

end Goisis.Server
