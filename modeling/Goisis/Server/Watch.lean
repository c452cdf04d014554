import Goisis.Server.Fib
import Goisis.Server.NextHops
import Goisis.Server.UpDown

/-!
# The route watch stream

Model of `Subscribe` (`pkg/server/watch.go`) as far as routes go: the snapshot in
`Subscription.Initial`, taken in the operation that registers the subscriber, and the events
`programFIB` sends from then on. The subscriber keeps up, so every event reaches it.

* `seen_pass_iff` — when one pass tells a subscriber all it has to know about a prefix;
* `route_stream_replays_iff` — when the stream replays the routing table after every call;
* `level_change_is_silent` — a route that moves from Level 1 to Level 2 at the same metric and next
  hops is not announced.
-/

namespace Goisis.Server

open Lib Packet List

/-! ## Subscriptions -/

/-- The route part of `initialEvents`: one event for each route, in the order of the prefixes. -/
def initialRoutes (t : RouteTable) : List RouteEvent :=
  (t.list.insertionSort fun a b => prefixLE a.pfx b.pfx).map fun r => ⟨r, false⟩

namespace FibServer

/-- `Subscribe`: the stream starts empty. -/
def subscribe (s : FibServer) : FibServer := { s with sent := [] }

/-- What the subscriber of `s.subscribe` knows of the routes after the calls. -/
def replayed (s : FibServer) (calls : List FibCall) : Map Prefix RouteInfo :=
  replayRoutes (replayRoutes ∅ (initialRoutes s.rib)) (s.subscribe.run calls).sent

end FibServer

/-- A list of announcements without repetition leaves the subscriber with its routes. -/
theorem lookup_replay_announced {l : List RouteInfo} (hl : (l.map (·.pfx)).Nodup) (p : Prefix)
    (r : RouteInfo) : (replayRoutes ∅ (l.map fun r => ⟨r, false⟩)).lookup p = some r ↔
      r ∈ l ∧ r.pfx = p := by
  have hfold : replayRoutes ∅ (l.map fun r => ⟨r, false⟩) =
      Map.ofList (l.map fun r => (r.pfx, r)) := by
    rw [replayRoutes, Map.ofList, foldl_map, foldl_map]
    rfl
  have hkeys : ((l.map fun r => (r.pfx, r)).map Prod.fst).Nodup := by
    rw [List.map_map]
    exact hl
  rw [hfold, Map.lookup_ofList hkeys, mem_map]
  constructor
  · rintro ⟨r', hr', heq⟩
    obtain ⟨rfl, rfl⟩ := Prod.mk.inj heq
    exact ⟨hr', rfl⟩
  · rintro ⟨hr, rfl⟩
    exact ⟨r, hr, rfl⟩

/-- **The snapshot is the table.** -/
theorem lookup_replay_initialRoutes (t : RouteTable) (p : Prefix) :
    (replayRoutes ∅ (initialRoutes t)).lookup p = t.routes.lookup p := by
  have hperm := perm_insertionSort (fun a b : RouteInfo => prefixLE a.pfx b.pfx) t.list
  have hnodup := (hperm.map (·.pfx)).nodup_iff.mpr t.nodup_list
  ext r
  rw [initialRoutes, lookup_replay_announced hnodup, mem_insertionSort, RouteTable.mem_list]
  constructor
  · rintro ⟨h, rfl⟩
    exact h
  · intro h
    have hpfx := t.keyed p r h
    exact ⟨hpfx ▸ h, hpfx⟩

/-! ## What a pass announces -/

/-- The two routes do not differ in what `sameRoute` leaves out. -/
def RouteInfo.SameRank (a b : RouteInfo) : Prop := a.level = b.level ∧ a.preference = b.preference

/-- No prefix changes its level or preference class while its metric, algorithm and next hops
stay. -/
def RanksKept (old next : RouteTable) (p : Prefix) : Prop :=
  ∀ o r, old.routes.lookup p = some o → next.routes.lookup p = some r → sameRoute o r = true →
    o.SameRank r

theorem eq_of_sameRoute {a b : RouteInfo} (hpfx : a.pfx = b.pfx) (h : sameRoute a b = true)
    (hrank : a.SameRank b) : a = b := by
  obtain ⟨hmetric, halgo, hhops⟩ := sameRoute_iff.mp h
  cases a
  cases b
  simp only [RouteInfo.SameRank] at hpfx hmetric halgo hhops hrank
  rw [hpfx, hmetric, halgo, hhops, hrank.1, hrank.2]

theorem seen_program (c : FibCell) (filter : FIBFilter) (faults : FibFaults)
    (cur : Option RouteInfo) (r : RouteInfo) : (c.program filter faults cur r).seen =
      if changedRoute cur r then some r else c.seen := by
  unfold FibCell.program
  cases changedRoute cur r <;> simp only [Bool.false_eq_true, if_false, if_true] <;>
    (repeat' split) <;> rfl

/-- **When a pass tells a subscriber all there is to know**: a subscriber that knew the old route of
a prefix knows the new one afterwards unless only its level or preference class changed. -/
theorem seen_pass_iff {c : FibCell} {filter : FIBFilter} {faults : FibFaults}
    {old next : RouteTable} {p : Prefix} (hc : c.seen = old.routes.lookup p) :
    (c.pass filter faults old next p).seen = next.routes.lookup p ↔ RanksKept old next p := by
  unfold FibCell.pass RanksKept
  cases hnext : next.routes.lookup p with
  | none =>
    cases hold : old.routes.lookup p with
    | none => simp [hc, hold]
    | some o => simp [FibCell.withdraw]
  | some r =>
    simp only [seen_program]
    cases hold : old.routes.lookup p with
    | none => simp [changedRoute]
    | some o =>
      have hpfx : o.pfx = r.pfx := (old.keyed p o hold).trans (next.keyed p r hnext).symm
      cases hsame : sameRoute o r with
      | false => simp [changedRoute, hsame]
      | true =>
        simp only [changedRoute, Option.any_some, hsame, Bool.not_true, Bool.false_eq_true,
          if_false, hc, hold, Option.some.injEq]
        constructor
        · rintro rfl o' r' rfl rfl -
          exact ⟨rfl, rfl⟩
        · intro h
          exact eq_of_sameRoute hpfx hsame (h o r rfl rfl hsame)

/-! ## The stream -/

/-- The call programs a table that keeps the ranks of the current one. -/
def FibCall.KeepsRanks (c : FibCall) (s : FibServer) : Prop :=
  ∀ t, c.table s = some t → ∀ p, RanksKept s.rib t p

/-- What the subscriber knows is the routing table. -/
def FibServer.Replays (s : FibServer) (calls : List FibCall) : Prop :=
  ∀ p, (s.replayed calls).lookup p = (s.subscribe.run calls).rib.routes.lookup p

section Stream

variable {s : FibServer} {calls : List FibCall} {c : FibCall}

theorem replays_nil : s.Replays [] := lookup_replay_initialRoutes s.rib

/-- **One call**: a subscriber that knew the table knows it after the call exactly if the call keeps
the ranks. -/
theorem replays_concat (h : s.Replays calls) :
    s.Replays (calls ++ [c]) ↔ c.KeepsRanks (s.subscribe.run calls) := by
  have hrun : s.subscribe.run (calls ++ [c]) = (s.subscribe.run calls).exec c :=
    foldl_concat _ _ _ _
  unfold FibServer.Replays FibServer.replayed
  rw [hrun]
  cases ht : c.table (s.subscribe.run calls) with
  | none =>
    rw [exec_of_table_none ht]
    refine ⟨fun _ t hsome => ?_, fun _ => h⟩
    cases ht.symm.trans hsome
  | some t =>
    rw [rib_exec ht]
    have hkeeps : c.KeepsRanks (s.subscribe.run calls) ↔
        ∀ p, RanksKept (s.subscribe.run calls).rib t p :=
      ⟨fun hk => hk t ht, fun hk t' ht' => by rwa [← Option.some.inj (ht.symm.trans ht')]⟩
    rw [hkeeps]
    refine forall_congr' fun p => ?_
    -- what the subscriber knows about the prefix is the `seen` of its cell
    have hbefore :
        (FibServer.cell (replayRoutes ∅ (initialRoutes s.rib)) (s.subscribe.run calls) p).seen =
        (s.subscribe.run calls).rib.routes.lookup p := h p
    rw [← seen_pass_iff hbefore, ← cell_exec ht]
    rfl

/-- **The stream replays the routing table exactly if no route changes its level or preference class
alone.** For a subscriber that joins after any run: its view is the table after each of the later
calls if and only if none of them replaces a route by one of the same metric, algorithm and next
hops that differs in level or preference class. -/
theorem route_stream_replays_iff (earlier later : List FibCall) :
    (∀ done, done <+: later → (FibServer.new.run earlier).Replays done) ↔
    ∀ done c, done ++ [c] <+: later →
      c.KeepsRanks ((FibServer.new.run earlier).subscribe.run done) := by
  constructor
  · intro h done c hdone
    exact (replays_concat (h done ((prefix_append _ _).trans hdone))).mp (h _ hdone)
  · intro h done hdone
    induction done using reverseRecOn with
    | nil => exact replays_nil
    | append_singleton done c ih =>
      exact (replays_concat (ih ((prefix_append _ _).trans hdone))).mpr (h done c hdone)

end Stream

/-! ## A silent change -/

/-- Router 1 with router 2 as its neighbour at both levels, router 2 advertising the prefix at
Level 2. -/
def bothLevelsServer : RoutingServer :=
  { borderServer with
    circuits := [{ newCircuit (ethernet "eth0" true 10) 1 1 with
      p2pAdj := some { systemID := router 2, snpa := Octets.zero 6, state := .up,
                       levels := ⟨true, true⟩, neighborIPv4 := [testGateway] } }]
    dbs := fun
      | .level1 => some ∅
      | .level2 => some (announcedDB .level2 0
          [(realNode (router 1), [.extendedISReachability [⟨realNode (router 2), 10, []⟩]]),
           (realNode (router 2), [.extendedISReachability [⟨realNode (router 1), 10, []⟩],
             .extendedIPReachability [⟨5, false, false, testNet, []⟩]])]) }

/-- The table while router 2 advertises the prefix at Level 1 too. -/
def intraAreaTable : RouteTable :=
  (bothLevelsServer.withLevel1
    (areaOf [.extendedIPReachability [⟨5, false, false, testNet, []⟩]])).table scanOrder 0

/-- The table once router 2's Level 1 LSP no longer has the prefix. -/
def interAreaTable : RouteTable := (bothLevelsServer.withLevel1 (areaOf [])).table scanOrder 0

/-- The recomputation after the new LSP. -/
def levelChange : List FibCall := [⟨.updateRIB interAreaTable, none, .none⟩]

/-- **A change of level is not announced**: the route moves from Level 1 to Level 2 at the same
metric and next hop, and the subscriber still has the old one. -/
theorem level_change_is_silent :
    ((FibServer.new.run [⟨.updateRIB intraAreaTable, none, .none⟩]).replayed levelChange).lookup
        testNet = some ⟨testNet, 15, .level1, 1, 0, [⟨"eth0", testGateway⟩]⟩ ∧
      ((FibServer.new.run [⟨.updateRIB intraAreaTable, none, .none⟩]).subscribe.run
        levelChange).rib.routes.lookup testNet =
          some ⟨testNet, 15, .level2, 2, 0, [⟨"eth0", testGateway⟩]⟩ := by
  decide

end Goisis.Server
