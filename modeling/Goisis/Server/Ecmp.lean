import Goisis.Lib.FirstHops
import Goisis.Server.SpfRoutes

/-!
# Equal-cost first hops

When do the first-hop sets of `computeSPF` hold the first router of every shortest path, whatever
the heap does with equal distances? A pseudonode is transparent (`firstHopsFor`), and its edges cost
nothing, so two nodes at the same distance can be each other's predecessors, and a pseudonode that
has inherited a hop no longer introduces the routers behind it.

* `ecmp_exact_iff` — with edges out of routers that cost at least 1, the sets are exact in every
  order if and only if the graph leaves no first hop avoidable (`Search.HopsUnavoidable`);
* `ecmp_misses_lan_neighbour` — a graph in which they are not.
-/

namespace Goisis.Server

open Lib Packet

/-- A router other than self, by its system ID. -/
def firstRouter (self n : NodeID) : Option SystemID :=
  if n.pseudonodeID = 0 ∧ n ≠ self then some n.systemID else none

theorem firstRouter_eq_some {self n : NodeID} {x : SystemID} : firstRouter self n = some x ↔
    n.pseudonodeID = 0 ∧ n ≠ self ∧ n.systemID = x := by
  unfold firstRouter
  split
  · rename_i h
    simp [h.1, h.2]
  rename_i h
  constructor
  · intro heq
    cases heq
  · rintro ⟨h0, hne, -⟩
    exact absurd ⟨h0, hne⟩ h

/-- Every edge out of a router costs at least 1; edges out of a pseudonode may cost nothing. -/
def RouterEdgesPositive (nodes : Topology) : Prop :=
  ∀ a node, nodes.lookup a = some node → a.pseudonodeID = 0 → ∀ e ∈ node.edges, 1 ≤ e.metric.toNat

/-- `x` is the first router of a least-cost admissible path to `n`. -/
def IsFirstHop (nodes : Topology) (self n : NodeID) (x : SystemID) : Prop :=
  ∃ p c, AdmissiblePath nodes self p n c ∧ (∀ q c', AdmissiblePath nodes self q n c' → c ≤ c') ∧
    p.findSome? (firstRouter self) = some x

/-- The first-hop set of every visited router is the set of its first hops. -/
def IsisServer.EcmpExact (s : IsisServer) (o : SpfOrder) (level : Level) (algo : UInt8)
    (aff : FlexAlgoAffinity) (now : Int) : Prop :=
  ∀ v ∈ s.spfDone o level algo aff now, v.id ≠ realNode s.systemID → v.id.pseudonodeID = 0 →
    ∀ x, x ∈ v.label ↔ IsFirstHop (s.buildTopology level algo aff now) (realNode s.systemID) v.id x

/-! ## The search -/

section Search

variable {nodes : Topology} {self : NodeID}

theorem hopLabels_spfSearch (nodes : Topology) (self : NodeID) :
    (spfSearch nodes self).HopLabels (firstRouter self) where
  source := by simp [spfSearch, firstRouter]
  inj := by
    intro u v x hu hv
    obtain ⟨hu0, -, hux⟩ := firstRouter_eq_some.mp hu
    obtain ⟨hv0, -, hvx⟩ := firstRouter_eq_some.mp hv
    calc u = ⟨u.systemID, u.pseudonodeID⟩ := rfl
      _ = ⟨v.systemID, v.pseudonodeID⟩ := by rw [hux, hvx, hu0, hv0]
  inherit := by
    intro u l v _ hl
    exact if_pos (Finset.card_pos.mpr (Finset.nonempty_iff_ne_empty.mpr hl))
  introduce := by
    intro u v x hne
    rw [firstRouter_eq_some]
    show x ∈ firstHopsFor ∅ v ↔ _
    unfold firstHopsFor
    rw [if_neg (by simp)]
    by_cases h0 : v.pseudonodeID = 0
    · rw [if_pos h0, Finset.mem_singleton]
      exact ⟨fun hx => ⟨h0, hne, hx.symm⟩, fun h => h.2.2.symm⟩
    · rw [if_neg h0]
      exact ⟨fun hx => absurd hx (Finset.notMem_empty x), fun h => absurd h.1 h0⟩

theorem positiveHops_spfSearch (h : RouterEdgesPositive nodes) (hself : self.pseudonodeID = 0) :
    (spfSearch nodes self).PositiveHops (firstRouter self) := by
  intro u v w hu he
  obtain ⟨node, hnode, -, e, hmem, -, rfl, -⟩ := mem_spfSucc.mp he
  refine h u node hnode ?_ e hmem
  rcases hu with rfl | hne
  · exact hself
  · by_contra h0
    exact hne (if_neg fun hboth => h0 hboth.1)

/-- First hops are the first hops of the search. -/
theorem isFirstHop_iff {n : NodeID} {x : SystemID} {node : SpfNode}
    (hself : nodes.lookup self = some node) : IsFirstHop nodes self n x ↔
      (spfSearch nodes self).ReachedVia (firstRouter self) x n := by
  constructor
  · rintro ⟨p, c, hp, hmin, hx⟩
    have hwalk := (admissiblePath_iff hself).mp hp
    exact ⟨p, ⟨c, hwalk, ⟨p, hwalk⟩, fun q c' hq => hmin q c' ((admissiblePath_iff hself).mpr hq)⟩,
      hx⟩
  · rintro ⟨p, ⟨c, hp, hdist⟩, hx⟩
    exact ⟨p, c, (admissiblePath_iff hself).mpr hp,
      fun q c' hq => hdist.least q c' ((admissiblePath_iff hself).mp hq), hx⟩

/-- Without a node of its own the search goes nowhere. -/
theorem walk_end_of_no_self (hself : nodes.lookup self = none) {p : List NodeID} {n : NodeID}
    {c : ℕ} (h : (spfSearch nodes self).Walk p n c) : n = self := by
  induction h with
  | nil => rfl
  | snoc _ he ih =>
    subst ih
    obtain ⟨node, hnode, -⟩ := mem_spfSucc.mp he
    rw [hself] at hnode
    cases hnode

end Search

/-! ## Exactness -/

section Exactness

variable {s : IsisServer} {level : Level} {algo : UInt8} {aff : FlexAlgoAffinity} {now : Int}

/-- **First-hop sets are exact in every order exactly when no first hop can be avoided**: a router
that is its own first hop on some shortest path has only predecessors on shortest paths that lie
behind no router, or a strictly nearer one of that kind; and any other first hop of it lies before
every chain of predecessors the loop could settle ahead of the rest. -/
theorem ecmp_exact_iff (hbelow : s.LinkMetricsBelow level (2 ^ 24))
    (hpos : RouterEdgesPositive (s.buildTopology level algo aff now)) :
    (∀ o, s.EcmpExact o level algo aff now) ↔
      (spfSearch (s.buildTopology level algo aff now) (realNode s.systemID)).HopsUnavoidable
        (firstRouter (realNode s.systemID)) := by
  have hL := hopLabels_spfSearch (s.buildTopology level algo aff now) (realNode s.systemID)
  have hP := @positiveHops_spfSearch _ (realNode s.systemID) hpos rfl
  cases hself : (s.buildTopology level algo aff now).lookup (realNode s.systemID) with
  | none =>
    -- there is nothing to visit and nothing to reach
    have hnone {n : NodeID} {y : SystemID} {d : ℕ}
        (hn : firstRouter (realNode s.systemID) n = some y)
        (hd : (spfSearch (s.buildTopology level algo aff now) (realNode s.systemID)).IsDist n d) :
        False := by
      obtain ⟨p, hp⟩ := hd.walk
      exact (firstRouter_eq_some.mp hn).2.1 (walk_end_of_no_self hself hp)
    constructor
    · intro _
      exact ⟨fun v y d hv hd _ => (hnone hv hd).elim, fun v y d x hv hd _ _ _ => (hnone hv hd).elim⟩
    · intro _ o v hv
      rw [spfDone_eq_nil hself] at hv
      cases hv
  | some node =>
    constructor
    · intro hexact
      refine Search.hopsUnavoidable_of_runs hL hP maxPathMetric_pos fun pref => ?_
      have hrun :=
        spfVisits_run (scanQueue_prefers fun _ l => pref l) (metricsFit_buildTopology hbelow)
        hself
      refine ⟨s.spfDone (.scan fun _ l => pref l) level algo aff now, hrun.1, hrun.2, ?_⟩
      intro v hv y hy x hx
      obtain ⟨h0, hne, -⟩ := firstRouter_eq_some.mp hy
      exact (hexact _ v hv hne h0 x).mpr ((isFirstHop_iff hself).mpr hx)
    · intro hU o v hv hne h0 x
      obtain ⟨hrun, hcomplete⟩ := @spfDone_run s o level algo aff now hbelow node hself
      have hexact := hrun.exact hcomplete maxPathMetric_pos
      rw [isFirstHop_iff hself]
      exact hrun.mem_label_iff hL hU hexact maxPathMetric_pos hv
        (firstRouter_eq_some.mpr ⟨h0, hne, rfl⟩)

end Exactness

/-! ## Two routers -/

theorem routerEdgesPositive_of_entries {nodes : Topology}
    (h : ∀ x ∈ nodes.entries, x.1.pseudonodeID = 0 → ∀ e ∈ x.2.edges, 1 ≤ e.metric.toNat) :
    RouterEdgesPositive nodes :=
  fun a node hnode h0 => h ⟨a, node⟩ (AList.mem_lookup_iff.mp hnode) h0

/-- Where every edge starts or ends at `self`, no first hop can be avoided. -/
theorem hopsUnavoidable_star {nodes : Topology} {self : NodeID}
    (hstar : ∀ x ∈ nodes.entries, ∀ e ∈ x.2.edges, x.1 = self ∨ e.dst = self)
    (hpos : RouterEdgesPositive nodes) (hself : self.pseudonodeID = 0) :
    (spfSearch nodes self).HopsUnavoidable (firstRouter self) := by
  have hfrom {u v : NodeID} {w : ℕ} {y : SystemID} (hv : firstRouter self v = some y)
      (ht : (spfSearch nodes self).Tight u v w) : u = self := by
    obtain ⟨node, hnode, -, e, he, hdst, -⟩ := mem_spfSucc.mp ht.1
    rcases hstar ⟨u, node⟩ (AList.mem_lookup_iff.mp hnode) e he with hu | hback
    · exact hu
    · exact absurd (hdst.symm.trans hback) (firstRouter_eq_some.mp hv).2.1
  have hclean : ¬ (spfSearch nodes self).Tainted (firstRouter self) self :=
    Search.not_tainted_source (positiveHops_spfSearch hpos hself)
  constructor
  · intro v y d hv _ _ _
    refine .inl fun u w ht => ?_
    rw [hfrom hv ht]
    exact hclean
  · intro v y d x hv _ _ hx hne
    obtain ⟨u, w, ht, hvia | ⟨-, hown⟩⟩ := hx.cases_pred
    · rw [hfrom hv ht] at hvia
      exact absurd ⟨x, hvia⟩ hclean
    · rw [hv] at hown
      exact absurd (Option.some.inj hown).symm hne

/-- Between two routers the condition holds, and the sets are exact in every order. -/
theorem ecmp_exact_iff_pair :
    pairServer.LinkMetricsBelow .level1 (2 ^ 24) ∧
      RouterEdgesPositive (pairServer.buildTopology .level1 0 {} 0) ∧
      (spfSearch (pairServer.buildTopology .level1 0 {} 0)
        (realNode (router 1))).HopsUnavoidable (firstRouter (realNode (router 1))) ∧
      (∀ o, pairServer.EcmpExact o .level1 0 {} 0) ∧
      ⟨realNode (router 2), 10, {router 2}⟩ ∈
        pairServer.spfDone (.scan fun _ _ => true) .level1 0 {} 0 :=
  have hbelow : pairServer.LinkMetricsBelow .level1 (2 ^ 24) :=
    linkMetricsBelow_of_entries rfl (by decide)
  have hpos : RouterEdgesPositive (pairServer.buildTopology .level1 0 {} 0) :=
    routerEdgesPositive_of_entries (by decide)
  have hU := hopsUnavoidable_star (by decide) hpos rfl
  ⟨hbelow, hpos, hU, (ecmp_exact_iff hbelow hpos).mpr hU, by decide⟩

/-! ## A direct neighbour that is missed -/

/-- The pseudonode of the LAN, with router 3 as its designated system. -/
def lanNode : NodeID := ⟨router 3, 1⟩

/-- A broadcast circuit of Level 1 on the LAN, with an adjacency to router 3. -/
def lanLink (name : String) (metric : UInt32) : Circuit :=
  { newCircuit (ethernet name false metric) 1 1 with
    adjs := fun
      | .level1 => some (AList.insert (router 3)
          { systemID := router 3, snpa := Octets.zero 6, state := .up } ∅)
      | .level2 => none
    dis := fun _ => lanNode }

/-- Router 1 reaches the LAN at cost 10 directly and at cost 1 + 9 through router 2. -/
def triangleServer : IsisServer :=
  levelOneServer (router 1) [p2pLink "eth0" 1 (router 2), lanLink "eth1" 10] (announcedDB .level1 0
      [(realNode (router 1), [.extendedISReachability
          [⟨realNode (router 2), 1, []⟩, ⟨lanNode, 10, []⟩]]),
       (realNode (router 2), [.extendedISReachability
          [⟨realNode (router 1), 1, []⟩, ⟨lanNode, 9, []⟩]]),
       (lanNode, [.extendedISReachability [⟨realNode (router 1), 0, []⟩,
          ⟨realNode (router 2), 0, []⟩, ⟨realNode (router 3), 0, []⟩]]),
       (realNode (router 3), [.extendedISReachability [⟨lanNode, 10, []⟩]])])

theorem triangle_below : triangleServer.LinkMetricsBelow .level1 (2 ^ 24) :=
  linkMetricsBelow_of_entries rfl (by decide)

/-- Over the LAN, router 3 is 10 away. -/
theorem triangle_path : AdmissiblePath (triangleServer.buildTopology .level1 0 {} 0)
    (realNode (router 1)) [lanNode, realNode (router 3)] (realNode (router 3)) 10 := by
  have hself : (triangleServer.buildTopology .level1 0 {} 0).lookup (realNode (router 1)) =
      some ⟨[⟨realNode (router 2), 1, false⟩, ⟨lanNode, 10, false⟩], [], false, false⟩ := by decide
  have hlan : (triangleServer.buildTopology .level1 0 {} 0).lookup lanNode =
      some ⟨[⟨realNode (router 1), 0, false⟩, ⟨realNode (router 2), 0, false⟩,
        ⟨realNode (router 3), 0, false⟩], [], false, false⟩ := by decide
  have hthree : (triangleServer.buildTopology .level1 0 {} 0).lookup (realNode (router 3)) =
      some ⟨[⟨lanNode, 10, false⟩], [], false, false⟩ := by decide
  have hstep : AdmissiblePath (triangleServer.buildTopology .level1 0 {} 0) (realNode (router 1))
      [lanNode] lanNode 10 :=
    (AdmissiblePath.start hself).extend (e := ⟨lanNode, 10, false⟩) hself (.inl rfl)
      (by decide) hlan
      ⟨⟨realNode (router 1), 0, false⟩, by decide, rfl⟩
  exact hstep.extend (e := ⟨realNode (router 3), 0, false⟩) hlan (.inr rfl) (by decide) hthree
    ⟨⟨lanNode, 10, false⟩, by decide, rfl⟩

/-- Router 3 is a neighbour of router 1 on the LAN and its own first hop at the least cost, 10, but
the LAN has inherited router 2 as its first hop and no longer introduces router 3. -/
theorem ecmp_misses_lan_neighbour :
    triangleServer.LinkMetricsBelow .level1 (2 ^ 24) ∧
      RouterEdgesPositive (triangleServer.buildTopology .level1 0 {} 0) ∧
      ⟨realNode (router 3), 10, {router 2}⟩ ∈
        triangleServer.spfDone (.scan fun _ _ => true) .level1 0 {} 0 ∧
      IsFirstHop (triangleServer.buildTopology .level1 0 {} 0) (realNode (router 1))
        (realNode (router 3)) (router 3) ∧
      ¬ triangleServer.EcmpExact (.scan fun _ _ => true) .level1 0 {} 0 := by
  have hmem : ⟨realNode (router 3), 10, {router 2}⟩ ∈
      triangleServer.spfDone (.scan fun _ _ => true) .level1 0 {} 0 := by decide
  have hfirst : IsFirstHop (triangleServer.buildTopology .level1 0 {} 0) (realNode (router 1))
      (realNode (router 3)) (router 3) :=
    ⟨_, 10, triangle_path, (admissible_of_mem_spfDone triangle_below hmem).2, by decide⟩
  refine ⟨triangle_below, routerEdgesPositive_of_entries (by decide), hmem, hfirst,
    fun hexact => ?_⟩
  have hin : router 3 ∈ ({router 2} : Finset SystemID) :=
    (hexact _ hmem (by decide) rfl (router 3)).mpr hfirst
  exact absurd hin (by decide)

end Goisis.Server
