import Goisis.Server.NextHops

/-!
# Next hops over parallel links

SPF knows a neighbour by its system ID, so it forgets which of several links to it gave the
distance; `findAdjacency` picks the first circuit with an adjacency to it.

* `parallel_links_iff` — the adjacency states in which, for every database whose own node LSP
  reflects them, every next hop leaves through a circuit as cheap as the first edge of a shortest
  path;
* `costlier_link_chosen` — two links to one neighbour, of which the costlier is configured first.
-/

namespace Goisis.Server

open Lib Packet List Option

variable {s : IsisServer} {level : Level} {now : Int} {p : Prefix} {e : SpfEdge}

/-! ## The first edge of a path -/

/-- An admissible path whose first edge costs `w`. -/
inductive PathOver (nodes : Topology) (self : NodeID) (w : ℕ) :
    List NodeID → NodeID → ℕ → Prop where
  | first {node nb : SpfNode} {e : SpfEdge} (ha : nodes.lookup self = some node)
      (he : e ∈ node.edges) (hw : e.metric.toNat = w) (hb : nodes.lookup e.dst = some nb)
      (hback : ∃ e' ∈ nb.edges, e'.dst = self) : PathOver nodes self w [e.dst] e.dst w
  | extend {q : List NodeID} {a : NodeID} {c : ℕ} {node nb : SpfNode} {e : SpfEdge}
      (h : PathOver nodes self w q a c) (ha : nodes.lookup a = some node)
      (hover : a = self ∨ node.overload = false) (he : e ∈ node.edges)
      (hb : nodes.lookup e.dst = some nb) (hback : ∃ e' ∈ nb.edges, e'.dst = a) :
      PathOver nodes self w (q ++ [e.dst]) e.dst (c + e.metric.toNat)

section Paths

variable {nodes : Topology} {self n : NodeID} {w c : ℕ} {q : List NodeID}

theorem AdmissiblePath.eq_of_nil (h : AdmissiblePath nodes self q n c) (hq : q = []) :
    n = self ∧ c = 0 := by
  cases h with
  | start _ => exact ⟨rfl, rfl⟩
  | extend _ _ _ _ _ _ => exact absurd hq (by simp)

/-- The first edge of a path that leaves self. -/
theorem AdmissiblePath.exists_over (h : AdmissiblePath nodes self q n c) (hq : q ≠ []) :
    ∃ w, PathOver nodes self w q n c := by
  induction h with
  | start _ => exact absurd rfl hq
  | @extend q a c node nb e h ha hover he hb hback ih =>
    by_cases hnil : q = []
    · obtain ⟨rfl, rfl⟩ := h.eq_of_nil hnil
      refine ⟨e.metric.toNat, ?_⟩
      rw [hnil, Nat.zero_add]
      exact .first ha he rfl hb hback
    · obtain ⟨w, hw⟩ := ih hnil
      exact ⟨w, hw.extend ha hover he hb hback⟩

variable (h : PathOver nodes self w q n c)

include h

/-- The edge itself, and what is to be paid behind it. -/
theorem PathOver.first_edge : ∃ node nb e,
    nodes.lookup self = some node ∧ e ∈ node.edges ∧ e.metric.toNat = w ∧ q.head? = some e.dst ∧
      nodes.lookup e.dst = some nb ∧ (∃ e' ∈ nb.edges, e'.dst = self) ∧ w ≤ c := by
  induction h with
  | first ha he hw hb hback => exact ⟨_, _, _, ha, he, hw, rfl, hb, hback, Nat.le_refl _⟩
  | @extend q a c node nb e h ha hover he hb hback ih =>
    obtain ⟨node, nb, e', hself, hmem, hw, hhead, hb', hback', hle⟩ := ih
    exact ⟨node, nb, e', hself, hmem, hw, by simp [head?_append, hhead], hb', hback', by omega⟩

/-- Another way to the end of the first edge is another way to the end of the path. -/
theorem PathOver.reroute {a : NodeID} (ha : q.head? = some a) {q' : List NodeID} {c' : ℕ}
    (h' : AdmissiblePath nodes self q' a c') :
    ∃ q'', AdmissiblePath nodes self q'' n (c' + (c - w)) := by
  induction h with
  | first _ _ _ _ _ =>
    cases ha
    exact ⟨q', by simpa using h'⟩
  | @extend q b c node nb e h hb hover he hb' hback ih =>
    obtain ⟨_, _, _, -, -, -, hhead, -, -, hle⟩ := h.first_edge
    have hq : q.head? = some a := by
      rw [head?_append, hhead] at ha
      rw [hhead]
      exact ha
    obtain ⟨q'', h''⟩ := ih hq
    refine ⟨q'' ++ [e.dst], ?_⟩
    have hsum : c' + (c + e.metric.toNat - w) = c' + (c - w) + e.metric.toNat := by omega
    rw [hsum]
    exact h''.extend hb hover he hb' hback

/-- The first edge of a shortest path is a shortest path to its end. -/
theorem PathOver.first_least (hmin : ∀ q' c', AdmissiblePath nodes self q' n c' → c ≤ c')
    {a : NodeID} (ha : q.head? = some a) {q' : List NodeID} {c' : ℕ}
    (h' : AdmissiblePath nodes self q' a c') : w ≤ c' := by
  obtain ⟨q'', h''⟩ := h.reroute ha h'
  have hle := hmin q'' _ h''
  obtain ⟨_, _, _, -, -, -, -, -, -, hwc⟩ := h.first_edge
  omega

end Paths

/-! ## Leaving over a shortest first edge -/

/-- Node `n`, `d` away, supplies the route to `p` at metric `m`: it advertises the prefix, or is an
attached exit for the default. -/
def Supplies (nodes : Topology) (p : Prefix) (m : ℕ) (n : NodeID) (d : ℕ) : Prop :=
  ∃ node, nodes.lookup n = some node ∧ ((∃ q ∈ node.prefixes, q.pfx = p ∧ d + q.metric.toNat = m) ∨
      ((p = defaultV4 ∨ p = defaultV6) ∧ node.attached = true ∧ d = m))

/-- Every next hop of every route of algorithm 0 at the level leaves through a circuit that costs
what the first edge of a shortest path to a supplier of the route costs. -/
def RoutingServer.LeavesOverShortest (s : RoutingServer) (o : Level → UInt8 → SpfOrder)
    (level : Level) (now : Int) : Prop :=
  ∀ p ri, (s.updateRIB o now).rib.lookup p = some ri → ri.level = level → ri.algorithm = 0 →
    ∀ nh ∈ ri.nextHops, ∃ c ∈ s.circuits, c.cfg.name = nh.interface ∧ ∃ q n d,
      PathOver (s.buildTopology level 0 {} now) (realNode s.systemID) c.cfg.metric.toNat q n d ∧
        (∀ q' d', AdmissiblePath (s.buildTopology level 0 {} now) (realNode s.systemID) q' n d' →
          d ≤ d') ∧
        Supplies (s.buildTopology level 0 {} now) p ri.metric.toNat n d

/-- Our own node LSP, fragment 0 present, lists exactly what the circuits stand for. -/
def IsisServer.OwnReflects (s : IsisServer) (level : Level) (now : Int) : Prop :=
  ∃ db, s.dbs level = some db ∧ ∀ n m,
    (∃ nb ∈ reachEntries (nodeTLVs db (realNode s.systemID) now), nb.neighborID = n ∧
      nb.metric = m) ↔
      ∃ c ∈ s.circuits, c.ownEdge level = some n ∧ c.cfg.metric = m

/-- The edge of circuit `k` can be the first of a path whose first router is `h`. -/
def IsisServer.LeadsTo (s : IsisServer) (level : Level) (k : Circuit) (h : SystemID) : Prop :=
  ∃ n, k.ownEdge level = some n ∧ s.edgeHasAdjacency level n = true ∧ s.CanBeFirstHop level h ∧
    (n = realNode h ∨ n.pseudonodeID ≠ 0)

/-- No circuit to the same neighbour is cheaper. -/
def IsisServer.Cheapest (s : IsisServer) (level : Level) (k : Circuit) : Prop :=
  ∀ k' ∈ s.circuits, k'.ownEdge level = k.ownEdge level → k.cfg.metric.toNat ≤ k'.cfg.metric.toNat

section Visits

variable {o : SpfOrder} {r : Route} {h : SystemID}

/-- **A first hop of a route comes from a supplier at the route's metric.** -/
theorem exists_supplier (hbelow : s.LinkMetricsBelow level (2 ^ 24))
    (hr : (s.computeSPF o level 0 {} now).lookup p = some r) (hh : h ∈ r.nextHops) :
    ∃ v ∈ s.spfDone o level 0 {} now, h ∈ v.label ∧
      Supplies (s.buildTopology level 0 {} now) p r.metric.toNat v.id v.dist := by
  have hbest := isBest_of_lookup_some hbelow hr
  obtain ⟨l, ⟨cls, m, l', hoff, heq⟩, hl⟩ := (hbest.label h).mp (mem_toFinset.mpr hh)
  have hm := Nat.lt_trans (hoff.lt_maxPathMetric hbelow) (by decide : maxPathMetric < 2 ^ 32)
  obtain ⟨hrank, rfl⟩ := Prod.mk.inj heq
  obtain ⟨-, hmetric⟩ := (rank_eq_iff r.metric.toNat_lt hm).mp hrank
  rw [hmetric]
  cases hoff with
  | @advertised v node q hv hself hnode hlabel hq hp hlt =>
    exact ⟨v, hv, hl, node, hnode, .inl ⟨q, hq, hp, rfl⟩⟩
  | attachedDefault huse hp hexits =>
    obtain ⟨l', ⟨v, hv, hexit, heq⟩, hl⟩ := (hexits.label h).mp hl
    obtain ⟨rfl, rfl⟩ := Prod.mk.inj heq
    refine ⟨v, hv, hl, ?_⟩
    unfold isAttachedExit at hexit
    cases hnode : (s.buildTopology level 0 {} now).lookup v.id with
    | none =>
      rw [hnode] at hexit
      cases hexit
    | some node =>
      rw [hnode] at hexit
      simp only [Bool.and_eq_true] at hexit
      exact ⟨node, hnode, .inr ⟨hp, hexit.1.1.2, rfl⟩⟩

/-- The first hop of a visited node stands first on a shortest path to it. -/
theorem exists_pathOver (hbelow : s.LinkMetricsBelow level (2 ^ 24)) {v : SpfVisit}
    (hv : v ∈ s.spfDone o level 0 {} now) (hh : h ∈ v.label) :
    ∃ q w, PathOver (s.buildTopology level 0 {} now) (realNode s.systemID) w q v.id v.dist ∧
      q.findSome? (firstRouter (realNode s.systemID)) = some h := by
  obtain ⟨node, hself⟩ := exists_self_of_mem hv
  obtain ⟨hrun, hcomplete⟩ := @spfDone_run s o level 0 {} now hbelow node hself
  have hexact := hrun.exact hcomplete maxPathMetric_pos
  obtain ⟨q, ⟨c, hq, hc⟩, hfirst⟩ :=
    (hrun.reachedVia_of_mem (hopLabels_spfSearch _ _) hexact v hv).1 h hh
  obtain rfl := hc.unique (hexact v hv)
  have hne : q ≠ [] := by
    rintro rfl
    cases hfirst
  obtain ⟨w, hw⟩ := ((admissiblePath_iff hself).mpr hq).exists_over hne
  exact ⟨q, w, hw, hfirst⟩

end Visits

/-! ## Reflecting databases -/

section Reflects

variable {node : SpfNode}

/-- The edges of self are the circuits' that have an adjacency. -/
theorem mem_edges_own (hrefl : s.OwnReflects level now)
    (hnode : (s.buildTopology level 0 {} now).lookup (realNode s.systemID) = some node) :
    e ∈ node.edges ↔ (∃ c ∈ s.circuits, c.ownEdge level = some e.dst ∧ c.cfg.metric = e.metric) ∧
      e.metric.toNat < maxPathMetric ∧ e.hasAttrs = false ∧
      s.edgeHasAdjacency level e.dst = true := by
  obtain ⟨db, e₀, hdb, -, -, rfl⟩ := lookup_buildTopology.mp hnode
  obtain ⟨db', hdb', hown⟩ := hrefl
  obtain rfl : db = db' := some.inj (hdb.symm.trans hdb')
  rw [← hown]
  have hedges : (s.topologyNode db level 0 {} now (realNode s.systemID) e₀).edges =
      (nodeEdges {} (realNode s.systemID) (nodeTLVs db (realNode s.systemID) now)).filter
        fun x => s.edgeHasAdjacency level x.dst := if_pos rfl
  rw [hedges, mem_filter_nodeEdges]

/-- The circuit behind the first edge of a shortest path has no cheaper one beside it. -/
theorem exists_cheapest_of_pathOver (hrefl : s.OwnReflects level now) {n : NodeID} {w d : ℕ}
    {q : List NodeID} (hmetric : ∀ c ∈ s.circuits, c.cfg.metric.toNat < 2 ^ 24)
    (hq : PathOver (s.buildTopology level 0 {} now) (realNode s.systemID) w q n d)
    (hmin : ∀ q' d', AdmissiblePath (s.buildTopology level 0 {} now) (realNode s.systemID) q' n d' →
      d ≤ d') :
    ∃ k ∈ s.circuits, ∃ m, q.head? = some m ∧ k.ownEdge level = some m ∧ k.cfg.metric.toNat = w ∧
      s.edgeHasAdjacency level m = true ∧ s.Cheapest level k := by
  obtain ⟨node, nb, e, hnode, he, hw, hhead, hb, hback, -⟩ := hq.first_edge
  obtain ⟨⟨k, hk, hedge, hkm⟩, -, hattrs, hadj⟩ := (mem_edges_own hrefl hnode).mp he
  refine ⟨k, hk, e.dst, hhead, hedge, by rw [hkm]; exact hw, hadj, fun k' hk' hedge' => ?_⟩
  have hlt : k'.cfg.metric.toNat < maxPathMetric := Nat.lt_trans (hmetric k' hk') (by decide)
  have he' : (⟨e.dst, k'.cfg.metric, false⟩ : SpfEdge) ∈ node.edges :=
    (mem_edges_own hrefl hnode).mpr ⟨⟨k', hk', by rw [hedge', hedge], rfl⟩, hlt, rfl, hadj⟩
  have hpath := (AdmissiblePath.start hnode).extend hnode (.inl rfl) he' hb hback
  have hle := hq.first_least hmin hhead hpath
  rw [hkm, hw]
  simpa using hle

/-- The first edge of a shortest path leads to the first router of that path, or to a LAN. -/
theorem first_edge_leads {h : SystemID} {n m : NodeID} {w d : ℕ} {q : List NodeID}
    (hq : PathOver (s.buildTopology level 0 {} now) (realNode s.systemID) w q n d)
    (hmin : ∀ q' d', AdmissiblePath (s.buildTopology level 0 {} now) (realNode s.systemID) q' n d' →
      d ≤ d') (hw : 0 < w) (hm : q.head? = some m)
    (hfirst : q.findSome? (firstRouter (realNode s.systemID)) = some h) :
    m = realNode h ∨ m.pseudonodeID ≠ 0 := by
  by_cases hpn : m.pseudonodeID = 0
  · left
    have hne : m ≠ realNode s.systemID := by
      rintro rfl
      obtain ⟨node, -, -, hnode, -⟩ := hq.first_edge
      have := hq.first_least hmin hm (.start hnode)
      omega
    obtain ⟨rest, rfl⟩ : ∃ rest, q = m :: rest := by
      cases q with
      | nil => cases hm
      | cons a rest => exact ⟨rest, by rw [some.inj hm]⟩
    have hrouter : firstRouter (realNode s.systemID) m = some m.systemID :=
      firstRouter_eq_some.mpr ⟨hpn, hne, rfl⟩
    rw [findSome?_cons, hrouter] at hfirst
    obtain rfl := some.inj hfirst
    calc m = ⟨m.systemID, m.pseudonodeID⟩ := rfl
      _ = realNode m.systemID := by rw [hpn]; rfl
  · exact .inr hpn

end Reflects

/-! ## Which adjacency states do -/

/-- The circuit a system resolves to costs what the cheapest circuit of each kind that can lead to
the system costs. -/
def RoutingServer.ResolvesToCheapest (s : RoutingServer) (level : Level) : Prop :=
  ∀ h p nh k, k ∈ s.circuits → s.LeadsTo level k h → s.Cheapest level k → p.masked = p →
    s.connected.contains p = false → s.nextHopVia p h = some nh →
    ∃ c ∈ s.circuits, c.cfg.name = nh.interface ∧ c.cfg.metric = k.cfg.metric

section Exactness

variable {s : RoutingServer} {o : Level → UInt8 → SpfOrder}

theorem leavesOverShortest_of_resolves
    (hmetric : ∀ c ∈ s.circuits, 0 < c.cfg.metric.toNat ∧ c.cfg.metric.toNat < 2 ^ 24)
    (hbelow : s.LinkMetricsBelow level (2 ^ 24)) (hrefl : s.OwnReflects level now)
    (hcond : s.ResolvesToCheapest level) : s.LeavesOverShortest o level now := by
  intro p ri hri hlevel halgo nh hnh
  obtain ⟨r, hr, -⟩ := bind_eq_some_iff.mp (lookup_rib ▸ hri)
  obtain ⟨aff, ⟨hrm, hrl, hra⟩, hc, hcomp, hconn, h, hh, hvia⟩ := rib_provenance hr hri hnh
  rw [hrl] at hlevel
  rw [hra] at halgo
  rw [hlevel, halgo] at hc hcomp
  obtain rfl : {} = aff := some.inj (mem_computations.mp hc).2.2
  obtain ⟨v, hv, hlabel, hsup⟩ := exists_supplier hbelow hcomp hh
  obtain ⟨q, w, hq, hfirst⟩ := exists_pathOver hbelow hv hlabel
  have hmin := (admissible_of_mem_spfDone hbelow hv).2
  obtain ⟨k, hk, m, hhead, hedge, hkm, hadj, hcheap⟩ :=
    exists_cheapest_of_pathOver hrefl (fun c hc => (hmetric c hc).2) hq hmin
  have hpos : 0 < w := by
    rw [← hkm]
    exact (hmetric k hk).1
  have hleads : s.LeadsTo level k h := ⟨m, hedge, hadj, canBeFirstHop_of_mem hcomp hh,
    first_edge_leads hq hmin hpos hhead hfirst⟩
  obtain ⟨c, hc, hname, hcm⟩ := hcond h p nh k hk hleads hcheap (masked_of_lookup_computeSPF hcomp)
    hconn hvia
  refine ⟨c, hc, hname, q, v.id, v.dist, ?_, hmin, ?_⟩
  · rw [hcm, hkm]
    exact hq
  · rw [hrm]
    exact hsup

/-- What the node LSP lists for the circuits. -/
def IsisServer.ownEntries (s : IsisServer) (level : Level) : List ISReachEntry :=
  s.circuits.filterMap fun c => (c.ownEdge level).map fun n => ⟨n, c.cfg.metric, []⟩

theorem mem_ownEntries {s : IsisServer} {nb : ISReachEntry} : nb ∈ s.ownEntries level ↔
    ∃ c ∈ s.circuits, c.ownEdge level = some nb.neighborID ∧ c.cfg.metric = nb.metric ∧
      nb.subTLVs = [] := by
  unfold IsisServer.ownEntries
  rw [mem_filterMap]
  constructor
  · rintro ⟨c, hc, hmap⟩
    obtain ⟨n, hn, rfl⟩ := map_eq_some_iff.mp hmap
    exact ⟨c, hc, hn, rfl, rfl⟩
  · rintro ⟨c, hc, hn, hm, hsub⟩
    refine ⟨c, hc, map_eq_some_iff.mpr ⟨_, hn, ?_⟩⟩
    rw [hm, ← hsub]

variable {line : List NodeID} {h : SystemID} {nh : NextHopInfo}

theorem ownReflects_of_entries {s : IsisServer} {db : LSDB} (hdb : s.dbs level = some db)
    (hown : reachEntries (nodeTLVs db (realNode s.systemID) now) = s.ownEntries level) :
    s.OwnReflects level now := by
  refine ⟨db, hdb, fun n m => ?_⟩
  rw [hown]
  constructor
  · rintro ⟨nb, hnb, rfl, rfl⟩
    obtain ⟨c, hc, hedge, hm, -⟩ := mem_ownEntries.mp hnb
    exact ⟨c, hc, hedge, hm⟩
  · rintro ⟨c, hc, hedge, rfl⟩
    exact ⟨⟨n, c.cfg.metric, []⟩, mem_ownEntries.mpr ⟨c, hc, hedge, rfl, rfl⟩, rfl, rfl⟩

/-- The line reflects the circuits. -/
theorem ownReflects_line (hline : LineTo s.toIsisServer level h line) :
    (s.withDbs (s.lineDbs level now (s.ownEntries level) line p)).OwnReflects level now := by
  refine ownReflects_of_entries (if_pos rfl) ?_
  show reachEntries (nodeTLVs _ (realNode s.systemID) now) = s.ownEntries level
  unfold lineDB
  rw [nodeTLVs_announcedDB (nodup_lineAnnouncements hline.nodup) mem_cons_self,
    reachEntries_cons _ rfl]

/-- Only the first node of the line leads back to self. -/
theorem eq_head_of_back {s : IsisServer} {self m : NodeID} (hl : (self :: line).Nodup)
    (he : e ∈ (announcedNode s level m (lineTLVs self line p m)).edges) (hdst : e.dst = self) :
    line.head? = some m := by
  have hmem : e ∈ nodeEdges {} m (lineTLVs self line p m) := by
    simp only [announcedNode] at he
    split at he
    · exact (mem_filter.mp he).1
    · exact he
  have hnb := (mem_nodeEdges_line.mp hmem).1
  rw [hdst] at hnb
  rcases mem_lineNeighbors.mp hnb with hback | hfront
  · -- self stands first, so nothing stands before it
    rcases infix_cons_iff.mp hback with hpre | hsublist
    · have hself : self ∈ line := (cons_prefix_cons.mp hpre).2.subset mem_cons_self
      exact absurd hself (nodup_cons.mp hl).1
    · exact absurd (hsublist.subset (by simp)) (nodup_cons.mp hl).1
  · rcases infix_cons_iff.mp hfront with hpre | hsublist
    · obtain ⟨t, ht⟩ := (cons_prefix_cons.mp hpre).2
      rw [← ht]
      rfl
    · exact absurd (hsublist.subset mem_cons_self) (nodup_cons.mp hl).1

theorem resolves_of_leaves_line {k : Circuit} {n : NodeID}
    (hmetric : ∀ c ∈ s.circuits, 0 < c.cfg.metric.toNat ∧ c.cfg.metric.toNat < 2 ^ 24)
    (hleaves : (s.withDbs
      (s.lineDbs level now (s.ownEntries level) line p)).LeavesOverShortest o level now)
    (hline : LineTo s.toIsisServer level h line) (hk : k ∈ s.circuits)
    (hedge : k.ownEdge level = some n) (hhead : line.head? = some n) (hcheap : s.Cheapest level k)
    (hp : p.masked = p) (hconn : s.connected.contains p = false)
    (hvia : s.nextHopVia p h = some nh) :
    ∃ c ∈ s.circuits, c.cfg.name = nh.interface ∧ c.cfg.metric = k.cfg.metric := by
  have hown : ∀ nb ∈ s.ownEntries level, nb.metric.toNat < 2 ^ 24 := fun nb hnb => by
    obtain ⟨c, hc, -, hm, -⟩ := mem_ownEntries.mp hnb
    rw [← hm]
    exact (hmetric c hc).2
  have hnb : (⟨n, k.cfg.metric, []⟩ : ISReachEntry) ∈ s.ownEntries level :=
    mem_ownEntries.mpr ⟨k, hk, hedge, rfl, rfl⟩
  obtain ⟨r, hr, hcomp, hhops⟩ :=
    @lookup_merged_line s level now (s.ownEntries level) line p o h _ hline hown hnb hhead
  rw [hp] at hr hcomp
  obtain ⟨ri, hri, hlevel, halgo, hnh⟩ := exists_rib_of_merged hr hp hconn ((hhops h).mpr rfl) hvia
  obtain ⟨hrl, hra⟩ := computeSPF_level_algo hcomp
  obtain ⟨c, hc, hname, q, n', d, hq, hmin, -⟩ :=
    hleaves p ri hri (hlevel.trans hrl) (halgo.trans hra) nh hnh
  refine ⟨c, hc, hname, ?_⟩
  have hdb : (s.withDbs (s.lineDbs level now (s.ownEntries level) line p)).dbs level =
      some (lineDB level now (realNode s.systemID) (s.ownEntries level) line p) := if_pos rfl
  obtain ⟨node, nb, e, hnode, he, hw, hfirst, hb, ⟨e', he', hback⟩, -⟩ := hq.first_edge
  -- the first edge leads to the head of the line
  have hdst : e.dst = n := by
    rcases (lookup_line hdb hline.nodup).mp hb with ⟨hself, -⟩ | ⟨-, hline'⟩
    · have hzero := hq.first_least hmin (hself ▸ hfirst) (.start hnode)
      have := (hmetric c hc).1
      omega
    · rw [hline'] at he'
      exact some.inj ((eq_head_of_back hline.nodup he' hback).symm.trans hhead)
  obtain ⟨⟨k', hk', hedge', hkm⟩, -⟩ := (mem_edges_own (ownReflects_line hline) hnode).mp he
  have hle : k.cfg.metric.toNat ≤ c.cfg.metric.toNat := by
    rw [← hw, ← hkm]
    exact hcheap k' hk' (by rw [hedge', hdst, hedge])
  obtain ⟨q', hq'⟩ := exists_path_line hdb rfl hline.nodup hline.backed hnb hhead
    (Nat.lt_trans (hmetric k hk).2 (by decide)) n (mem_of_head? hhead)
  have hge : c.cfg.metric.toNat ≤ k.cfg.metric.toNat :=
    hq.first_least hmin (by rw [hfirst, hdst]) hq'
  exact UInt32.toNat_inj.mp (Nat.le_antisymm hge hle)

/-- A circuit that leads to `h` does so along some line. -/
theorem IsisServer.LeadsTo.exists_line {s : IsisServer} {k : Circuit}
    (hleads : s.LeadsTo level k h) :
    ∃ line n, LineTo s level h line ∧ k.ownEdge level = some n ∧ line.head? = some n := by
  obtain ⟨n, hedge, hadj, ⟨hne, hhop⟩, rfl | hn⟩ := hleads
  · exact ⟨_, _, lineTo_router hne ((edgeHasAdjacency_router rfl hne).mp hadj), hedge, rfl⟩
  by_cases hforeign : n.systemID = s.systemID
  · rcases hhop with hnear | ⟨c, hc, m, hm, hms, hback⟩
    · exact ⟨_, _, lineTo_lan hne hn hadj fun _ => hnear, hedge, rfl⟩
    · have hnm : n ≠ m := fun heq => hms (heq ▸ hforeign)
      exact ⟨_, _, lineTo_lans hne hn hm hnm hms hadj
        ((edgeHasAdjacency_pseudonode hm).mpr ⟨c, hc, hback⟩), hedge, rfl⟩
  · exact ⟨_, _, lineTo_lan hne hn hadj fun heq => absurd heq hforeign, hedge, rfl⟩

/-- **Which adjacency states leave over a shortest first edge.** For circuits with a metric that is
set and fits its field: whatever else the databases hold, as long as our node LSP reflects the
circuits, every next hop of algorithm 0 leaves through a circuit that costs what the first edge of a
shortest path costs, if and only if every system that can be a first hop resolves to a circuit that
costs what the cheapest circuit leading to it costs, for each neighbour or LAN it can be reached
through. -/
theorem parallel_links_iff (s : RoutingServer) (level : Level) (hdb : (s.dbs level).isSome = true)
    (hmetric : ∀ c ∈ s.circuits, 0 < c.cfg.metric.toNat ∧ c.cfg.metric.toNat < 2 ^ 24) :
    (∀ dbs o now, (∀ l, (dbs l).isSome = (s.dbs l).isSome) →
        (s.withDbs dbs).LinkMetricsBelow level (2 ^ 24) → (s.withDbs dbs).OwnReflects level now →
        (s.withDbs dbs).LeavesOverShortest o level now) ↔
      s.ResolvesToCheapest level := by
  constructor
  · intro hleaves h p nh k hk hleads hcheap hp hconn hvia
    obtain ⟨line, n, hline, hedge, hhead⟩ := hleads.exists_line
    have hown : ∀ nb ∈ s.ownEntries level, nb.metric.toNat < 2 ^ 24 := fun nb hnb => by
      obtain ⟨c, hc, -, hm, -⟩ := mem_ownEntries.mp hnb
      rw [← hm]
      exact (hmetric c hc).2
    exact resolves_of_leaves_line hmetric (hleaves (s.lineDbs level 0 (s.ownEntries level) line p)
      (fun _ _ => .scan fun _ _ => true) 0 (isSome_lineDbs hdb)
      (linkMetricsBelow_line (if_pos rfl) hline.nodup (by decide) hown) (ownReflects_line hline))
      hline hk hedge hhead hcheap hp hconn hvia
  · intro hcond dbs o now _ hbelow hrefl
    exact leavesOverShortest_of_resolves (s := s.withDbs dbs) hmetric hbelow hrefl hcond

end Exactness

/-! ## Two links to one neighbour -/

/-- A point-to-point circuit to router 2, which has an address on it. -/
def linkToTwo (name : String) (metric : UInt32) : Circuit :=
  { newCircuit (ethernet name true metric) 1 1 with
    p2pAdj := some { systemID := router 2, snpa := Octets.zero 6, state := .up,
                     levels := ⟨true, false⟩, neighborIPv4 := [testGateway] } }

/-- Router 1 with two links to router 2; the one configured first costs more. -/
def parallelServer : RoutingServer :=
  routingServer <| levelOneServer (router 1) [linkToTwo "eth0" 20, linkToTwo "eth1" 10]
    (announcedDB .level1 0 [(realNode (router 1), [.extendedISReachability
          [⟨realNode (router 2), 20, []⟩, ⟨realNode (router 2), 10, []⟩]]),
       (realNode (router 2), [.extendedISReachability
          [⟨realNode (router 1), 20, []⟩, ⟨realNode (router 1), 10, []⟩],
          .extendedIPReachability [⟨5, false, false, testNet, []⟩]])])

theorem parallel_links_iff_two :
    (parallelServer.dbs .level1).isSome = true ∧
      (∀ c ∈ parallelServer.circuits, 0 < c.cfg.metric.toNat ∧ c.cfg.metric.toNat < 2 ^ 24) ∧
      ((∀ dbs o now, (∀ l, (dbs l).isSome = (parallelServer.dbs l).isSome) →
          (parallelServer.withDbs dbs).LinkMetricsBelow .level1 (2 ^ 24) →
          (parallelServer.withDbs dbs).OwnReflects .level1 now →
          (parallelServer.withDbs dbs).LeavesOverShortest o .level1 now) ↔
        parallelServer.ResolvesToCheapest .level1) :=
  have hmetric : ∀ c ∈ parallelServer.circuits, 0 < c.cfg.metric.toNat ∧
      c.cfg.metric.toNat < 2 ^ 24 := by
    decide
  ⟨rfl, hmetric, parallel_links_iff parallelServer .level1 rfl hmetric⟩

/-- The prefix is 15 away over `eth1` and is routed over `eth0`, which costs 20. -/
theorem costlier_link_chosen :
    parallelServer.LinkMetricsBelow .level1 (2 ^ 24) ∧ parallelServer.OwnReflects .level1 0 ∧
      ((parallelServer.updateRIB (fun _ _ => .scan fun _ _ => true) 0).rib.lookup testNet).map
        (fun ri => (ri.level, ri.algorithm, ri.metric, ri.nextHops)) =
          some (.level1, 0, 15, [⟨"eth0", testGateway⟩]) ∧
      ¬ parallelServer.LeavesOverShortest (fun _ _ => .scan fun _ _ => true) .level1 0 := by
  have hbelow : parallelServer.LinkMetricsBelow .level1 (2 ^ 24) :=
    linkMetricsBelow_of_entries rfl (by decide)
  have hroute :
      ((parallelServer.updateRIB (fun _ _ => .scan fun _ _ => true) 0).rib.lookup testNet).map
      (fun ri => (ri.level, ri.algorithm, ri.metric, ri.nextHops)) =
        some (.level1, 0, 15, [⟨"eth0", testGateway⟩]) := by decide
  refine ⟨hbelow, ownReflects_of_entries rfl (by decide), hroute, fun hleaves => ?_⟩
  obtain ⟨ri, hri, heq⟩ := map_eq_some_iff.mp hroute
  obtain ⟨hlevel, hrest⟩ := Prod.mk.inj heq
  obtain ⟨halgo, hrest⟩ := Prod.mk.inj hrest
  obtain ⟨-, hnhs⟩ := Prod.mk.inj hrest
  obtain ⟨c, hc, hname, q, n, d, hq, hmin, -⟩ := hleaves testNet ri hri hlevel halgo
    ⟨"eth0", testGateway⟩ (by rw [hnhs]; exact mem_cons_self)
  have hcost : ∀ c ∈ parallelServer.circuits, c.cfg.name = "eth0" → c.cfg.metric = 20 := by decide
  have hself : (parallelServer.buildTopology .level1 0 {} 0).lookup (realNode (router 1)) =
      some ⟨[⟨realNode (router 2), 20, false⟩, ⟨realNode (router 2), 10, false⟩], [], false,
        false⟩ := by
    decide
  have htwo : (parallelServer.buildTopology .level1 0 {} 0).lookup (realNode (router 2)) =
      some ⟨[⟨realNode (router 1), 20, false⟩, ⟨realNode (router 1), 10, false⟩],
        [⟨testNet, 5, false, false⟩], false, false⟩ := by decide
  have hpath := (AdmissiblePath.start hself).extend (e := ⟨realNode (router 2), 10, false⟩) hself
    (.inl rfl) (by decide) htwo ⟨⟨realNode (router 1), 10, false⟩, by decide, rfl⟩
  obtain ⟨node, -, e, hnode, he, -, hfirst, -⟩ := hq.first_edge
  obtain rfl := some.inj (hself.symm.trans hnode)
  have hdst :
      ∀ e ∈ [(⟨realNode (router 2), 20, false⟩ : SpfEdge), ⟨realNode (router 2), 10, false⟩],
        e.dst = realNode (router 2) := by decide
  have hle := hq.first_least hmin (hdst e he ▸ hfirst) hpath
  rw [hcost c hc hname] at hle
  exact absurd hle (by decide)

end Goisis.Server
