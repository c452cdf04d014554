import Goisis.Server.LineTopology
import Goisis.Server.Rib

/-!
# Next hops and the adjacencies behind them

The first hops of a route are system IDs. `buildTopology` keeps an edge out of our own LSPs only
with an adjacency behind it that is up at the level and not suppressed, but `findAdjacency` then
takes the first adjacency to the system that is up, on any circuit and at any level. And a
pseudonode another system originates may list routers we have no usable adjacency to: its edges are
not checked.

* `next_hops_sound_iff` — the adjacency states in which every next hop of every route, whatever the
  databases hold, leaves through a circuit with a usable adjacency to a first hop of that route;
* `suppressed_next_hop` — a state in which a LAN's pseudonode LSP brings in a suppressed one.
-/

namespace Goisis.Server

open Lib Packet IsisServer List Option

variable {level : Level} {h : SystemID} {p : Prefix} {r : Route} {n : NodeID}

variable {s : IsisServer} {level : Level} {now : Int} {p : Prefix}

/-! ## First hops a database can bring about -/

/-- Some LAN circuit still backs the edge to a pseudonode that another system originates. -/
def IsisServer.ForeignPseudonode (s : IsisServer) (level : Level) : Prop :=
  ∃ c ∈ s.circuits, ∃ n : NodeID, n.pseudonodeID ≠ 0 ∧ n.systemID ≠ s.systemID ∧
    c.backsPseudonode level n = true

/-- `h` can be a first hop: over an adjacency of the level, or behind a LAN whose pseudonode LSP is
not ours. -/
def IsisServer.CanBeFirstHop (s : IsisServer) (level : Level) (h : SystemID) : Prop :=
  h ≠ s.systemID ∧ ((∃ c ∈ s.circuits, c.usable level h = true) ∨ s.ForeignPseudonode level)

section FirstHops

variable {s : IsisServer} {o : SpfOrder} {algo : UInt8} {aff : FlexAlgoAffinity} {now : Int}

theorem edgeHasAdjacency_router (hn : n.pseudonodeID = 0) (hne : n.systemID ≠ s.systemID) :
    s.edgeHasAdjacency level n = true ↔ ∃ c ∈ s.circuits, c.usable level n.systemID = true := by
  simp [edgeHasAdjacency, hn, hne]

theorem edgeHasAdjacency_pseudonode (hn : n.pseudonodeID ≠ 0) :
    s.edgeHasAdjacency level n = true ↔ ∃ c ∈ s.circuits, c.backsPseudonode level n = true := by
  simp [edgeHasAdjacency, hn]

theorem edgeHasAdjacency_self : s.edgeHasAdjacency level (realNode s.systemID) = true := by
  simp [edgeHasAdjacency, realNode]

/-- First hops are as `CanBeFirstHop` says, and a node without any is one of ours or lies behind a
pseudonode that is not. -/
theorem labelRule_canBeFirstHop :
    LabelRule (s.buildTopology level algo aff now) (realNode s.systemID)
    fun n l => (∀ h ∈ l, s.CanBeFirstHop level h) ∧
      (l = ∅ → n.systemID = s.systemID ∨ s.ForeignPseudonode level) where
  source := ⟨fun h hh => absurd hh (Finset.notMem_empty h), fun _ => .inl rfl⟩
  union := by
    intro n l l' hl hl'
    refine ⟨fun h hh => ?_, fun hempty => hl.2 (Finset.union_eq_empty.mp hempty).1⟩
    rcases Finset.mem_union.mp hh with hh | hh
    · exact hl.1 h hh
    · exact hl'.1 h hh
  edge := by
    intro u l node e hl hnode he hne
    have hadj := (mem_edges_buildTopology hnode he).2.2
    unfold firstHopsFor
    by_cases hcard : 0 < l.card
    · rw [if_pos hcard]
      exact ⟨hl.1, fun hempty => absurd hempty (Finset.card_pos.mp hcard).ne_empty⟩
    have hempty : l = ∅ := Finset.card_eq_zero.mp (by omega)
    rw [if_neg hcard]
    by_cases hpn : e.dst.pseudonodeID = 0
    · -- a router enters the set
      rw [if_pos hpn]
      have hsys : e.dst.systemID ≠ s.systemID := fun heq => hne <| by
        calc e.dst = ⟨e.dst.systemID, e.dst.pseudonodeID⟩ := rfl
          _ = realNode s.systemID := by rw [heq, hpn]; rfl
      refine ⟨fun h hh => ?_, fun h => absurd h (Finset.singleton_ne_empty _)⟩
      rw [Finset.mem_singleton.mp hh]
      refine ⟨hsys, ?_⟩
      rcases hl.2 hempty with hu | hforeign
      · exact .inl ((edgeHasAdjacency_router hpn hsys).mp (hadj hu))
      · exact .inr hforeign
    · rw [if_neg hpn]
      refine ⟨fun h hh => absurd hh (Finset.notMem_empty h), fun _ => ?_⟩
      rcases hl.2 hempty with hu | hforeign
      · by_cases hsys : e.dst.systemID = s.systemID
        · exact .inl hsys
        · obtain ⟨c, hc, hback⟩ := (edgeHasAdjacency_pseudonode hpn).mp (hadj hu)
          exact .inr ⟨c, hc, e.dst, hpn, hsys, hback⟩
      · exact .inr hforeign

theorem canBeFirstHop_of_mem (hr : (s.computeSPF o level algo aff now).lookup p = some r)
    (hh : h ∈ r.nextHops) : s.CanBeFirstHop level h := by
  obtain ⟨v, hv, hmem⟩ := (exists_visit_of_lookup hr).2 h hh
  exact (labelRule_canBeFirstHop.spfVisits v hv).1 h hmem

/-- Routes lead to masked prefixes. -/
theorem masked_of_lookup_computeSPF (hr : (s.computeSPF o level algo aff now).lookup p = some r) :
    p.masked = p := by
  obtain ⟨⟨c, hc⟩, -⟩ := exists_visit_of_lookup hr
  rcases mem_append.mp hc with hc | hc
  · obtain ⟨v, -, hc⟩ := mem_flatMap.mp hc
    obtain ⟨-, -, node, hnode, q, hq, rfl, -⟩ := mem_nodeRoutes.mp hc
    obtain ⟨db, e, -, -, -, rfl⟩ := lookup_buildTopology.mp hnode
    exact masked_of_mem_nodePrefixes hq
  · split at hc
    · obtain ⟨d, l, -, hp, -⟩ := mem_attachedRoutes.mp hc
      rcases hp with rfl | rfl
      · decide
      · decide
    · cases hc

theorem masked_of_lookup_merged {s : RoutingServer} {o : Level → UInt8 → SpfOrder}
    (hr : (s.merged o now).lookup p = some r) : p.masked = p := by
  obtain ⟨c, -, hcomp⟩ := lookup_merged_some hr
  exact masked_of_lookup_computeSPF hcomp

/-! ## A line to every possible first hop -/

theorem realNode_injective {a b : SystemID} (h : realNode a = realNode b) : a = b :=
  congrArg NodeID.systemID h

/-- The neighbour right behind us. -/
theorem lineTo_router (hne : h ≠ s.systemID) (hnear : ∃ c ∈ s.circuits, c.usable level h = true) :
    LineTo s level h [realNode h] where
  nodup := by simpa using fun heq => hne (realNode_injective heq).symm
  only := by simp
  last := rfl
  backed := lineBacked_nil.cons (fun _ => (edgeHasAdjacency_router rfl hne).mpr hnear)
    (fun heq => absurd heq hne)

/-- A neighbour on a LAN; if the pseudonode is ours, with an adjacency. -/
theorem lineTo_lan (hne : h ≠ s.systemID) (hn : n.pseudonodeID ≠ 0)
    (hadj : s.edgeHasAdjacency level n = true)
    (hnear : n.systemID = s.systemID → ∃ c ∈ s.circuits, c.usable level h = true) :
    LineTo s level h [n, realNode h] where
  nodup := by
    have hn' {m : SystemID} : n ≠ realNode m := fun heq => hn (congrArg NodeID.pseudonodeID heq)
    have hself : realNode s.systemID ≠ realNode h := fun heq => hne (realNode_injective heq).symm
    simp [hself, hn', hn'.symm]
  only m hm h0 := by
    rcases mem_cons.mp hm with rfl | hm
    · exact absurd h0 hn
    · exact mem_singleton.mp hm
  last := rfl
  backed := (lineBacked_nil.cons (fun heq => (edgeHasAdjacency_router rfl hne).mpr (hnear heq))
    (fun heq => absurd heq hne)).cons (fun _ => hadj) (fun _ => edgeHasAdjacency_self)

/-- A neighbour behind a LAN of ours and one that is not. -/
theorem lineTo_lans {m : NodeID} (hne : h ≠ s.systemID) (hn : n.pseudonodeID ≠ 0)
    (hm : m.pseudonodeID ≠ 0) (hnm : n ≠ m) (hforeign : m.systemID ≠ s.systemID)
    (hadj : s.edgeHasAdjacency level n = true) (hadj' : s.edgeHasAdjacency level m = true) :
    LineTo s level h [n, m, realNode h] where
  nodup := by
    have hn' {a : SystemID} : n ≠ realNode a := fun heq => hn (congrArg NodeID.pseudonodeID heq)
    have hm' {a : SystemID} : m ≠ realNode a := fun heq => hm (congrArg NodeID.pseudonodeID heq)
    have hself : realNode s.systemID ≠ realNode h := fun heq => hne (realNode_injective heq).symm
    simp [hself, hn', hn'.symm, hm', hm'.symm, hnm]
  only a ha h0 := by
    simp only [mem_cons, not_mem_nil, or_false] at ha
    rcases ha with rfl | rfl | ha
    · exact absurd h0 hn
    · exact absurd h0 hm
    · exact ha
  last := rfl
  backed := ((lineBacked_nil.cons (fun heq => absurd heq hforeign) (fun heq => absurd heq hne)).cons
    (fun _ => hadj') (fun heq => absurd heq hforeign)).cons (fun _ => hadj)
      (fun _ => edgeHasAdjacency_self)

/-- **Every possible first hop has a line to it.** -/
theorem IsisServer.CanBeFirstHop.exists_line (hfirst : s.CanBeFirstHop level h) :
    ∃ line n, LineTo s level h line ∧ line.head? = some n := by
  obtain ⟨hne, hnear | ⟨c, hc, n, hn, hforeign, hback⟩⟩ := hfirst
  · exact ⟨_, _, lineTo_router hne hnear, rfl⟩
  · exact ⟨_, _, lineTo_lan hne hn ((edgeHasAdjacency_pseudonode hn).mpr ⟨c, hc, hback⟩)
      fun heq => absurd heq hforeign, rfl⟩

end FirstHops

/-! ## The table over a line -/

/-- The server with other databases. -/
def RoutingServer.withDbs (s : RoutingServer) (dbs : Level → Option LSDB) : RoutingServer :=
  { s with dbs := dbs }

/-- The line at one level, and nothing at the other. -/
def IsisServer.lineDbs (s : IsisServer) (level : Level) (now : Int) (own : List ISReachEntry)
    (line : List NodeID) (p : Prefix) : Level → Option LSDB :=
  fun l => if l = level then some (lineDB level now (realNode s.systemID) own line p)
    else (s.dbs l).map fun _ => ∅

theorem isSome_lineDbs (hdb : (s.dbs level).isSome = true) {own : List ISReachEntry}
    {line : List NodeID} (l : Level) :
    (s.lineDbs level now own line p l).isSome = (s.dbs l).isSome := by
  unfold lineDbs
  split
  · rename_i heq
    rw [heq, hdb]
    rfl
  · exact isSome_map

/-- Without an advertisement there is no route; only algorithm 0 has the attached default. -/
theorem lookup_computeSPF_of_no_prefix {o : SpfOrder} {algo : UInt8} {aff : FlexAlgoAffinity}
    (halgo : algo ≠ 0)
    (hnone : ∀ n node, (s.buildTopology level algo aff now).lookup n = some node →
      node.prefixes = []) : (s.computeSPF o level algo aff now).lookup p = none := by
  cases hres : (s.computeSPF o level algo aff now).lookup p with
  | none => rfl
  | some r =>
    obtain ⟨⟨c, hc⟩, -⟩ := exists_visit_of_lookup hres
    have huse : s.usesAttachedDefault level algo = false := by
      simp [usesAttachedDefault, halgo]
    simp only [contributions, huse, Bool.false_eq_true, if_false, append_nil] at hc
    obtain ⟨v, -, hc⟩ := mem_flatMap.mp hc
    obtain ⟨-, -, node, hnode, q, hq, -⟩ := mem_nodeRoutes.mp hc
    rw [hnone v.id node hnode] at hq
    cases hq

section Table

variable {s : RoutingServer} {level : Level} {now : Int} {own : List ISReachEntry}
  {line : List NodeID} {p : Prefix}

/-- Only algorithm 0 at the line's own level finds a route. -/
theorem lookup_computeSPF_lineDbs_none {o : SpfOrder} {c : Level × UInt8 × FlexAlgoAffinity}
    {q : Prefix} (hl : (realNode s.systemID :: line).Nodup)
    (hc : c ∈ (s.withDbs (s.lineDbs level now own line p)).computations now)
    (hne : c ≠ (level, 0, {})) :
    ((s.withDbs (s.lineDbs level now own line p)).computeSPF o c.1 c.2.1 c.2.2 now).lookup q =
      none := by
  obtain ⟨l, a, aff⟩ := c
  obtain ⟨-, -, hrules⟩ := mem_computations.mp hc
  by_cases hlevel : l = level
  · have ha : a ≠ 0 := by
      rintro rfl
      have haff : {} = aff := some.inj hrules
      rw [hlevel, ← haff] at hne
      exact hne rfl
    refine lookup_computeSPF_of_no_prefix ha fun n node hnode => ?_
    obtain ⟨db, e, hdb, he, -, rfl⟩ := lookup_buildTopology.mp hnode
    have hdb' : db = lineDB level now (realNode s.systemID) own line p := by
      have : (s.lineDbs level now own line p) l = some db := hdb
      rw [lineDbs, if_pos hlevel] at this
      exact (some.inj this).symm
    subst hdb'
    obtain ⟨x, hx, hid, -⟩ := (lookup_announcedDB (nodup_lineAnnouncements hl)).mp he
    obtain rfl : n = x.1 := (LSPID.mk.inj hid).1
    have htlvs : nodeTLVs (lineDB level now (realNode s.systemID) own line p) x.1 now = x.2 :=
      nodeTLVs_announcedDB (nodup_lineAnnouncements hl) hx
    show nodePrefixes a (nodeTLVs _ x.1 now) = []
    rw [htlvs]
    exact nodePrefixes_lineAnnouncements ha hx
  · refine eq_none_iff_forall_ne_some.mpr fun r hr => ?_
    obtain ⟨node, hnode⟩ := exists_self_of_lookup hr
    obtain ⟨db, e, hdb, he, -⟩ := lookup_buildTopology.mp hnode
    have hdb' : (s.lineDbs level now own line p) l = some db := hdb
    rw [lineDbs, if_neg hlevel, map_eq_some_iff] at hdb'
    obtain ⟨-, -, rfl⟩ := hdb'
    cases he

/-- **The line's route in the merged table.** -/
theorem lookup_merged_line (o : Level → UInt8 → SpfOrder) {h : SystemID} {nb : ISReachEntry}
    (hline : LineTo s.toIsisServer level h line) (hown : ∀ nb ∈ own, nb.metric.toNat < 2 ^ 24)
    (hnb : nb ∈ own) (hfirst : line.head? = some nb.neighborID) :
    ∃ r, ((s.withDbs (s.lineDbs level now own line p)).merged o now).lookup p.masked = some r ∧
      ((s.withDbs (s.lineDbs level now own line p)).computeSPF (o level 0) level 0 {} now).lookup
        p.masked = some r ∧ ∀ x, x ∈ r.nextHops ↔ x = h := by
  have hdb : (s.withDbs (s.lineDbs level now own line p)).dbs level =
      some (lineDB level now (realNode s.systemID) own line p) := if_pos rfl
  have hline' : LineTo (s.withDbs (s.lineDbs level now own line p)).toIsisServer level h line :=
    ⟨hline.nodup, hline.only, hline.last, hline.backed⟩
  obtain ⟨r, hr, hhops⟩ := hline'.lookup_computeSPF (o level 0) hdb hown hnb hfirst
  refine ⟨r, ?_, hr, hhops⟩
  have hmem : (level, 0, {}) ∈ (s.withDbs (s.lineDbs level now own line p)).computations now :=
    mem_computations_zero.mpr ⟨by rw [hdb]; rfl, rfl⟩
  exact lookup_merged_of_only hmem hr fun c hc hne =>
    lookup_computeSPF_lineDbs_none hline.nodup hc hne

end Table

/-! ## Soundness -/

/-- Every next hop of every route names a circuit with an adjacency, up at the route's level and not
suppressed, to one of the first hops the route was computed with. -/
def RoutingServer.NextHopsSound (s : RoutingServer) (o : Level → UInt8 → SpfOrder) (now : Int) :
    Prop :=
  ∀ p r ri, (s.merged o now).lookup p = some r → (s.updateRIB o now).rib.lookup p = some ri →
    ∀ nh ∈ ri.nextHops, ∃ h ∈ r.nextHops, ∃ c ∈ s.circuits,
      c.cfg.name = nh.interface ∧ c.usable ri.level h = true

section Soundness

variable {s : RoutingServer} {o : Level → UInt8 → SpfOrder} {now : Int} {ri : RouteInfo}
  {nh : NextHopInfo}

/-- What a route of the table is made of. -/
theorem rib_provenance (hr : (s.merged o now).lookup p = some r)
    (hri : (s.updateRIB o now).rib.lookup p = some ri) (hnh : nh ∈ ri.nextHops) :
    ∃ aff, (ri.metric = r.metric ∧ ri.level = r.level ∧ ri.algorithm = r.algo) ∧
      (r.level, r.algo, aff) ∈ s.computations now ∧
      (s.computeSPF (o r.level r.algo) r.level r.algo aff now).lookup p = some r ∧
      s.connected.contains p = false ∧ ∃ h ∈ r.nextHops, s.nextHopVia p h = some nh := by
  obtain ⟨⟨l, a, aff⟩, hc, hcomp⟩ := lookup_merged_some hr
  rw [lookup_rib, hr] at hri
  obtain ⟨hconn, hmetric, hlevel, halgo, hhops⟩ := routeInfo_some hri
  obtain ⟨rfl, rfl⟩ := computeSPF_level_algo hcomp
  rw [masked_of_lookup_computeSPF hcomp] at hconn
  rw [hhops] at hnh
  exact ⟨aff, ⟨hmetric, hlevel, halgo⟩, hc, hcomp, hconn, mem_resolveNextHops.mp hnh⟩

/-- A merged route with a first hop that resolves is in the table. -/
theorem exists_rib_of_merged (hr : (s.merged o now).lookup p = some r) (hp : p.masked = p)
    (hconn : s.connected.contains p = false) (hh : h ∈ r.nextHops)
    (hvia : s.nextHopVia p h = some nh) :
    ∃ ri, (s.updateRIB o now).rib.lookup p = some ri ∧ ri.level = r.level ∧ ri.algorithm = r.algo ∧
      nh ∈ ri.nextHops := by
  have hmem : nh ∈ s.resolveNextHops p r.nextHops := mem_resolveNextHops.mpr ⟨h, hh, hvia⟩
  refine ⟨⟨p, r.metric, r.level, preferenceClass r, r.algo, _⟩, ?_, rfl, rfl, hmem⟩
  rw [lookup_rib, hr]
  exact routeInfo_eq_some (by rw [hp]; exact hconn) (ne_nil_of_mem hmem)

/-- Soundness over a line. -/
theorem usable_of_sound_line {own : List ISReachEntry} {line : List NodeID} {nb : ISReachEntry}
    (hsound : (s.withDbs (s.lineDbs level now own line p)).NextHopsSound o now)
    (hline : LineTo s.toIsisServer level h line) (hown : ∀ nb ∈ own, nb.metric.toNat < 2 ^ 24)
    (hnb : nb ∈ own) (hfirst : line.head? = some nb.neighborID) (hp : p.masked = p)
    (hconn : s.connected.contains p = false) (hvia : s.nextHopVia p h = some nh) :
    ∃ c ∈ s.circuits, c.cfg.name = nh.interface ∧ c.usable level h = true := by
  obtain ⟨r, hr, hcomp, hhops⟩ :=
    @lookup_merged_line s level now own line p o h nb hline hown hnb hfirst
  rw [hp] at hr hcomp
  obtain ⟨ri, hri, hlevel, -, hnh⟩ := exists_rib_of_merged hr hp hconn ((hhops h).mpr rfl) hvia
  obtain ⟨x, hx, c, hc, hname, huse⟩ := hsound p r ri hr hri nh hnh
  rw [(hhops x).mp hx, hlevel, (computeSPF_level_algo hcomp).1] at huse
  exact ⟨c, hc, hname, huse⟩

/-- **Which adjacency states make next hops sound.** Whatever the databases of its levels hold,
every next hop of every route leaves through a usable adjacency to a first hop, if and only if for
every system that can be a first hop at a level the circuit it resolves to, for either address
family, has a usable adjacency to it at that level. -/
theorem next_hops_sound_iff (s : RoutingServer) :
    (∀ dbs o now, (∀ l, (dbs l).isSome = (s.dbs l).isSome) → (s.withDbs dbs).NextHopsSound o now) ↔
      ∀ level h p nh, (s.dbs level).isSome = true → s.CanBeFirstHop level h → p.masked = p →
        s.connected.contains p = false → s.nextHopVia p h = some nh →
        ∃ c ∈ s.circuits, c.cfg.name = nh.interface ∧ c.usable level h = true := by
  constructor
  · intro hsound level h p nh hdb hfirst hp hconn hvia
    obtain ⟨line, n, hline, hn⟩ := hfirst.exists_line
    have hmem : (⟨n, 1, []⟩ : ISReachEntry) ∈ [(⟨n, 1, []⟩ : ISReachEntry)] := mem_cons_self
    exact usable_of_sound_line
      (hsound (s.lineDbs level 0 [⟨n, 1, []⟩] line p) (fun _ _ => .scan fun _ _ => true) 0
        (isSome_lineDbs hdb)) hline (by simp) hmem hn hp hconn hvia
  · intro hcond dbs o now hdbs p r ri hr hri nh hnh
    obtain ⟨aff, ⟨-, hlevel, -⟩, hc, hcomp, hconn, h, hh, hvia⟩ := rib_provenance hr hri hnh
    have hdb : (s.dbs r.level).isSome = true := by
      rw [← hdbs]
      exact (mem_computations.mp hc).1
    have hfirst : (s.withDbs dbs).CanBeFirstHop r.level h := canBeFirstHop_of_mem hcomp hh
    obtain ⟨c, hc, hname, huse⟩ := hcond r.level h p nh hdb hfirst
      (masked_of_lookup_computeSPF hcomp) hconn hvia
    exact ⟨h, hh, c, hc, hname, by rw [hlevel]; exact huse⟩

end Soundness

/-! ## A neighbour that asked for suppression -/

/-- A Level 1 server with a routing table to compute. -/
def routingServer (s : IsisServer) : RoutingServer :=
  { s with
    connected := [], flexAlgos := [], optionPrefixes := [], locators := [], l2LeakFilter := none
    rib := ∅, flexAlgoComputed := ∅, l1Export := ∅, l2Leak := ∅ }

/-- `192.0.2.1`. -/
def testGateway : Addr := .v4 (octets4 192 0 2 1)

/-- The LAN of router 3, on which router 2 is starting: its adjacency is up but suppressed. -/
def restartingLink (name : String) : Circuit :=
  { newCircuit (ethernet name false 10) 1 1 with
    adjs := fun
      | .level1 => some (AList.insert (router 2)
          { systemID := router 2, snpa := Octets.zero 6, state := .up, suppressed := true,
            neighborIPv4 := [testGateway] }
          (AList.insert (router 3) { systemID := router 3, snpa := Octets.zero 6, state := .up } ∅))
      | .level2 => none
    dis := fun _ => lanNode }

/-- Router 3's pseudonode LSP still lists router 2, which advertises a prefix. -/
def restartServer : RoutingServer :=
  routingServer <| levelOneServer (router 1) [restartingLink "eth0"] (announcedDB .level1 0
      [(realNode (router 1), [.extendedISReachability [⟨lanNode, 10, []⟩]]),
       (lanNode, [.extendedISReachability [⟨realNode (router 1), 0, []⟩,
          ⟨realNode (router 2), 0, []⟩, ⟨realNode (router 3), 0, []⟩]]),
       (realNode (router 2), [.extendedISReachability [⟨lanNode, 10, []⟩],
          .extendedIPReachability [⟨5, false, false, testNet, []⟩]])])

/-- Router 2 asked for suppression and has no other adjacency, but the prefix is routed to it. -/
theorem suppressed_next_hop :
    ((restartServer.merged (fun _ _ => .scan fun _ _ => true) 0).lookup testNet).map (·.nextHops) =
        some [router 2] ∧
      ((restartServer.updateRIB (fun _ _ => .scan fun _ _ => true) 0).rib.lookup testNet).map
        (fun ri => (ri.level, ri.nextHops)) = some (.level1, [⟨"eth0", testGateway⟩]) ∧
      (∀ c ∈ restartServer.circuits, c.usable .level1 (router 2) = false) ∧
      ¬ restartServer.NextHopsSound (fun _ _ => .scan fun _ _ => true) 0 := by
  have hroute : ((restartServer.merged (fun _ _ => .scan fun _ _ => true) 0).lookup testNet).map
      (·.nextHops) = some [router 2] := by decide
  have hentry :
      ((restartServer.updateRIB (fun _ _ => .scan fun _ _ => true) 0).rib.lookup testNet).map
      (fun ri => (ri.level, ri.nextHops)) = some (.level1, [⟨"eth0", testGateway⟩]) := by decide
  have hunusable : ∀ c ∈ restartServer.circuits, c.usable .level1 (router 2) = false := by decide
  refine ⟨hroute, hentry, hunusable, fun hsound => ?_⟩
  obtain ⟨r, hr, hhops⟩ := map_eq_some_iff.mp hroute
  obtain ⟨ri, hri, heq⟩ := map_eq_some_iff.mp hentry
  obtain ⟨hlevel, hnhs⟩ := Prod.mk.inj heq
  obtain ⟨h, hh, c, hc, -, huse⟩ := hsound testNet r ri hr hri ⟨"eth0", testGateway⟩
    (by rw [hnhs]; exact mem_cons_self)
  rw [hhops, mem_singleton] at hh
  rw [hh, hlevel, hunusable c hc] at huse
  cases huse

end Goisis.Server
