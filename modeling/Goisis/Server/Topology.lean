import Goisis.Server.FlexAlgo

/-!
# The SPF graph

Model of `buildTopology` (`pkg/server/spf.go`): the graph of a level and algorithm, read out of the
link-state database and, for the edges this node advertises itself, checked against the adjacency
database (`edgeHasAdjacency`).

A node is admitted from its live fragment 0. Passes 2 and 3 of the source touch, for each LSP, only
the node that LSP belongs to, so they are written here as what one node ends up with: `nodeEdges`
and `nodePrefixes` over all its live fragments, in the order the range over the database takes.

* `lookup_buildTopology` — which nodes there are and what they carry;
* `mem_edges_buildTopology` — an edge comes from an IS-reachability entry of a live fragment, and
  out of an LSP of ours only with an adjacency behind it;
* `metric_lt_of_mem_edges` — metrics in the graph are metrics in the database.
-/

namespace Goisis.Server

open Lib Packet IsisServer List

variable {algo : UInt8} {s : IsisServer} {level : Level} {db : LSDB} {bound : ℕ}

/-- `maxPathMetric`. -/
def maxPathMetric : ℕ := 0xfe000000

/-- `spfEdge`; `dst` is its field `to`. -/
structure SpfEdge where
  dst : NodeID
  metric : UInt32
  hasAttrs : Bool
deriving DecidableEq, Repr

/-- `spfPrefix`. -/
structure SpfPrefix where
  pfx : Prefix
  metric : UInt32
  down : Bool
  mt : Bool
deriving DecidableEq, Repr

/-- `spfNode`; its ID is its key. -/
structure SpfNode where
  edges : List SpfEdge
  prefixes : List SpfPrefix
  overload : Bool
  attached : Bool
deriving DecidableEq, Repr

/-- The graph of a level and algorithm. -/
abbrev Topology := Map NodeID SpfNode

/-! ## Adjacencies behind edges -/

/-- An Up adjacency at the level that its neighbour has not asked to suppress, over
point-to-point. -/
def Circuit.p2pUsable (c : Circuit) (level : Level) (id : SystemID) : Bool :=
  match c.p2pAdj with
  | none => false
  | some a => a.state == .up && a.levels.has level && a.systemID == id && !a.suppressed

/-- The same on a broadcast circuit. -/
def Circuit.lanUsable (c : Circuit) (level : Level) (id : SystemID) : Bool :=
  match (c.adjs level).bind (·.lookup id) with
  | none => false
  | some a => a.state == .up && !a.suppressed

/-- The circuit holds an adjacency SPF may cross at the level. -/
def Circuit.usable (c : Circuit) (level : Level) (id : SystemID) : Bool :=
  if c.cfg.p2p then c.p2pUsable level id else c.lanUsable level id

/-- The circuit still backs an edge to its LAN's pseudonode. -/
def Circuit.backsPseudonode (c : Circuit) (level : Level) (dst : NodeID) : Bool :=
  !c.cfg.p2p && c.dis level == dst && (c.advertisedAdjacencies level).length > 0

/-- `edgeHasAdjacency(level, to)`. -/
def IsisServer.edgeHasAdjacency (s : IsisServer) (level : Level) (dst : NodeID) : Bool :=
  if dst.pseudonodeID ≠ 0 then s.circuits.any (·.backsPseudonode level dst)
  else if dst.systemID = s.systemID then true
  else s.circuits.any (·.usable level dst.systemID)

/-! ## One node -/

/-- `lspParticipatesInAlgo(e, algo)`. -/
def lspParticipatesInAlgo (e : LspEntry) (algo : UInt8) : Bool :=
  e.lsp.tlvs.any fun tlv =>
    match tlv with
    | .routerCapability _ _ subs => subs.any fun sub =>
        match sub with
        | .srAlgorithm algorithms => algorithms.contains algo
        | _ => false
    | _ => false

/-- The TLVs of every live fragment of a node. -/
def nodeTLVs (db : LSDB) (nid : NodeID) (now : Int) : List TLV :=
  (db.entries.filter fun entry => entry.1.nodeID = nid ∧ entry.2.live now).flatMap
    fun entry => entry.2.lsp.tlvs

/-- The IS-reachability entries among them. -/
def reachEntries (tlvs : List TLV) : List ISReachEntry :=
  tlvs.flatMap fun tlv =>
    match tlv with
    | .extendedISReachability neighbors => neighbors
    | _ => []

/-- One entry with what the affinity rules say about it; a pseudonode's entries are never asked. -/
def scanEntry (aff : FlexAlgoAffinity) (nid : NodeID) (nb : ISReachEntry) :
    ISReachEntry × Bool × Bool :=
  (nb, if nid.pseudonodeID = 0 then aff.prunesLink nb.subTLVs else (false, false))

/-- The edges of a node after pass 2 and the cross-entry pruning: a neighbour one entry was pruned
on is pruned in every entry without attributes of its own. -/
def nodeEdges (aff : FlexAlgoAffinity) (nid : NodeID) (tlvs : List TLV) : List SpfEdge :=
  let scanned := ((reachEntries tlvs).filter fun nb => nb.metric.toNat < maxPathMetric).map
    (scanEntry aff nid)
  let pruned := (scanned.filter fun x => x.2.1).map fun x => x.1.neighborID
  ((scanned.filter fun x => !x.2.1).map fun x => ⟨x.1.neighborID, x.1.metric, x.2.2⟩).filter
    fun e => !(pruned.contains e.dst && !e.hasAttrs)

/-- `addPrefix`. -/
def spfPrefixes (prefixes : List PrefixReach) (mt : Bool) : List SpfPrefix :=
  (prefixes.filter fun p => p.metric.toNat < maxPathMetric).map
    fun p => ⟨p.pfx.masked, p.metric, p.down, mt⟩

/-- The plain IP reachability of a node, which belongs to algorithm 0 only. -/
def plainPrefixes (algo : UInt8) (tlvs : List TLV) : List SpfPrefix :=
  if algo ≠ 0 then []
  else tlvs.flatMap fun tlv =>
    match tlv with
    | .extendedIPReachability prefixes => spfPrefixes prefixes false
    | .ipv6Reachability prefixes => spfPrefixes prefixes false
    | .mtIPv6Reachability mtid prefixes =>
      if mtid = mtidIPv6Unicast then spfPrefixes prefixes true else []
    | _ => []

/-- The SRv6 locators a node advertises for the algorithm. -/
def locatorPrefixes (algo : UInt8) (tlvs : List TLV) : List SpfPrefix :=
  tlvs.flatMap fun tlv =>
    match tlv with
    | .srv6Locator _ locators =>
      (locators.filter fun l => l.algorithm = algo ∧ l.metric.toNat < maxPathMetric).map
        fun l => ⟨l.locator.masked, l.metric, l.flags &&& 0x80 != 0, false⟩
    | _ => []

/-- The prefixes of a node: a locator counts only if the node did not also advertise it as plain
reachability. -/
def nodePrefixes (algo : UInt8) (tlvs : List TLV) : List SpfPrefix :=
  let plain := plainPrefixes algo tlvs
  plain ++ (locatorPrefixes algo tlvs).filter fun l => !(plain.map (·.pfx)).contains l.pfx

theorem masked_of_mem_nodePrefixes {tlvs : List TLV} {q : SpfPrefix}
    (hq : q ∈ nodePrefixes algo tlvs) : q.pfx.masked = q.pfx := by
  have hspf {prefixes : List PrefixReach} {mt : Bool} (h : q ∈ spfPrefixes prefixes mt) :
      q.pfx.masked = q.pfx := by
    obtain ⟨r, -, rfl⟩ := mem_map.mp h
    exact Prefix.masked_masked _
  rcases mem_append.mp hq with hq | hq
  · unfold plainPrefixes at hq
    split at hq
    · cases hq
    obtain ⟨tlv, -, hq⟩ := mem_flatMap.mp hq
    cases tlv with
    | extendedIPReachability prefixes => exact hspf hq
    | ipv6Reachability prefixes => exact hspf hq
    | mtIPv6Reachability mtid prefixes =>
      simp only at hq
      split at hq
      · exact hspf hq
      · cases hq
    | _ => cases hq
  · obtain ⟨tlv, -, hq⟩ := mem_flatMap.mp (mem_filter.mp hq).1
    cases tlv with
    | srv6Locator mtid locators =>
      obtain ⟨l, -, rfl⟩ := mem_map.mp hq
      exact Prefix.masked_masked _
    | _ => cases hq

/-! ## The graph -/

namespace IsisServer

/-- A node with its edges and prefixes; `e` is its fragment 0. -/
def topologyNode (s : IsisServer) (db : LSDB) (level : Level) (algo : UInt8)
    (aff : FlexAlgoAffinity) (now : Int) (nid : NodeID) (e : LspEntry) : SpfNode :=
  let tlvs := nodeTLVs db nid now
  let edges := nodeEdges aff nid tlvs
  { edges := if nid.systemID = s.systemID then edges.filter fun x => s.edgeHasAdjacency level x.dst
      else edges
    prefixes := nodePrefixes algo tlvs
    overload := e.lsp.overload
    attached := e.lsp.attDefault }

/-- Pass 1: a live fragment 0, of a participant if it is a real node and the algorithm asks for
it. -/
def admitted (algo : UInt8) (now : Int) (id : LSPID) (e : LspEntry) : Bool :=
  id.fragmentID == 0 && e.live now &&
    !(algo != 0 && id.nodeID.pseudonodeID == 0 && !lspParticipatesInAlgo e algo)

/-- `buildTopology(level, algo, aff, now)`. -/
def buildTopology (s : IsisServer) (level : Level) (algo : UInt8) (aff : FlexAlgoAffinity)
    (now : Int) : Topology :=
  match s.dbs level with
  | none => ∅
  | some db =>
    Map.ofList ((db.entries.filter fun entry => admitted algo now entry.1 entry.2).map
      fun entry => (entry.1.nodeID, s.topologyNode db level algo aff now entry.1.nodeID entry.2))

/-- The IS-reachability metrics of a database. -/
def LinkMetricsBelow (s : IsisServer) (level : Level) (bound : ℕ) : Prop :=
  ∀ id e, s.entryAt level id = some e → ∀ nb ∈ reachEntries e.lsp.tlvs, nb.metric.toNat < bound

end IsisServer

/-! ## Reading the graph -/

variable {e : SpfEdge}

section Reading

variable {aff : FlexAlgoAffinity} {now : Int} {nid : NodeID} {node : SpfNode}

/-- **The nodes of the graph**: one for each live fragment 0 that is admitted. -/
theorem lookup_buildTopology : (s.buildTopology level algo aff now).lookup nid = some node ↔
    ∃ db e, s.dbs level = some db ∧ db.lookup ⟨nid, 0⟩ = some e ∧
      admitted algo now ⟨nid, 0⟩ e = true ∧
      node = s.topologyNode db level algo aff now nid e := by
  unfold buildTopology
  cases hdb : s.dbs level with
  | none => simp
  | some db =>
    have hnodup : (((db.entries.filter fun entry =>
        admitted algo now entry.1 entry.2).map fun entry =>
          (entry.1.nodeID, s.topologyNode db level algo aff now entry.1.nodeID entry.2)).map
            Prod.fst).Nodup := by
      rw [List.map_map]
      refine Nodup.map_on (fun x hx y hy heq => ?_) (db.nodupKeys.nodup.filter _)
      obtain ⟨hx, hax⟩ := mem_filter.mp hx
      obtain ⟨hy, hay⟩ := mem_filter.mp hy
      have hfrag : x.1 = y.1 := by
        simp only [admitted, Bool.and_eq_true, beq_iff_eq] at hax hay
        have hn : x.1.nodeID = y.1.nodeID := heq
        have hf : x.1.fragmentID = y.1.fragmentID := hax.1.1.trans hay.1.1.symm
        calc x.1 = ⟨x.1.nodeID, x.1.fragmentID⟩ := rfl
          _ = ⟨y.1.nodeID, y.1.fragmentID⟩ := by rw [hn, hf]
      exact db.nodupKeys.eq_of_fst_eq hx hy hfrag
    rw [Map.lookup_ofList hnodup]
    constructor
    · intro hmem
      obtain ⟨entry, hentry, heq⟩ := mem_map.mp hmem
      obtain ⟨hentry, hadm⟩ := mem_filter.mp hentry
      obtain ⟨rfl, rfl⟩ := Prod.mk.inj heq
      have hid : (⟨entry.1.nodeID, 0⟩ : LSPID) = entry.1 := by
        have hf := hadm
        simp only [admitted, Bool.and_eq_true, beq_iff_eq] at hf
        rw [← hf.1.1]
      refine ⟨db, entry.2, rfl, ?_, ?_, rfl⟩
      · rw [hid]
        exact AList.mem_lookup_iff.mpr hentry
      · rw [hid]
        exact hadm
    · rintro ⟨db', e, hdb', he, hadm, rfl⟩
      cases hdb'
      exact mem_map.mpr ⟨⟨⟨nid, 0⟩, e⟩, mem_filter.mpr ⟨AList.mem_lookup_iff.mp he, hadm⟩, rfl⟩

/-- The same as a function of the fragment 0. -/
theorem lookup_buildTopology_eq (hdb : s.dbs level = some db) :
    (s.buildTopology level algo aff now).lookup nid =
      ((db.lookup ⟨nid, 0⟩).filter fun e => admitted algo now ⟨nid, 0⟩ e).map
        (s.topologyNode db level algo aff now nid) := by
  ext node
  rw [lookup_buildTopology, Option.map_eq_some_iff]
  constructor
  · rintro ⟨db', e, hdb', he, hadm, rfl⟩
    rw [hdb] at hdb'
    cases hdb'
    exact ⟨e, Option.filter_eq_some_iff.mpr ⟨he, hadm⟩, rfl⟩
  · rintro ⟨e, he, rfl⟩
    obtain ⟨he, hadm⟩ := Option.filter_eq_some_iff.mp he
    exact ⟨db, e, hdb, he, hadm, rfl⟩

/-- The entries of a node, fragment by fragment. -/
theorem mem_reachEntries_nodeTLVs {nb : ISReachEntry} :
    nb ∈ reachEntries (nodeTLVs db nid now) ↔ ∃ id e, db.lookup id = some e ∧ id.nodeID = nid ∧
      e.live now = true ∧ nb ∈ reachEntries e.lsp.tlvs := by
  constructor
  · intro h
    obtain ⟨tlv, htlv, hin⟩ := mem_flatMap.mp h
    obtain ⟨entry, hentry, htlv⟩ := mem_flatMap.mp htlv
    obtain ⟨hentry, hnode⟩ := mem_filter.mp hentry
    obtain ⟨hnid, hlive⟩ := of_decide_eq_true hnode
    exact ⟨entry.1, entry.2, AList.mem_lookup_iff.mpr hentry, hnid, hlive,
      mem_flatMap.mpr ⟨tlv, htlv, hin⟩⟩
  · rintro ⟨id, e, he, hnid, hlive, hnb⟩
    obtain ⟨tlv, htlv, hin⟩ := mem_flatMap.mp hnb
    have hentry : (⟨id, e⟩ : (_ : LSPID) × LspEntry) ∈ db.entries.filter
        fun entry => entry.1.nodeID = nid ∧ entry.2.live now :=
      mem_filter.mpr ⟨AList.mem_lookup_iff.mp he, decide_eq_true ⟨hnid, hlive⟩⟩
    exact mem_flatMap.mpr ⟨tlv, mem_flatMap.mpr ⟨_, hentry, htlv⟩, hin⟩

/-- **Where an edge comes from**: an IS-reachability entry of a live fragment of its node; out of an
LSP of ours there is an adjacency behind it. -/
theorem mem_edges_buildTopology (h : (s.buildTopology level algo aff now).lookup nid = some node)
    (he : e ∈ node.edges) :
    (∃ id entry, id.nodeID = nid ∧ s.entryAt level id = some entry ∧ entry.live now = true ∧
      ∃ nb ∈ reachEntries entry.lsp.tlvs, nb.neighborID = e.dst ∧ nb.metric = e.metric) ∧
    e.metric.toNat < maxPathMetric ∧
    (nid.systemID = s.systemID → s.edgeHasAdjacency level e.dst = true) := by
  obtain ⟨db, e₀, hdb, -, -, rfl⟩ := lookup_buildTopology.mp h
  have hmem : e ∈ nodeEdges aff nid (nodeTLVs db nid now) ∧
      (nid.systemID = s.systemID → s.edgeHasAdjacency level e.dst = true) := by
    simp only [topologyNode] at he
    split at he
    · obtain ⟨he, hadj⟩ := mem_filter.mp he
      exact ⟨he, fun _ => hadj⟩
    · rename_i hne
      exact ⟨he, fun heq => absurd heq hne⟩
  obtain ⟨hmem, hadj⟩ := hmem
  have hscan := (mem_filter.mp hmem).1
  obtain ⟨x, hx, rfl⟩ := mem_map.mp hscan
  obtain ⟨nb, hnb, rfl⟩ := mem_map.mp (mem_filter.mp hx).1
  obtain ⟨hnb, hmetric⟩ := mem_filter.mp hnb
  obtain ⟨id, entry, hentry, hnid, hlive, hin⟩ := mem_reachEntries_nodeTLVs.mp hnb
  refine ⟨⟨id, entry, hnid, ?_, hlive, nb, hin, rfl, rfl⟩, by simpa [scanEntry] using hmetric, hadj⟩
  rwa [entryAt, hdb]

/-- Metrics in the graph are metrics in the database. -/
theorem metric_lt_of_mem_edges (hb : s.LinkMetricsBelow level bound)
    (h : (s.buildTopology level algo aff now).lookup nid = some node) (he : e ∈ node.edges) :
    e.metric.toNat < bound := by
  obtain ⟨⟨id, entry, -, hentry, -, nb, hnb, -, hmetric⟩, -⟩ := mem_edges_buildTopology h he
  rw [← hmetric]
  exact hb id entry hentry nb hnb

end Reading

/-! ## Databases with given contents -/

/-- A fragment 0 learned at `now`, with its lifetime ahead of it. -/
def announcement (level : Level) (now : Int) (nid : NodeID) (tlvs : List TLV) : LspEntry where
  lsp := { level := level, remainingTime := 1200, lspID := ⟨nid, 0⟩, sequenceNumber := 1,
           isType := 3, tlvs := tlvs }
  raw := []
  inserted := now
  lifetime := 1200
  own := false
  purgedAt := none
  refreshAt := 0

/-- The database in which each of the listed nodes announces its TLVs. -/
def announcedDB (level : Level) (now : Int) (l : List (NodeID × List TLV)) : LSDB :=
  Map.ofList (l.map fun x => (⟨x.1, 0⟩, announcement level now x.1 x.2))

/-- A Level 1 server with the given circuits and database. -/
def levelOneServer (sys : SystemID) (circuits : List Circuit) (db : LSDB) : IsisServer :=
  { blank ⟨fun _ _ _ => [], sys, [], {}, {}, 0, 0, none⟩ with
    circuits := circuits
    dbs := fun | .level1 => some db | .level2 => none
    levelCap := ⟨true, false⟩ }

theorem linkMetricsBelow_of_entries (hdb : s.dbs level = some db)
    (h : ∀ entry ∈ db.entries, ∀ nb ∈ reachEntries entry.2.lsp.tlvs, nb.metric.toNat < bound) :
    s.LinkMetricsBelow level bound := by
  intro id e he nb hnb
  simp only [entryAt, hdb, Option.bind_some] at he
  exact h ⟨id, e⟩ (AList.mem_lookup_iff.mp he) nb hnb

end Goisis.Server
