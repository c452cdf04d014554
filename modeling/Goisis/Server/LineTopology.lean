import Goisis.Server.Ecmp

/-!
# A line of nodes behind self

Which first hops can a database make `computeSPF` find? To answer that for every adjacency state, a
database is needed for each of them: self announces given entries, and a line of nodes behind it
announces its neighbours along the line at cost 0, the last one also a prefix.

* `lookup_announced` — the graph of a database that consists of given announcements;
* `exists_path_line` — the line can be walked if the adjacencies back the edges of our own LSPs;
* `LineTo.lookup_computeSPF` — if the last node is the only router of the line, the route to its
  prefix has it as its only first hop.
-/

namespace Goisis.Server

open Lib Packet List IsisServer

/-! ## Announced databases -/

section Announced

variable {s : IsisServer} {level : Level} {algo : UInt8} {aff : FlexAlgoAffinity} {now : Int}
  {l : List (NodeID × List TLV)} {nid : NodeID} {tlvs : List TLV}

theorem live_announcement (level : Level) (now : Int) (nid : NodeID) (tlvs : List TLV) :
    (announcement level now nid tlvs).live now = true := by
  simp [announcement, LspEntry.live, LspEntry.remaining]

theorem lookup_announcedDB (hl : (l.map Prod.fst).Nodup) {id : LSPID} {e : LspEntry} :
    (announcedDB level now l).lookup id = some e ↔
      ∃ x ∈ l, id = ⟨x.1, 0⟩ ∧ e = announcement level now x.1 x.2 := by
  have hnodup : ((l.map fun x => ((⟨x.1, 0⟩ : LSPID), announcement level now x.1 x.2)).map
      Prod.fst).Nodup := by
    have hmap : (l.map fun x => ((⟨x.1, 0⟩ : LSPID), announcement level now x.1 x.2)).map Prod.fst =
        (l.map Prod.fst).map fun n => (⟨n, 0⟩ : LSPID) := by simp
    rw [hmap]
    exact hl.map fun a b hab => (LSPID.mk.inj hab).1
  rw [announcedDB, Map.lookup_ofList hnodup, mem_map]
  constructor
  · rintro ⟨x, hx, heq⟩
    obtain ⟨rfl, rfl⟩ := Prod.mk.inj heq
    exact ⟨x, hx, rfl, rfl⟩
  · rintro ⟨x, hx, rfl, rfl⟩
    exact ⟨x, hx, rfl⟩

/-- A node's TLVs are the ones it announces. -/
theorem nodeTLVs_announcedDB (hl : (l.map Prod.fst).Nodup) (h : (nid, tlvs) ∈ l) :
    nodeTLVs (announcedDB level now l) nid now = tlvs := by
  have hone : (announcedDB level now l).entries.filter
      (fun entry => entry.1.nodeID = nid ∧ entry.2.live now) =
        [⟨⟨nid, 0⟩, announcement level now nid tlvs⟩] := by
    refine perm_singleton.mp ((perm_ext_iff_of_nodup
      ((announcedDB level now l).nodupKeys.nodup.filter _) (nodup_singleton _)).mpr fun entry => ?_)
    rw [mem_filter, mem_singleton]
    constructor
    · rintro ⟨hmem, hnid⟩
      obtain ⟨x, hx, hid, he⟩ := (lookup_announcedDB hl).mp (AList.mem_lookup_iff.mpr hmem)
      obtain ⟨id, e⟩ := entry
      obtain rfl : id = ⟨x.1, 0⟩ := hid
      obtain rfl : e = announcement level now x.1 x.2 := he
      obtain ⟨rfl, -⟩ : x.1 = nid ∧ _ := by simpa using hnid
      have hx2 : x = (x.1, tlvs) := inj_on_of_nodup_map hl hx h rfl
      rw [show x.2 = tlvs from congrArg Prod.snd hx2]
    · rintro rfl
      have hmem := (@lookup_announcedDB level now l hl _ _).mpr ⟨_, h, rfl, rfl⟩
      refine ⟨AList.mem_lookup_iff.mp hmem, ?_⟩
      simp [live_announcement]
  rw [nodeTLVs, hone]
  simp [announcement]

/-- An announced node in the graph of algorithm 0. -/
def announcedNode (s : IsisServer) (level : Level) (nid : NodeID) (tlvs : List TLV) : SpfNode where
  edges := if nid.systemID = s.systemID then
      (nodeEdges {} nid tlvs).filter fun x => s.edgeHasAdjacency level x.dst
    else nodeEdges {} nid tlvs
  prefixes := nodePrefixes 0 tlvs
  overload := false
  attached := false

/-- **The graph of announcements.** -/
theorem lookup_announced (hdb : s.dbs level = some (announcedDB level now l))
    (hl : (l.map Prod.fst).Nodup) {node : SpfNode} :
    (s.buildTopology level 0 {} now).lookup nid = some node ↔
      ∃ tlvs, (nid, tlvs) ∈ l ∧ node = announcedNode s level nid tlvs := by
  rw [lookup_buildTopology]
  constructor
  · rintro ⟨db, e, hdb', he, -, rfl⟩
    rw [hdb] at hdb'
    cases hdb'
    obtain ⟨x, hx, hid, rfl⟩ := (lookup_announcedDB hl).mp he
    obtain rfl : nid = x.1 := (LSPID.mk.inj hid).1
    refine ⟨x.2, hx, ?_⟩
    unfold topologyNode announcedNode
    rw [@nodeTLVs_announcedDB level now l x.1 x.2 hl hx]
    rfl
  · rintro ⟨tlvs, hmem, rfl⟩
    refine ⟨_, announcement level now nid tlvs, hdb,
      (lookup_announcedDB hl).mpr ⟨_, hmem, rfl, rfl⟩, ?_, ?_⟩
    · simp [admitted, live_announcement]
    · unfold topologyNode announcedNode
      rw [nodeTLVs_announcedDB hl hmem]
      rfl

end Announced

/-! ## The line -/

/-- The neighbours of a node along a line. -/
def lineNeighbors (l : List NodeID) (n : NodeID) : List NodeID :=
  l.filter fun m => [n, m] <:+: l ∨ [m, n] <:+: l

/-- The TLV that advertises a prefix at metric 0. -/
def prefixTLV (p : Prefix) : TLV :=
  if p.addr.is4 then .extendedIPReachability [⟨0, false, false, p, []⟩]
  else .ipv6Reachability [⟨0, false, false, p, []⟩]

/-- What a node of the line announces. -/
def lineTLVs (self : NodeID) (line : List NodeID) (p : Prefix) (n : NodeID) : List TLV :=
  .extendedISReachability ((lineNeighbors (self :: line) n).map fun m => ⟨m, 0, []⟩) ::
    if line.getLast? = some n then [prefixTLV p] else []

/-- Self with the entries `own`, and the line behind it. -/
def lineAnnouncements (self : NodeID) (own : List ISReachEntry) (line : List NodeID) (p : Prefix) :
    List (NodeID × List TLV) :=
  (self, [.extendedISReachability own]) :: line.map fun n => (n, lineTLVs self line p n)

/-- The database of the line. -/
def lineDB (level : Level) (now : Int) (self : NodeID) (own : List ISReachEntry)
    (line : List NodeID) (p : Prefix) : LSDB :=
  announcedDB level now (lineAnnouncements self own line p)

section Line

variable {s : IsisServer} {level : Level} {now : Int} {self : NodeID} {own : List ISReachEntry}
  {line : List NodeID} {p : Prefix} {n m : NodeID} {node : SpfNode}

theorem nodup_lineAnnouncements (h : (self :: line).Nodup) :
    ((lineAnnouncements self own line p).map Prod.fst).Nodup := by
  have hmap : (lineAnnouncements self own line p).map Prod.fst = self :: line := by
    simp [lineAnnouncements, Function.comp_def]
  rw [hmap]
  exact h

theorem mem_lineNeighbors {l : List NodeID} :
    m ∈ lineNeighbors l n ↔ [n, m] <:+: l ∨ [m, n] <:+: l := by
  unfold lineNeighbors
  rw [mem_filter]
  constructor
  · rintro ⟨-, h⟩
    simpa using h
  · intro h
    refine ⟨?_, by simpa using h⟩
    rcases h with h | h
    · exact h.subset (by simp)
    · exact h.subset (by simp)

/-- Without affinity rules the edges are the entries below the ceiling. -/
theorem nodeEdges_plain (nid : NodeID) (tlvs : List TLV) : nodeEdges {} nid tlvs =
    ((reachEntries tlvs).filter fun nb => nb.metric.toNat < maxPathMetric).map
      fun nb => ⟨nb.neighborID, nb.metric, false⟩ := by
  have hscan : scanEntry {} nid = fun nb => (nb, false, false) := by
    funext nb
    exact congrArg (nb, ·) (ite_self (c := nid.pseudonodeID = 0) (false, false))
  simp [nodeEdges, hscan, filter_map, Function.comp_def]

theorem mem_filter_nodeEdges {nid : NodeID} {tlvs : List TLV} {keep : SpfEdge → Bool}
    {e : SpfEdge} :
    e ∈ (nodeEdges {} nid tlvs).filter keep ↔
      (∃ nb ∈ reachEntries tlvs, nb.neighborID = e.dst ∧ nb.metric = e.metric) ∧
        e.metric.toNat < maxPathMetric ∧ e.hasAttrs = false ∧ keep e = true := by
  rw [nodeEdges_plain, mem_filter, mem_map]
  constructor
  · rintro ⟨⟨nb, hnb, rfl⟩, hkeep⟩
    obtain ⟨hnb, hlt⟩ := mem_filter.mp hnb
    exact ⟨⟨nb, hnb, rfl, rfl⟩, by simpa using hlt, rfl, hkeep⟩
  · rintro ⟨⟨nb, hnb, hdst, hmetric⟩, hlt, hattrs, hkeep⟩
    refine ⟨⟨nb, mem_filter.mpr ⟨hnb, by rw [hmetric]; simpa using hlt⟩, ?_⟩, hkeep⟩
    rw [hdst, hmetric, ← hattrs]

theorem reachEntries_cons (entries : List ISReachEntry) {rest : List TLV}
    (hrest : reachEntries rest = []) :
    reachEntries (.extendedISReachability entries :: rest) = entries := by
  have happend : reachEntries (.extendedISReachability entries :: rest) = entries ++
      reachEntries rest :=
    rfl
  rw [happend, hrest, append_nil]

theorem reachEntries_lineTail (line : List NodeID) (p : Prefix) (n : NodeID) :
    reachEntries (if line.getLast? = some n then [prefixTLV p] else []) = [] := by
  split
  · unfold prefixTLV
    split <;> rfl
  · rfl

/-- The edges along the line cost nothing. -/
theorem mem_nodeEdges_line {e : SpfEdge} : e ∈ nodeEdges {} n (lineTLVs self line p n) ↔
    e.dst ∈ lineNeighbors (self :: line) n ∧ e.metric = 0 ∧ e.hasAttrs = false := by
  rw [lineTLVs, nodeEdges_plain, reachEntries_cons _ (reachEntries_lineTail line p n), mem_map]
  constructor
  · rintro ⟨nb, hnb, rfl⟩
    obtain ⟨m, hm, rfl⟩ := mem_map.mp (mem_filter.mp hnb).1
    exact ⟨hm, rfl, rfl⟩
  · rintro ⟨hm, hzero, hattrs⟩
    refine ⟨⟨e.dst, 0, []⟩, mem_filter.mpr ⟨mem_map_of_mem hm, by simp [maxPathMetric]⟩, ?_⟩
    rw [← hzero, ← hattrs]

theorem nodePrefixes_line : nodePrefixes 0 (lineTLVs self line p n) =
    if line.getLast? = some n then [⟨p.masked, 0, false, false⟩] else [] := by
  unfold lineTLVs
  split
  · unfold prefixTLV
    split
    · simp [nodePrefixes, plainPrefixes, locatorPrefixes, spfPrefixes, maxPathMetric]
    · simp [nodePrefixes, plainPrefixes, locatorPrefixes, spfPrefixes, maxPathMetric]
  · rfl

/-- Other algorithms have nothing to route to. -/
theorem nodePrefixes_lineAnnouncements {algo : UInt8} (halgo : algo ≠ 0) {x : NodeID × List TLV}
    (hx : x ∈ lineAnnouncements self own line p) : nodePrefixes algo x.2 = [] := by
  rcases mem_cons.mp hx with rfl | hx
  · simp [nodePrefixes, plainPrefixes, locatorPrefixes, halgo]
  obtain ⟨k, -, rfl⟩ := mem_map.mp hx
  simp only [lineTLVs]
  split
  · unfold prefixTLV
    split
    · simp [nodePrefixes, plainPrefixes, locatorPrefixes, halgo]
    · simp [nodePrefixes, plainPrefixes, locatorPrefixes, halgo]
  · simp [nodePrefixes, plainPrefixes, locatorPrefixes, halgo]

/-- The nodes of the line's graph. -/
theorem lookup_line (hdb : s.dbs level = some (lineDB level now self own line p))
    (hl : (self :: line).Nodup) :
    (s.buildTopology level 0 {} now).lookup n = some node ↔
      (n = self ∧ node = announcedNode s level self [.extendedISReachability own]) ∨
        (n ∈ line ∧ node = announcedNode s level n (lineTLVs self line p n)) := by
  rw [lookup_announced hdb (nodup_lineAnnouncements hl)]
  constructor
  · rintro ⟨tlvs, hmem, rfl⟩
    rcases mem_cons.mp hmem with heq | hmem
    · cases heq
      exact .inl ⟨rfl, rfl⟩
    · obtain ⟨k, hk, heq⟩ := mem_map.mp hmem
      cases heq
      exact .inr ⟨hk, rfl⟩
  · rintro (⟨rfl, rfl⟩ | ⟨hn, rfl⟩)
    · exact ⟨_, mem_cons_self, rfl⟩
    · exact ⟨_, mem_cons_of_mem _ (mem_map.mpr ⟨n, hn, rfl⟩), rfl⟩

/-- The adjacencies let every edge of the line through that is ours to announce. -/
def LineBacked (s : IsisServer) (level : Level) (self : NodeID) (line : List NodeID) : Prop :=
  ∀ a b, [a, b] <:+: self :: line → (a.systemID = s.systemID → s.edgeHasAdjacency level b = true) ∧
      (b.systemID = s.systemID → s.edgeHasAdjacency level a = true)

theorem lineBacked_nil : LineBacked s level self [] := by
  intro a b hab
  exact absurd hab.length_le (by simp)

/-- A line is backed edge by edge. -/
theorem LineBacked.cons (hout : self.systemID = s.systemID → s.edgeHasAdjacency level n = true)
    (hin : n.systemID = s.systemID → s.edgeHasAdjacency level self = true)
    (h : LineBacked s level n line) : LineBacked s level self (n :: line) := by
  intro a b hab
  rcases infix_cons_iff.mp hab with hpre | hsublist
  · obtain ⟨rfl, hrest⟩ := cons_prefix_cons.mp hpre
    obtain ⟨rfl, -⟩ := cons_prefix_cons.mp hrest
    exact ⟨hout, hin⟩
  · exact h a b hsublist

theorem mem_edges_of_neighbor (hn : m ∈ lineNeighbors (self :: line) n)
    (hadj : n.systemID = s.systemID → s.edgeHasAdjacency level m = true) :
    ⟨m, 0, false⟩ ∈ (announcedNode s level n (lineTLVs self line p n)).edges := by
  have hmem : (⟨m, 0, false⟩ : SpfEdge) ∈ nodeEdges {} n (lineTLVs self line p n) :=
    mem_nodeEdges_line.mpr ⟨hn, rfl, rfl⟩
  simp only [announcedNode]
  split
  · rename_i hown
    exact mem_filter.mpr ⟨hmem, hadj hown⟩
  · exact hmem

/-- **The line can be walked**, at the cost of its first edge. -/
theorem exists_path_line (hdb : s.dbs level = some (lineDB level now self own line p))
    (hself : self.systemID = s.systemID) (hl : (self :: line).Nodup)
    (hback : LineBacked s level self line) {nb : ISReachEntry} (hnb : nb ∈ own)
    (hfirst : line.head? = some nb.neighborID) (hlt : nb.metric.toNat < maxPathMetric) :
    ∀ n ∈ line, ∃ q, AdmissiblePath (s.buildTopology level 0 {} now) self q n nb.metric.toNat := by
  have hroot : (s.buildTopology level 0 {} now).lookup self = some _ :=
    (lookup_line hdb hl).mpr (.inl ⟨rfl, rfl⟩)
  have hnode {k : NodeID} (hk : k ∈ line) : (s.buildTopology level 0 {} now).lookup k = some _ :=
    (lookup_line hdb hl).mpr (.inr ⟨hk, rfl⟩)
  -- by induction on the part of the line before the node
  have hwalk : ∀ pre n post, line = pre ++ n :: post →
      ∃ q, AdmissiblePath (s.buildTopology level 0 {} now) self q n nb.metric.toNat := by
    intro pre
    induction pre using reverseRecOn with
    | nil =>
      intro n post hline
      have hn : nb.neighborID = n := by
        rw [hline] at hfirst
        exact (Option.some.inj hfirst).symm
      have hsublist : [self, n] <:+: self :: line := ⟨[], post, by simp [hline]⟩
      have hedge : (⟨n, nb.metric, false⟩ : SpfEdge) ∈
          (announcedNode s level self [.extendedISReachability own]).edges := by
        simp only [announcedNode, if_pos hself]
        rw [mem_filter_nodeEdges, reachEntries_cons _ rfl]
        exact ⟨⟨nb, hnb, hn, rfl⟩, hlt, rfl, (hback self n hsublist).1 hself⟩
      refine ⟨[n], ?_⟩
      have := (AdmissiblePath.start hroot).extend hroot (.inl rfl) hedge
        (hnode (by simp [hline])) ⟨⟨self, 0, false⟩, mem_edges_of_neighbor
          (mem_lineNeighbors.mpr (.inr hsublist)) (hback self n hsublist).2, rfl⟩
      simpa using this
    | append_singleton pre a ih =>
      intro n post hline
      obtain ⟨q, hq⟩ := ih a (n :: post) (by simp [hline])
      have hsublist : [a, n] <:+: self :: line := ⟨self :: pre, post, by simp [hline]⟩
      have hedge :
          (⟨n, 0, false⟩ : SpfEdge) ∈ (announcedNode s level a (lineTLVs self line p a)).edges :=
        mem_edges_of_neighbor (mem_lineNeighbors.mpr (.inl hsublist)) (hback a n hsublist).1
      exact ⟨q ++ [n], hq.extend (hnode (by simp [hline])) (.inr rfl) hedge
        (hnode (by simp [hline]))
        ⟨⟨a, 0, false⟩, mem_edges_of_neighbor (mem_lineNeighbors.mpr (.inr hsublist))
          (hback a n hsublist).2, rfl⟩⟩
  intro n hn
  obtain ⟨pre, post, hline⟩ := append_of_mem hn
  exact hwalk pre n post hline

theorem linkMetricsBelow_line (hdb : s.dbs level = some (lineDB level now self own line p))
    (hl : (self :: line).Nodup) {bound : ℕ} (hb : 0 < bound)
    (hown : ∀ nb ∈ own, nb.metric.toNat < bound) : s.LinkMetricsBelow level bound := by
  intro id e he nb hnb
  simp only [entryAt, hdb, Option.bind_some] at he
  obtain ⟨x, hx, -, rfl⟩ := (lookup_announcedDB (nodup_lineAnnouncements hl)).mp he
  rcases mem_cons.mp hx with rfl | hx
  · refine hown nb ?_
    simpa [announcement, reachEntries] using hnb
  obtain ⟨k, hk, rfl⟩ := mem_map.mp hx
  have hzero : nb.metric = 0 := by
    have hsplit : reachEntries (lineTLVs self line p k) =
        ((lineNeighbors (self :: line) k).map fun m => ⟨m, 0, []⟩) ++
          reachEntries (if line.getLast? = some k then [prefixTLV p] else []) := rfl
    have hnb' : nb ∈ reachEntries (lineTLVs self line p k) := hnb
    rw [hsplit, reachEntries_lineTail, append_nil] at hnb'
    obtain ⟨m, -, rfl⟩ := mem_map.mp hnb'
    rfl
  rw [hzero]
  exact hb

/-- A line behind self, backed by the adjacencies, that ends in `h` and has no other router on
it. -/
structure LineTo (s : IsisServer) (level : Level) (h : SystemID) (line : List NodeID) : Prop where
  nodup : (realNode s.systemID :: line).Nodup
  only : ∀ n ∈ line, n.pseudonodeID = 0 → n = realNode h
  last : line.getLast? = some (realNode h)
  backed : LineBacked s level (realNode s.systemID) line

/-- A visited node has no first hop but the only router of the line. -/
theorem LineTo.eq_of_mem_label {o : SpfOrder} {h : SystemID} {v : SpfVisit} {x : SystemID}
    (hline : LineTo s level h line)
    (hdb : s.dbs level = some (lineDB level now (realNode s.systemID) own line p))
    (hown : ∀ nb ∈ own, nb.metric.toNat < 2 ^ 24) (hv : v ∈ s.spfDone o level 0 {} now)
    (hx : x ∈ v.label) : x = h := by
  have hroot := (@lookup_line s level now (realNode s.systemID) own line p _ _ hdb hline.nodup).mpr
    (.inl ⟨rfl, rfl⟩)
  obtain ⟨hrun, hcomplete⟩ := @spfDone_run s o level 0 {} now
    (linkMetricsBelow_line hdb hline.nodup (by decide) hown) _ hroot
  have hexact := hrun.exact hcomplete maxPathMetric_pos
  have hvia := (hrun.reachedVia_of_mem (hopLabels_spfSearch _ _) hexact v hv).1 x hx
  obtain ⟨r, u, w, hr, htight, -⟩ := hvia.origin
  obtain ⟨h0, hne, rfl⟩ := firstRouter_eq_some.mp hr
  -- the hop is a node of the graph, for it has an edge back
  obtain ⟨_, -, -, e, -, -, -, htwo⟩ := mem_spfSucc.mp htight.1
  obtain ⟨node, hnode, -⟩ := twoWay_iff.mp htwo
  rcases (lookup_line hdb hline.nodup).mp hnode with ⟨rfl, -⟩ | ⟨hmem, -⟩
  · exact absurd rfl hne
  · rw [hline.only r hmem h0]
    rfl

/-- **The route to the prefix at the end of the line** has the last node as its only first hop. -/
theorem LineTo.lookup_computeSPF (o : SpfOrder) {h : SystemID} {nb : ISReachEntry}
    (hline : LineTo s level h line)
    (hdb : s.dbs level = some (lineDB level now (realNode s.systemID) own line p))
    (hown : ∀ nb ∈ own, nb.metric.toNat < 2 ^ 24) (hnb : nb ∈ own)
    (hfirst : line.head? = some nb.neighborID) :
    ∃ r, (s.computeSPF o level 0 {} now).lookup p.masked = some r ∧
      ∀ x, x ∈ r.nextHops ↔ x = h := by
  have hbelow := linkMetricsBelow_line hdb hline.nodup (by decide) hown
  have hlt : nb.metric.toNat < maxPathMetric := Nat.lt_trans (hown nb hnb) (by decide)
  have hmem : realNode h ∈ line := mem_of_getLast? hline.last
  have hne : realNode h ≠ realNode s.systemID :=
    fun heq => (nodup_cons.mp hline.nodup).1 (heq ▸ hmem)
  have hroot := (@lookup_line s level now (realNode s.systemID) own line p _ _ hdb hline.nodup).mpr
    (.inl ⟨rfl, rfl⟩)
  have hnode := (@lookup_line s level now (realNode s.systemID) own line p _ _ hdb hline.nodup).mpr
    (.inr ⟨hmem, rfl⟩)
  -- the last node is visited, with a first hop
  obtain ⟨q, hq⟩ := exists_path_line hdb rfl hline.nodup hline.backed hnb hfirst hlt _ hmem
  obtain ⟨v, hv, hid⟩ := @exists_visit_of_admissible s o level 0 {} now hbelow _ _ _ hq hlt
  obtain ⟨hrun, hcomplete⟩ := @spfDone_run s o level 0 {} now hbelow _ hroot
  have hexact := hrun.exact hcomplete maxPathMetric_pos
  have hlabel : v.label ≠ ∅ := hrun.label_ne_empty (hopLabels_spfSearch _ _) hexact hv
    (firstRouter_eq_some.mpr ⟨by rw [hid]; rfl, by rw [hid]; exact hne, rfl⟩)
  have hoff : s.Offered o level 0 {} now p.masked (offerClass level false)
      (v.dist + (0 : UInt32).toNat)
      v.label := by
    have hlast := hline.last
    rw [← hid] at hnode hne hlast
    refine .advertised (q := ⟨p.masked, 0, false, false⟩) hv hne hnode hlabel ?_ rfl
      (dist_lt_of_mem_spfDone hbelow hv)
    show _ ∈ nodePrefixes 0 (lineTLVs (realNode s.systemID) line p v.id)
    rw [nodePrefixes_line, if_pos hlast]
    exact mem_singleton.mpr rfl
  cases hres : (s.computeSPF o level 0 {} now).lookup p.masked with
  | none => exact absurd hoff (not_offered_of_lookup_none hbelow hres)
  | some r =>
    have hsub : ∀ x ∈ r.nextHops, x = h := fun x hx => by
      obtain ⟨u, hu, hxu⟩ := (exists_visit_of_lookup hres).2 x hx
      exact hline.eq_of_mem_label hdb hown hu hxu
    obtain ⟨x, hx⟩ := exists_mem_nextHops hbelow hres
    refine ⟨r, rfl, fun y => ⟨hsub y, fun hy => ?_⟩⟩
    rw [hy, ← hsub x hx]
    exact hx

end Line

end Goisis.Server
