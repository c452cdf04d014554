import Goisis.Server.Originate

/-!
# Splitting an adjacency

`appendISReach` spreads what is said about a neighbour over several entries and repeats the link
attributes on each, so that a Flexible Algorithm prunes all of them or none. `buildTopology` prunes
across entries in a second step; what it keeps is a function of the set of entries with their
verdicts.

* `prunesLink_appendISReach` — every piece gets the verdict of the whole;
* `mem_nodeEdges` — the edges of a node, from what is seen of its entries;
* `split_keeps_pruning` — neither order nor splitting changes the links of the graph.
-/

namespace Goisis.Server

open Lib Packet List IsisServer

/-! ## Verdicts -/

/-- An ASLA or an admin group, which is all that `prunesLink` reads. -/
def isLinkAttr : SubTLV → Bool
  | .asla _ => true
  | .adminGroup _ => true
  | _ => false

section Verdicts

variable (aff : FlexAlgoAffinity) {id : NodeID} {metric : UInt32} {attrs subs : List SubTLV}

theorem prunesLink_filter (subs : List SubTLV) :
    aff.prunesLink (subs.filter isLinkAttr) = aff.prunesLink subs := by
  have hread : ∀ {β : Type} (f : SubTLV → Option β), (∀ sub, isLinkAttr sub = false →
    f sub = none) →
      (subs.filter isLinkAttr).filterMap f = subs.filterMap f := by
    intro β f hf
    rw [filterMap_filter]
    refine filterMap_congr fun sub _ => ?_
    cases hattr : isLinkAttr sub with
    | true => rfl
    | false => exact (hf sub hattr).symm
  have haslas : flexAlgoASLAs (subs.filter isLinkAttr) = flexAlgoASLAs subs := by
    unfold flexAlgoASLAs
    rw [hread]
    intro sub hattr
    cases sub <;> first | rfl | cases hattr
  unfold FlexAlgoAffinity.prunesLink flexAlgoLinkColors
  rw [haslas, hread]
  intro sub hattr
  cases sub <;> first | rfl | cases hattr

theorem filter_append_of_none {taken : List SubTLV} (h : ∀ sub ∈ taken, isLinkAttr sub = false) :
    (attrs ++ taken).filter isLinkAttr = attrs.filter isLinkAttr := by
  have hnil : taken.filter isLinkAttr = [] :=
    filter_eq_nil_iff.mpr fun sub hsub => Bool.eq_false_iff.mp (h sub hsub)
  rw [filter_append, hnil, append_nil]

/-- The pieces: one or more entries for the same neighbour, each with all the attributes and a part
of the rest. -/
theorem mem_appendISReach {nb : ISReachEntry} (h : nb ∈ appendISReach id metric attrs subs) :
    nb.neighborID = id ∧ nb.metric = metric ∧ ∃ taken, nb.subTLVs = attrs ++ taken ∧
      taken ⊆ subs := by
  obtain ⟨taken, htaken, rfl⟩ := mem_map.mp h
  refine ⟨rfl, rfl, taken, rfl, fun sub hsub => ?_⟩
  have hflat := mem_flatten.mpr ⟨taken, htaken, hsub⟩
  rwa [flatten_pack, nil_append] at hflat

theorem appendISReach_ne_nil (id : NodeID) (metric : UInt32) (attrs subs : List SubTLV) :
    appendISReach id metric attrs subs ≠ [] := by
  obtain ⟨more, rest, heq⟩ := pack_eq_cons (fun taken sub => !taken.isEmpty &&
    decide (subTLVsLen attrs + subTLVsLen (taken ++ [sub]) > maxSubTLVArea)) [] subs
  rw [appendISReach, heq, map_cons]
  exact cons_ne_nil _ _

/-- **Every piece gets the verdict of the whole.** -/
theorem prunesLink_appendISReach (hsubs : ∀ sub ∈ subs, isLinkAttr sub = false) {nb : ISReachEntry}
    (h : nb ∈ appendISReach id metric attrs subs) :
    aff.prunesLink nb.subTLVs = aff.prunesLink (attrs ++ subs) := by
  obtain ⟨-, -, taken, heq, htaken⟩ := mem_appendISReach h
  rw [heq, ← prunesLink_filter, ← prunesLink_filter aff (attrs ++ subs),
    filter_append_of_none hsubs, filter_append_of_none fun sub hsub => hsubs sub (htaken hsub)]

end Verdicts

/-- What `appendISReach` makes of an entry, its link attributes taken as `attrs`. -/
def splitEntry (nb : ISReachEntry) : List ISReachEntry :=
  appendISReach nb.neighborID nb.metric (nb.subTLVs.filter isLinkAttr)
    (nb.subTLVs.filter fun sub => !isLinkAttr sub)

/-! ## Links -/

/-- The pairs of neighbour and metric among the edges. -/
def links (edges : List SpfEdge) : Finset (NodeID × UInt32) :=
  (edges.map fun e => (e.dst, e.metric)).toFinset

/-- What is seen of an entry: the neighbour, the metric, and the verdict. -/
def sight (aff : FlexAlgoAffinity) (nid : NodeID) (nb : ISReachEntry) :
    NodeID × UInt32 × Bool × Bool :=
  (nb.neighborID, nb.metric, (scanEntry aff nid nb).2)

/-- The same is seen of two lists of entries. -/
def SeenAlike (entries entries' : List ISReachEntry) : Prop :=
  ∀ aff nid x, x ∈ entries'.map (sight aff nid) ↔ x ∈ entries.map (sight aff nid)

section Links

variable {aff : FlexAlgoAffinity} {nid : NodeID} {tlvs tlvs' : List TLV}
  {es es' : List ISReachEntry}

/-- **The edges of a node**, from what is seen of its entries. -/
theorem mem_nodeEdges {e : SpfEdge} : e ∈ nodeEdges aff nid tlvs ↔
    (e.metric.toNat < maxPathMetric ∧
      (e.dst, e.metric, false, e.hasAttrs) ∈ (reachEntries tlvs).map (sight aff nid)) ∧
    (¬(∃ m h, m.toNat < maxPathMetric ∧
      (e.dst, m, true, h) ∈ (reachEntries tlvs).map (sight aff nid)) ∨
      e.hasAttrs = true) := by
  obtain ⟨dst, metric, hasAttrs⟩ := e
  simp only [nodeEdges, sight, mem_filter, mem_map, Bool.not_eq_true', Bool.and_eq_false_iff,
    contains_eq_mem, decide_eq_false_iff_not, Bool.not_eq_false', decide_eq_true_eq,
    SpfEdge.mk.injEq, Prod.mk.injEq]
  -- all that matters of a scan is that it keeps its entry
  have hscan : ∀ nb, (scanEntry aff nid nb).1 = nb := fun _ => rfl
  generalize maxPathMetric = top
  generalize scanEntry aff nid = scan at hscan ⊢
  grind

theorem SeenAlike.of_perm (h : es.Perm es') : SeenAlike es es' :=
  fun _ _ _ => (h.map _).mem_iff.symm

theorem SeenAlike.around (h : SeenAlike es es') (l l' : List ISReachEntry) :
    SeenAlike (l ++ (es ++ l')) (l ++ (es' ++ l')) := by
  intro aff nid x
  simp only [map_append, mem_append, h aff nid x]

/-- The pieces of an entry are seen as the entry. -/
theorem seenAlike_split (nb : ISReachEntry) : SeenAlike [nb] (splitEntry nb) := by
  intro aff nid x
  have hpiece : ∀ nb' ∈ splitEntry nb, sight aff nid nb' = sight aff nid nb := by
    intro nb' hnb'
    obtain ⟨hid, hmetric, -⟩ := mem_appendISReach hnb'
    have hrest : ∀ sub ∈ nb.subTLVs.filter fun sub => !isLinkAttr sub, isLinkAttr sub = false :=
      fun sub hsub => by simpa using (mem_filter.mp hsub).2
    have hverdict := prunesLink_appendISReach aff hrest hnb'
    rw [← prunesLink_filter aff (_ ++ _), filter_append_of_none hrest, prunesLink_filter,
      prunesLink_filter] at hverdict
    simp only [sight, scanEntry, hid, hmetric, hverdict]
  obtain ⟨first, hfirst⟩ := exists_mem_of_ne_nil _ (appendISReach_ne_nil nb.neighborID nb.metric
    (nb.subTLVs.filter isLinkAttr) (nb.subTLVs.filter fun sub => !isLinkAttr sub))
  rw [map_singleton, mem_singleton]
  refine ⟨fun h => ?_, fun h => ?_⟩
  · obtain ⟨nb', hnb', rfl⟩ := mem_map.mp h
    exact hpiece nb' hnb'
  · exact mem_map.mpr ⟨first, hfirst, (hpiece first hfirst).trans h.symm⟩

/-! ## Databases -/

/-- An entry with other TLVs. -/
def LspEntry.withTLVs (e : LspEntry) (tlvs : List TLV) : LspEntry :=
  { e with lsp := { e.lsp with tlvs := tlvs } }

/-- The rewritings of a list of TLVs: another order, another order of the entries of one TLV, and
one entry split. -/
inductive Rewritten : List TLV → List TLV → Prop where
  | tlvs {tlvs tlvs' : List TLV} (h : tlvs.Perm tlvs') : Rewritten tlvs tlvs'
  | entries {pre post : List TLV} {ns ns' : List ISReachEntry} (h : ns.Perm ns') :
      Rewritten (pre ++ .extendedISReachability ns :: post)
      (pre ++ .extendedISReachability ns' :: post)
  | split {pre post : List TLV} {ns ns' : List ISReachEntry} (nb : ISReachEntry) :
      Rewritten (pre ++ .extendedISReachability (ns ++ nb :: ns') :: post)
        (pre ++ .extendedISReachability (ns ++ splitEntry nb ++ ns') :: post)

/-- The rewritings of a database: another order of its fragments, and one fragment rewritten. -/
inductive Respelled (db : LSDB) : LSDB → Prop where
  | fragments {db' : LSDB} (h : db.entries.Perm db'.entries) : Respelled db db'
  | fragment {id : LSPID} {e : LspEntry} {tlvs : List TLV} (he : db.lookup id = some e)
      (h : Rewritten e.lsp.tlvs tlvs) : Respelled db (db.insert id (e.withTLVs tlvs))

/-- Two copies that differ in how they write their IS reachability. -/
structure LspEntry.Alike (e e' : LspEntry) : Prop where
  live : ∀ now, e'.live now = e.live now
  participates : ∀ algo, lspParticipatesInAlgo e' algo = lspParticipatesInAlgo e algo
  seen : SeenAlike (reachEntries e.lsp.tlvs) (reachEntries e'.lsp.tlvs)

theorem reachEntries_around (pre post : List TLV) (ns : List ISReachEntry) :
    reachEntries (pre ++ .extendedISReachability ns :: post) = reachEntries pre ++
      (ns ++ reachEntries post) := by
  simp only [reachEntries, flatMap_append, flatMap_cons]

theorem Rewritten.alike {e : LspEntry} (h : Rewritten e.lsp.tlvs tlvs) :
    e.Alike (e.withTLVs tlvs) := by
  refine ⟨fun _ => rfl, fun algo => ?_, ?_⟩
  · unfold lspParticipatesInAlgo LspEntry.withTLVs
    generalize e.lsp.tlvs = before at h
    cases h with
    | tlvs h => exact h.any_eq.symm
    | entries h | split nb => simp only [any_append, any_cons]
  · unfold LspEntry.withTLVs
    generalize e.lsp.tlvs = before at h
    cases h with
    | tlvs h => exact .of_perm (h.flatMap_right _)
    | entries h =>
      rw [reachEntries_around, reachEntries_around]
      exact (SeenAlike.of_perm h).around _ _
    | @split pre post ns ns' nb =>
      rw [reachEntries_around, reachEntries_around, append_assoc ns (splitEntry nb)]
      have hinner := (seenAlike_split nb).around ns ns'
      exact hinner.around _ _

theorem Respelled.alike {db db' : LSDB} (h : Respelled db db') (id : LSPID) :
    Option.Rel LspEntry.Alike (db.lookup id) (db'.lookup id) := by
  have hrefl : ∀ o : Option LspEntry, Option.Rel LspEntry.Alike o o := by
    intro o
    cases o with
    | none => exact .none
    | some e => exact .some ⟨fun _ => rfl, fun _ => rfl, fun _ _ _ => Iff.rfl⟩
  cases h with
  | fragments h =>
    rw [AList.perm_lookup h]
    exact hrefl _
  | @fragment id' e tlvs he h =>
    rw [Map.lookup_insert_ite]
    split
    · rename_i heq
      rw [heq, he]
      exact .some h.alike
    · exact hrefl _

theorem Respelled.seenAlike {db db' : LSDB} (h : Respelled db db') (nid : NodeID) (now : Int) :
    SeenAlike (reachEntries (nodeTLVs db nid now)) (reachEntries (nodeTLVs db' nid now)) := by
  intro aff nid' x
  have hmem : ∀ d : LSDB, x ∈ (reachEntries (nodeTLVs d nid now)).map (sight aff nid') ↔
      ∃ id : LSPID, id.nodeID = nid ∧ ∃ e, d.lookup id = some e ∧ e.live now = true ∧
        x ∈ (reachEntries e.lsp.tlvs).map (sight aff nid') := by
    intro d
    simp only [mem_map, mem_reachEntries_nodeTLVs]
    grind
  rw [hmem, hmem]
  refine exists_congr fun id => and_congr_right fun _ => ?_
  have halike := h.alike id
  generalize db.lookup id = a at halike ⊢
  generalize db'.lookup id = b at halike ⊢
  cases halike with
  | none => exact Iff.rfl
  | some h => simp only [Option.some.injEq, exists_eq_left', h.live, h.seen aff nid' x]

/-- The server with another database at the level. -/
def IsisServer.withDB (s : IsisServer) (level : Level) (db : LSDB) : IsisServer :=
  { s with dbs := fun l => if l = level then some db else s.dbs l }

/-- **Splitting an adjacency does not change what a Flexible Algorithm prunes.** Every entry
`appendISReach` makes has the verdict of the whole; and whatever the order of fragments and entries,
and with any entry split, the graph has the same nodes with the same links, after the cross-entry
step and after the adjacency check. -/
theorem split_keeps_pruning :
    (∀ (aff : FlexAlgoAffinity) (id : NodeID) (metric : UInt32) (attrs subs : List SubTLV),
      (∀ sub ∈ subs, isLinkAttr sub = false) → ∀ nb ∈ appendISReach id metric attrs subs,
        aff.prunesLink nb.subTLVs = aff.prunesLink (attrs ++ subs)) ∧
    ∀ (s : IsisServer) (level : Level) (db db' : LSDB), s.dbs level = some db → Respelled db db' →
      ∀ (algo : UInt8) (aff : FlexAlgoAffinity) (now : Int) (nid : NodeID),
        links (nodeEdges aff nid (nodeTLVs db' nid now)) =
        links (nodeEdges aff nid (nodeTLVs db nid now)) ∧
        (((s.withDB level db').buildTopology level algo aff now).lookup nid).map (fun n =>
          links n.edges) =
          ((s.buildTopology level algo aff now).lookup nid).map fun n => links n.edges := by
  refine ⟨fun aff id metric attrs subs hsubs nb => prunesLink_appendISReach aff hsubs,
    fun s level db db' hdb h algo aff now nid => ?_⟩
  have hseen := h.seenAlike nid now
  refine ⟨?_, ?_⟩
  · ext x
    simp only [links, mem_toFinset, mem_map, mem_nodeEdges, hseen aff nid]
  have hdb' : (s.withDB level db').dbs level = some db' := if_pos rfl
  rw [lookup_buildTopology_eq hdb, lookup_buildTopology_eq hdb']
  have halike := h.alike ⟨nid, 0⟩
  generalize db.lookup ⟨nid, 0⟩ = a at halike ⊢
  generalize db'.lookup ⟨nid, 0⟩ = b at halike ⊢
  cases halike with
  | none => rfl
  | @some e e' h' =>
    have hadmitted : admitted algo now ⟨nid, 0⟩ e' = admitted algo now ⟨nid, 0⟩ e := by
      unfold admitted
      rw [h'.live, h'.participates]
    have hlinks : links ((s.withDB level db').topologyNode db' level algo aff now nid e').edges =
        links (s.topologyNode db level algo aff now nid e).edges := by
      unfold topologyNode
      show links (if nid.systemID = s.systemID then
        (nodeEdges aff nid (nodeTLVs db' nid now)).filter
        (fun x => s.edgeHasAdjacency level x.dst) else _) = _
      ext x
      split <;> simp only [links, mem_toFinset, mem_map, mem_filter, mem_nodeEdges, hseen aff nid]
    rw [Option.filter_some, Option.filter_some, hadmitted]
    split
    · exact congrArg some hlinks
    · rfl

/-- An entry whose sub-TLVs need two entries. -/
def wideEntry : ISReachEntry :=
  ⟨⟨octets6 0 0 0 0 0 2, 0⟩, 10, [.asla ⟨true, [0x10], [], []⟩, .adminGroup ⟨false, [1]⟩,
    .unknown ⟨200, replicate 200 0, false⟩, .unknown ⟨200, replicate 200 0, false⟩]⟩

/-- A node that announces it. -/
def wideDB : LSDB :=
  announcedDB .level1 0 [(⟨octets6 0 0 0 0 0 1, 0⟩, [.extendedISReachability [wideEntry]])]

theorem split_keeps_pruning_wide : (splitEntry wideEntry).length = 2 ∧
    (∀ nb ∈ splitEntry wideEntry, FlexAlgoAffinity.prunesLink ⟨[1], [], []⟩ nb.subTLVs =
      (true, true)) ∧
    ∃ db', Respelled wideDB db' ∧ ∀ aff nid,
      links (nodeEdges aff nid (nodeTLVs db' nid 0)) =
      links (nodeEdges aff nid (nodeTLVs wideDB nid 0)) := by
  obtain ⟨hverdict, hgraph⟩ := split_keeps_pruning
  have hlookup : wideDB.lookup ⟨⟨octets6 0 0 0 0 0 1, 0⟩, 0⟩ = some (announcement .level1 0
      ⟨octets6 0 0 0 0 0 1, 0⟩ [.extendedISReachability [wideEntry]]) := rfl
  have hsplit : Respelled wideDB (wideDB.insert _ _) :=
    .fragment hlookup (@Rewritten.split [] [] [] [] wideEntry)
  refine ⟨by decide +kernel, fun nb hnb => ?_, _, hsplit, fun aff nid => ?_⟩
  · exact (hverdict _ _ _ _ _ (by decide +kernel) nb hnb).trans (by decide +kernel)
  · exact (hgraph (levelOneServer (octets6 0 0 0 0 0 1) [] wideDB) .level1 wideDB _ rfl hsplit 0 aff
      0 nid).1

end Links

end Goisis.Server
