import Goisis.Server.Spf

/-!
# The routes of a shortest-path computation

What `computeSPF` returns, in terms of paths through the graph of `buildTopology` and of the
prefixes its nodes advertise, for every order the tentative set and the map ranges may take.

* `spf_shortest_routes` — the visited nodes are those an admissible path below `maxPathMetric`
  reaches, at the least cost of such a path, and a prefix has a route exactly when a visited node
  offers one, at the least metric of the best preference class;
* `bestOf_addRoute` — folding `addRoute` keeps the best of the routes seen, in any order;
* `bestOf_computeSPF` — the same for the whole computation, with the first hops.
-/

namespace Goisis.Server

open Lib Packet IsisServer List Route

variable {nodes : Topology} {p : Prefix} {r : Route}

/-! ## Admissible paths -/

/-- A path from self, by the nodes it enters, with its last node and cost. Every edge leads to a
node of the graph that has an edge back, and leaves self or a node that is not overloaded. -/
inductive AdmissiblePath (nodes : Topology) (self : NodeID) : List NodeID → NodeID → ℕ → Prop where
  | start {node : SpfNode} (h : nodes.lookup self = some node) : AdmissiblePath nodes self [] self 0
  | extend {p : List NodeID} {a : NodeID} {c : ℕ} {node nb : SpfNode} {e : SpfEdge}
      (h : AdmissiblePath nodes self p a c) (ha : nodes.lookup a = some node)
      (hover : a = self ∨ node.overload = false) (he : e ∈ node.edges)
      (hb : nodes.lookup e.dst = some nb) (hback : ∃ e' ∈ nb.edges, e'.dst = a) :
      AdmissiblePath nodes self (p ++ [e.dst]) e.dst (c + e.metric.toNat)

theorem twoWay_iff {a b : NodeID} : twoWay nodes a b = true ↔
    ∃ nb, nodes.lookup b = some nb ∧ ∃ e ∈ nb.edges, e.dst = a := by
  unfold twoWay
  cases nodes.lookup b with
  | none => simp
  | some nb => simp

/-- Admissible paths are the walks of the search. -/
theorem admissiblePath_iff {self n : NodeID} {p : List NodeID} {c : ℕ} {node : SpfNode}
    (hself : nodes.lookup self = some node) :
    AdmissiblePath nodes self p n c ↔ (spfSearch nodes self).Walk p n c := by
  constructor
  · intro h
    induction h with
    | start _ => exact .nil
    | extend _ ha hover he hb hback ih =>
      exact ih.snoc (mem_spfSucc.mpr ⟨_, ha, hover, _, he, rfl, rfl, twoWay_iff.mpr ⟨_, hb, hback⟩⟩)
  · intro h
    induction h with
    | nil => exact .start hself
    | snoc _ he ih =>
      obtain ⟨nodeA, ha, hover, e, hmem, rfl, rfl, htwo⟩ := mem_spfSucc.mp he
      obtain ⟨nb, hb, hback⟩ := twoWay_iff.mp htwo
      exact ih.extend ha hover hmem hb hback

theorem AdmissiblePath.self_mem {self n : NodeID} {p : List NodeID} {c : ℕ}
    (h : AdmissiblePath nodes self p n c) : ∃ node, nodes.lookup self = some node := by
  induction h with
  | start h => exact ⟨_, h⟩
  | extend _ _ _ _ _ _ ih => exact ih

/-! ## Merging routes -/

/-- Preference class before metric. -/
def rank (cls : UInt8) (metric : ℕ) : ℕ := cls.toNat * 2 ^ 32 + metric

/-- What `addRoute` compares and merges. -/
def Route.entry (r : Route) : ℕ × Finset SystemID :=
  (rank (preferenceClass r) r.metric.toNat, r.nextHops.toFinset)

theorem toFinset_mergeHops (a b : List SystemID) :
    (mergeHops a b).toFinset = a.toFinset ∪ b.toFinset := by
  ext x
  simp [mem_mergeHops]

theorem rank_le_iff {k k' : UInt8} {m m' : ℕ} (hm : m < 2 ^ 32) (hm' : m' < 2 ^ 32) :
    rank k m ≤ rank k' m' ↔ k < k' ∨ k = k' ∧ m ≤ m' := by
  rw [UInt8.lt_iff_toNat_lt, ← UInt8.toNat_inj]
  unfold rank
  omega

theorem rank_eq_iff {k k' : UInt8} {m m' : ℕ} (hm : m < 2 ^ 32) (hm' : m' < 2 ^ 32) :
    rank k m = rank k' m' ↔ k = k' ∧ m = m' := by
  rw [← UInt8.toNat_inj]
  unfold rank
  omega

theorem Route.entry_lt_iff {r c : Route} : r.entry.1 < c.entry.1 ↔
    preferenceClass r < preferenceClass c ∨
      preferenceClass r = preferenceClass c ∧ r.metric < c.metric := by
  rw [← Nat.not_le, entry, entry, rank_le_iff c.metric.toNat_lt r.metric.toNat_lt,
    UInt8.lt_iff_toNat_lt, UInt8.lt_iff_toNat_lt, UInt32.lt_iff_toNat_lt, ← UInt8.toNat_inj,
    ← UInt8.toNat_inj]
  omega

theorem Route.entry_eq_iff {r c : Route} : r.entry.1 = c.entry.1 ↔
    preferenceClass r = preferenceClass c ∧ r.metric = c.metric := by
  rw [entry, entry, rank_eq_iff r.metric.toNat_lt c.metric.toNat_lt, UInt32.toNat_inj]

/-- Keeping the better route is relaxing its entry. -/
theorem entry_mergeRoute (cur r : Route) :
    some (mergeRoute cur r).entry = relaxEntry (some cur.entry) r.entry.1 r.entry.2 := by
  unfold mergeRoute
  rcases Nat.lt_trichotomy r.entry.1 cur.entry.1 with hlt | heq | hgt
  · rw [relaxEntry_of_lt hlt]
    rcases entry_lt_iff.mp hlt with hcls | ⟨hcls, hmetric⟩
    · have hne : preferenceClass r ≠ preferenceClass cur := UInt8.ne_of_lt hcls
      simp only [if_pos hne, if_pos hcls]
      rfl
    · simp only [ne_eq, hcls, not_true, if_false, if_pos hmetric]
      rfl
  · obtain ⟨hcls, hmetric⟩ := entry_eq_iff.mp heq
    rw [heq, relaxEntry_self]
    have hirr : ¬ r.metric < cur.metric := by
      rw [hmetric]
      exact UInt32.lt_irrefl _
    simp only [ne_eq, hcls, not_true, if_false, if_neg hirr, if_pos hmetric]
    simp only [entry, toFinset_mergeHops]
    rfl
  · rw [relaxEntry_of_gt hgt]
    rcases entry_lt_iff.mp hgt with hcls | ⟨hcls, hmetric⟩
    · have hne : preferenceClass r ≠ preferenceClass cur := (UInt8.ne_of_lt hcls).symm
      simp only [if_pos hne, if_neg (UInt8.lt_asymm hcls)]
      rfl
    · have hne : ¬ r.metric = cur.metric := fun h => UInt32.ne_of_lt hmetric h.symm
      simp only [ne_eq, hcls, not_true, if_false, if_neg (UInt32.lt_asymm hmetric), if_neg hne]
      rfl

theorem lookup_addRoute (routes : Map Prefix Route) (p q : Prefix) (r : Route) :
    (addRoute routes p r).lookup q =
      if q = p then some (((routes.lookup p).map (mergeRoute · r)).getD r) else
      routes.lookup q := by
  unfold addRoute
  cases routes.lookup p with
  | none => exact Map.lookup_insert_ite _ _ _ _
  | some cur => exact Map.lookup_insert_ite _ _ _ _

/-- **`addRoute` is one relaxation** of the entry of its prefix. -/
theorem entry_addRoute (routes : Map Prefix Route) (p q : Prefix) (r : Route) :
    ((addRoute routes p r).lookup q).map entry =
      if q = p then relaxEntry ((routes.lookup p).map entry) r.entry.1 r.entry.2
      else (routes.lookup q).map entry := by
  rw [lookup_addRoute]
  split
  · cases routes.lookup p with
    | none => rfl
    | some cur => exact entry_mergeRoute cur r
  · rfl

/-- **Routes merge in any order**: after a fold the entry of a prefix is the best of the routes
added for it. -/
theorem bestOf_addRoute (l : List (Prefix × Route)) (p : Prefix) :
    BestOf { o | ∃ r, (p, r) ∈ l ∧ o = r.entry }
      (((l.foldl (fun routes c => addRoute routes c.1 c.2) ∅).lookup p).map entry) := by
  induction l using reverseRecOn with
  | nil =>
    show { o | ∃ r, (p, r) ∈ [] ∧ o = entry r } = ∅
    ext o
    simp
  | append_singleton l c ih =>
    rw [foldl_concat, entry_addRoute]
    split
    · rename_i hp
      subst hp
      convert ih.relax c.2.entry.1 c.2.entry.2 using 1
      ext o
      simp only [mem_append, mem_singleton, Set.mem_ofPred_eq, Set.mem_insert_iff]
      constructor
      · rintro ⟨r, hr | hr, rfl⟩
        · exact .inr ⟨r, hr, rfl⟩
        · rw [← hr]
          exact .inl rfl
      · rintro (rfl | ⟨r, hr, rfl⟩)
        · exact ⟨c.2, .inr rfl, rfl⟩
        · exact ⟨r, .inl hr, rfl⟩
    · rename_i hp
      convert ih using 1
      ext o
      simp only [mem_append, mem_singleton, Set.mem_ofPred_eq]
      constructor
      · rintro ⟨r, hr | hr, rfl⟩
        · exact ⟨r, hr, rfl⟩
        · rw [← hr] at hp
          exact absurd rfl hp
      · rintro ⟨r, hr, rfl⟩
        exact ⟨r, .inl hr, rfl⟩

/-- What every added route has and a merge keeps, every route has. -/
theorem forall_of_addRoute {I : Route → Prop} (hmerge : ∀ cur r, I cur → I r → I (mergeRoute cur r))
    {l : List (Prefix × Route)} (hl : ∀ c ∈ l, I c.2)
    (h : (l.foldl (fun routes c => addRoute routes c.1 c.2) ∅).lookup p = some r) : I r := by
  induction l using reverseRecOn generalizing p r with
  | nil => cases h
  | append_singleton l c ih =>
    have hprev {q : Prefix} {r : Route}
        (hq : (l.foldl (fun routes c => addRoute routes c.1 c.2) ∅).lookup q = some r) : I r :=
      ih (fun x hx => hl x (mem_append_left _ hx)) hq
    have hlast : I c.2 := hl c (mem_append_right _ mem_cons_self)
    rw [foldl_concat, lookup_addRoute] at h
    split at h
    · obtain rfl := Option.some.inj h
      cases hcur : (l.foldl (fun routes c => addRoute routes c.1 c.2) ∅).lookup c.1 with
      | none => exact hlast
      | some cur => exact hmerge cur c.2 (hprev hcur) hlast
    · exact hprev h

/-! ## What the visited nodes offer -/

/-- The preference class of an advertisement. -/
def offerClass (level : Level) (down : Bool) : UInt8 :=
  preferenceClass ⟨0, level, 0, down, false, []⟩

/-- The distances and first hops of the attached systems among the visited nodes. -/
def attachedExits (nodes : Topology) (visits : List SpfVisit) : Set (ℕ × Finset SystemID) :=
  { x | ∃ v ∈ visits, isAttachedExit nodes v = true ∧ x = (v.dist, v.label) }

/-- What counts for the route to `p`: its preference class, total metric and first hops. -/
inductive IsisServer.Offered (s : IsisServer) (o : SpfOrder) (level : Level) (algo : UInt8)
    (aff : FlexAlgoAffinity) (now : Int) (p : Prefix) : UInt8 → ℕ → Finset SystemID → Prop where
  /-- A visited node other than self that has a first hop advertises `p` below the ceiling. -/
  | advertised {v : SpfVisit} {node : SpfNode} {q : SpfPrefix}
      (hv : v ∈ s.spfDone o level algo aff now) (hself : v.id ≠ realNode s.systemID)
      (hnode : (s.buildTopology level algo aff now).lookup v.id = some node)
      (hlabel : v.label ≠ ∅) (hq : q ∈ node.prefixes) (hp : q.pfx = p)
      (hlt : v.dist + q.metric.toNat < maxPathMetric) :
      Offered s o level algo aff now p (offerClass level q.down) (v.dist + q.metric.toNat) v.label
  /-- The Level-1-only default towards the nearest attached systems. -/
  | attachedDefault {d : ℕ} {l : Finset SystemID} (huse : s.usesAttachedDefault level algo = true)
      (hp : p = defaultV4 ∨ p = defaultV6)
      (hbest : IsBest (attachedExits (s.buildTopology level algo aff now)
        (s.spfDone o level algo aff now)) d l) :
      Offered s o level algo aff now p (offerClass .level1 true) d l

/-- The offers for `p` as `addRoute` compares them. -/
def IsisServer.offerEntries (s : IsisServer) (o : SpfOrder) (level : Level) (algo : UInt8)
    (aff : FlexAlgoAffinity) (now : Int) (p : Prefix) : Set (ℕ × Finset SystemID) :=
  { x | ∃ cls m l, s.Offered o level algo aff now p cls m l ∧ x = (rank cls m, l) }

theorem toFinset_sortedHops (h : Finset SystemID) : (sortedHops h).toFinset = h := by
  ext x
  rw [mem_toFinset, mem_sortedHops]

theorem bestOf_nearestAttached (nodes : Topology) (visits : List SpfVisit) :
    BestOf (attachedExits nodes visits) (nearestAttached nodes visits) := by
  unfold nearestAttached
  induction visits using reverseRecOn with
  | nil =>
    show attachedExits nodes [] = ∅
    ext x
    simp [attachedExits]
  | append_singleton visits v ih =>
    have hset : attachedExits nodes (visits ++ [v]) =
        if isAttachedExit nodes v then insert (v.dist, v.label) (attachedExits nodes visits)
        else attachedExits nodes visits := by
      ext x
      split
      · rename_i hexit
        constructor
        · rintro ⟨u, hu, huexit, rfl⟩
          rcases mem_append.mp hu with hu | hu
          · exact .inr ⟨u, hu, huexit, rfl⟩
          · rw [mem_singleton.mp hu]
            exact .inl rfl
        · rintro (rfl | ⟨u, hu, huexit, rfl⟩)
          · exact ⟨v, by simp, hexit, rfl⟩
          · exact ⟨u, by simp [hu], huexit, rfl⟩
      · rename_i hexit
        constructor
        · rintro ⟨u, hu, huexit, rfl⟩
          rcases mem_append.mp hu with hu | hu
          · exact ⟨u, hu, huexit, rfl⟩
          · rw [mem_singleton.mp hu] at huexit
            exact absurd huexit hexit
        · rintro ⟨u, hu, huexit, rfl⟩
          exact ⟨u, by simp [hu], huexit, rfl⟩
    rw [foldl_concat, hset]
    generalize foldl _ none visits = best at ih ⊢
    split
    · cases best with
      | none => exact ih.relax v.dist v.label
      | some best => exact ih.relax v.dist v.label
    · exact ih

theorem attachedExits_perm {l l' : List SpfVisit} (h : l.Perm l') :
    attachedExits nodes l = attachedExits nodes l' := by
  ext x
  simp only [attachedExits, h.mem_iff]

/-- The routes `addAttachedDefault` adds. -/
def attachedRoutes (nodes : Topology) (visits : List SpfVisit) : List (Prefix × Route) :=
  match nearestAttached nodes visits with
  | none => []
  | some (best, nh) => [defaultV4, defaultV6].map fun p =>
      (p, ⟨UInt32.ofNat best, .level1, 0, true, false, sortedHops nh⟩)

theorem mem_nodeRoutes {self : NodeID} {level : Level} {algo : UInt8} {v : SpfVisit} :
    (p, r) ∈ nodeRoutes nodes self level algo v ↔
      v.id ≠ self ∧ v.label ≠ ∅ ∧ ∃ node, nodes.lookup v.id = some node ∧
        ∃ q ∈ node.prefixes, q.pfx = p ∧ v.dist + q.metric.toNat < maxPathMetric ∧
          r = ⟨UInt32.ofNat (v.dist + q.metric.toNat), level, algo, q.down, q.mt,
            sortedHops v.label⟩ := by
  unfold nodeRoutes
  by_cases hself : v.id = self
  · simp [hself]
  rw [if_neg hself]
  cases hnode : nodes.lookup v.id with
  | none => simp
  | some node =>
    simp only [length_eq_zero_iff, sortedHops_eq_nil]
    by_cases hlabel : v.label = ∅
    · simp [hlabel]
    rw [if_neg hlabel]
    constructor
    · intro hmem
      obtain ⟨q, hq, heq⟩ := mem_map.mp hmem
      obtain ⟨hq, hlt⟩ := mem_filter.mp hq
      obtain ⟨hp, hr⟩ := Prod.mk.inj heq
      exact ⟨hself, hlabel, node, rfl, q, hq, hp, by simpa using hlt, hr.symm⟩
    · rintro ⟨-, -, node', heq, q, hq, rfl, hlt, rfl⟩
      cases heq
      exact mem_map.mpr ⟨q, mem_filter.mpr ⟨hq, by simpa using hlt⟩, rfl⟩

theorem mem_attachedRoutes {visits : List SpfVisit} :
    (p, r) ∈ attachedRoutes nodes visits ↔ ∃ d l, IsBest (attachedExits nodes visits) d l ∧
      (p = defaultV4 ∨ p = defaultV6) ∧
      r = ⟨UInt32.ofNat d, .level1, 0, true, false, sortedHops l⟩ := by
  have hnear := bestOf_nearestAttached nodes visits
  unfold attachedRoutes
  cases hres : nearestAttached nodes visits with
  | none =>
    rw [hres] at hnear
    have hempty : attachedExits nodes visits = ∅ := hnear
    constructor
    · intro hmem
      cases hmem
    · rintro ⟨d, l, hbest, -⟩
      obtain ⟨m, hm⟩ := hbest.attained
      rw [hempty] at hm
      exact hm.elim
  | some best =>
    obtain ⟨d, nh⟩ := best
    rw [hres] at hnear
    constructor
    · intro hmem
      obtain ⟨q, hq, heq⟩ := mem_map.mp hmem
      obtain ⟨rfl, hr⟩ := Prod.mk.inj heq
      exact ⟨d, nh, hnear, by simpa using hq, hr.symm⟩
    · rintro ⟨d', l, hbest, hp, rfl⟩
      obtain ⟨rfl, rfl⟩ := hbest.unique hnear
      exact mem_map.mpr ⟨p, by simpa using hp, rfl⟩

/-- All routes `computeSPF` adds, in order. -/
def IsisServer.contributions (s : IsisServer) (o : SpfOrder) (level : Level) (algo : UInt8)
    (aff : FlexAlgoAffinity) (now : Int) : List (Prefix × Route) :=
  let nodes := s.buildTopology level algo aff now
  let done := s.spfDone o level algo aff now
  (o.rangeRoutes done).flatMap (nodeRoutes nodes (realNode s.systemID) level algo) ++
    if s.usesAttachedDefault level algo then attachedRoutes nodes (o.rangeAttached done) else []

section Routes

variable {s : IsisServer} {o : SpfOrder} {level : Level} {algo cls : UInt8} {aff : FlexAlgoAffinity}
  {now : Int} {p : Prefix} {r : Route} {m : ℕ} {l : Finset SystemID}

theorem computeSPF_eq {node : SpfNode}
    (hself : (s.buildTopology level algo aff now).lookup (realNode s.systemID) = some node) :
    s.computeSPF o level algo aff now =
      (s.contributions o level algo aff now).foldl (fun routes c => addRoute routes c.1 c.2) ∅ := by
  unfold computeSPF contributions
  simp only [hself, foldl_append]
  split
  · unfold addAttachedDefault attachedRoutes
    cases nearestAttached _ _ with
    | none => rfl
    | some best => rfl
  · rfl

theorem computeSPF_eq_empty
    (hself : (s.buildTopology level algo aff now).lookup (realNode s.systemID) = none) :
    s.computeSPF o level algo aff now = ∅ := by
  unfold computeSPF
  simp only [hself]

/-- Only a run with this system in its topology has routes. -/
theorem exists_self_of_lookup (h : (s.computeSPF o level algo aff now).lookup p = some r) :
    ∃ node, (s.buildTopology level algo aff now).lookup (realNode s.systemID) = some node := by
  refine Option.ne_none_iff_exists'.mp fun hself => ?_
  rw [computeSPF_eq_empty hself] at h
  cases h

theorem contributions_level_algo {c : Prefix × Route}
    (hc : c ∈ s.contributions o level algo aff now) : c.2.level = level ∧ c.2.algo = algo := by
  rcases mem_append.mp hc with hc | hc
  · obtain ⟨v, -, hc⟩ := mem_flatMap.mp hc
    obtain ⟨-, -, node, -, q, -, -, -, heq⟩ := mem_nodeRoutes.mp hc
    rw [heq]
    exact ⟨rfl, rfl⟩
  · split at hc
    · rename_i huse
      obtain ⟨d, l, -, -, heq⟩ := mem_attachedRoutes.mp hc
      rw [heq]
      obtain ⟨⟨hlevel, halgo⟩, -⟩ : (level = .level1 ∧ algo = 0) ∧ _ := by
        simpa [usesAttachedDefault] using huse
      exact ⟨hlevel.symm, halgo.symm⟩
    · cases hc

/-- A route belongs to the level and algorithm it was computed for. -/
theorem computeSPF_level_algo (h : (s.computeSPF o level algo aff now).lookup p = some r) :
    r.level = level ∧ r.algo = algo := by
  obtain ⟨node, hself⟩ := exists_self_of_lookup h
  rw [computeSPF_eq hself] at h
  refine forall_of_addRoute (I := fun r => r.level = level ∧ r.algo = algo)
    (fun cur r hcur hr => ?_) (fun c hc => contributions_level_algo hc) h
  unfold mergeRoute
  split
  · split
    · exact hr
    · exact hcur
  · split
    · exact hr
    · split
      · exact hcur
      · exact hcur

/-- **Where a first hop of a route comes from**: the first hops of a visited node that advertises
the prefix, or serves as an exit for the default. -/
theorem exists_visit_of_lookup (h : (s.computeSPF o level algo aff now).lookup p = some r) :
    (∃ c, (p, c) ∈ s.contributions o level algo aff now) ∧
      ∀ x ∈ r.nextHops, ∃ v ∈ s.spfDone o level algo aff now, x ∈ v.label := by
  obtain ⟨node, hself⟩ := exists_self_of_lookup h
  rw [computeSPF_eq hself] at h
  have hbest := bestOf_addRoute (s.contributions o level algo aff now) p
  rw [h] at hbest
  have hbest' : IsBest _ r.entry.1 r.entry.2 := hbest
  obtain ⟨_, c, hc, -⟩ := hbest'.attained
  refine ⟨⟨c, hc⟩, fun x hx => ?_⟩
  obtain ⟨_, ⟨c, hc, heq⟩, hx⟩ := (hbest'.label x).mp (mem_toFinset.mpr hx)
  obtain ⟨-, rfl⟩ := Prod.mk.inj heq
  rw [mem_toFinset] at hx
  rcases mem_append.mp hc with hc | hc
  · obtain ⟨v, hv, hc⟩ := mem_flatMap.mp hc
    obtain ⟨-, -, node, -, q, -, -, -, rfl⟩ := mem_nodeRoutes.mp hc
    exact ⟨v, (o.perm_routes _).mem_iff.mp hv, mem_sortedHops.mp hx⟩
  · split at hc
    · obtain ⟨d, l, hexits, -, rfl⟩ := mem_attachedRoutes.mp hc
      obtain ⟨m, ⟨v, hv, -, heq⟩, hx⟩ := (hexits.label x).mp (mem_sortedHops.mp hx)
      obtain ⟨-, rfl⟩ := Prod.mk.inj heq
      exact ⟨v, (o.perm_attached _).mem_iff.mp hv, hx⟩
    · cases hc

theorem spfDone_eq_nil
    (hself : (s.buildTopology level algo aff now).lookup (realNode s.systemID) = none) :
    s.spfDone o level algo aff now = [] := by
  unfold spfDone spfVisits
  rw [hself]

/-- Only such a run visits nodes. -/
theorem exists_self_of_mem {v : SpfVisit} (hv : v ∈ s.spfDone o level algo aff now) :
    ∃ node, (s.buildTopology level algo aff now).lookup (realNode s.systemID) = some node := by
  refine Option.ne_none_iff_exists'.mp fun hself => ?_
  rw [spfDone_eq_nil hself] at hv
  cases hv

section

variable (h : s.LinkMetricsBelow level (2 ^ 24))

include h

theorem metricsFit_buildTopology : MetricsFit (s.buildTopology level algo aff now) :=
  fun _ _ hnode _ he => metric_lt_of_mem_edges h hnode he

/-- A completed run, for every order of the tentative set. -/
theorem spfDone_run {node : SpfNode}
    (hself : (s.buildTopology level algo aff now).lookup (realNode s.systemID) = some node) :
    (spfSearch (s.buildTopology level algo aff now) (realNode s.systemID)).Run (fun _ _ => True)
        (s.spfDone o level algo aff now) ∧
      (spfSearch (s.buildTopology level algo aff now) (realNode s.systemID)).Complete
        (s.spfDone o level algo aff now) :=
  spfVisits_run o.queue.prefers_true (metricsFit_buildTopology h) hself

theorem dist_lt_of_mem_spfDone {v : SpfVisit} (hv : v ∈ s.spfDone o level algo aff now) :
    v.dist < maxPathMetric := by
  obtain ⟨node, hself⟩ := exists_self_of_mem hv
  exact ((spfDone_run h hself).1.walk maxPathMetric_pos hv).2

/-- A recorded distance is the least cost of an admissible path. -/
theorem admissible_of_mem_spfDone {v : SpfVisit} (hv : v ∈ s.spfDone o level algo aff now) :
    (∃ p, AdmissiblePath (s.buildTopology level algo aff now) (realNode s.systemID) p v.id v.dist) ∧
      ∀ p c, AdmissiblePath (s.buildTopology level algo aff now) (realNode s.systemID) p v.id c →
        v.dist ≤ c := by
  obtain ⟨node, hself⟩ := exists_self_of_mem hv
  obtain ⟨hrun, hcomplete⟩ := spfDone_run h hself
  have hdist := hrun.dist hcomplete maxPathMetric_pos hv
  refine ⟨?_, fun p c hp => hdist.least p c ((admissiblePath_iff hself).mp hp)⟩
  obtain ⟨p, hp⟩ := hdist.walk
  exact ⟨p, (admissiblePath_iff hself).mpr hp⟩

/-- A node within reach is visited. -/
theorem exists_visit_of_admissible {p : List NodeID} {n : NodeID} {c : ℕ}
    (hp : AdmissiblePath (s.buildTopology level algo aff now) (realNode s.systemID) p n c)
    (hlt : c < maxPathMetric) : ∃ v ∈ s.spfDone o level algo aff now, v.id = n := by
  obtain ⟨node, hself⟩ := hp.self_mem
  obtain ⟨hrun, hcomplete⟩ := spfDone_run h hself
  obtain ⟨v, hv, hid, -⟩ := hrun.settled_of_walk hcomplete ((admissiblePath_iff hself).mp hp) hlt
  exact ⟨v, hv, hid⟩

end

theorem toNat_ofNat_of_lt (h : m < maxPathMetric) : (UInt32.ofNat m).toNat = m := by
  refine UInt32.toNat_ofNat_of_lt' ?_
  unfold maxPathMetric at h
  show m < 2 ^ 32
  omega

theorem IsisServer.Offered.lt_maxPathMetric (h : s.LinkMetricsBelow level (2 ^ 24))
    (hoff : s.Offered o level algo aff now p cls m l) : m < maxPathMetric := by
  cases hoff with
  | advertised _ _ _ _ _ _ hlt => exact hlt
  | attachedDefault _ _ hbest =>
    obtain ⟨_, v, hv, -, hd⟩ := hbest.attained
    rw [(Prod.mk.inj hd).1]
    exact dist_lt_of_mem_spfDone h hv

theorem IsisServer.Offered.label_ne_empty (hoff : s.Offered o level algo aff now p cls m l) :
    l ≠ ∅ := by
  cases hoff with
  | advertised _ _ _ hlabel _ _ _ => exact hlabel
  | attachedDefault _ _ hbest =>
    obtain ⟨_, v, hv, hexit, heq⟩ := hbest.attained
    obtain ⟨x, hx⟩ : v.label.Nonempty := by
      unfold isAttachedExit at hexit
      split at hexit
      · cases hexit
      · refine Finset.card_pos.mp (Nat.pos_of_ne_zero ?_)
        simp only [Bool.and_eq_true, bne_iff_ne] at hexit
        exact hexit.2
    obtain ⟨hd, rfl⟩ := Prod.mk.inj heq
    exact Finset.ne_empty_of_mem ((hbest.label x).mpr ⟨_, ⟨v, hv, hexit, by rw [hd]⟩, hx⟩)

section

variable (h : s.LinkMetricsBelow level (2 ^ 24))

include h

/-- The routes added for `p` are the offers. -/
theorem entry_mem_contributions {x : ℕ × Finset SystemID} :
    (∃ r, (p, r) ∈ s.contributions o level algo aff now ∧ x = r.entry) ↔
      x ∈ s.offerEntries o level algo aff now p := by
  constructor
  · rintro ⟨r, hr, rfl⟩
    rcases mem_append.mp hr with hr | hr
    · obtain ⟨v, hv, hr⟩ := mem_flatMap.mp hr
      have hv' := (o.perm_routes _).mem_iff.mp hv
      obtain ⟨hself, hlabel, node, hnode, q, hq, hp, hlt, rfl⟩ := mem_nodeRoutes.mp hr
      refine ⟨_, _, _, .advertised hv' hself hnode hlabel hq hp hlt, ?_⟩
      simp only [entry, toFinset_sortedHops, toNat_ofNat_of_lt hlt]
      rfl
    · split at hr
      · rename_i huse
        obtain ⟨d, l, hbest, hp, rfl⟩ := mem_attachedRoutes.mp hr
        rw [attachedExits_perm (o.perm_attached _)] at hbest
        have hoff : s.Offered o level algo aff now p _ d l := .attachedDefault huse hp hbest
        refine ⟨_, _, _, hoff, ?_⟩
        simp only [entry, toFinset_sortedHops, toNat_ofNat_of_lt (hoff.lt_maxPathMetric h)]
        rfl
      · cases hr
  · rintro ⟨cls, d, l, hoff, rfl⟩
    have hlt := hoff.lt_maxPathMetric h
    cases hoff with
    | @advertised v node q hv hself hnode hlabel hq hp _ =>
      refine ⟨_, mem_append_left _ (mem_flatMap.mpr ⟨v, (o.perm_routes _).mem_iff.mpr hv,
        mem_nodeRoutes.mpr ⟨hself, hlabel, node, hnode, q, hq, hp, hlt, rfl⟩⟩), ?_⟩
      simp only [entry, toFinset_sortedHops, toNat_ofNat_of_lt hlt]
      rfl
    | attachedDefault huse hp hbest =>
      have hbest' := hbest
      rw [← attachedExits_perm (o.perm_attached _)] at hbest'
      refine ⟨⟨UInt32.ofNat d, .level1, 0, true, false, sortedHops l⟩, mem_append_right _ ?_, ?_⟩
      · rw [if_pos huse]
        exact mem_attachedRoutes.mpr ⟨d, l, hbest', hp, rfl⟩
      · simp only [entry, toFinset_sortedHops, toNat_ofNat_of_lt hlt]
        rfl

/-- **The computed route to a prefix is the best offer**, with the first hops of all equals. -/
theorem bestOf_computeSPF (p : Prefix) :
    BestOf (s.offerEntries o level algo aff now p)
      (((s.computeSPF o level algo aff now).lookup p).map entry) := by
  have hset : s.offerEntries o level algo aff now p =
      { x | ∃ r, (p, r) ∈ s.contributions o level algo aff now ∧ x = r.entry } := by
    ext x
    exact (entry_mem_contributions h).symm
  rw [hset]
  cases hself : (s.buildTopology level algo aff now).lookup (realNode s.systemID) with
  | some node =>
    rw [computeSPF_eq hself]
    exact bestOf_addRoute _ p
  | none =>
    rw [computeSPF_eq_empty hself, ← hset]
    refine Set.eq_empty_of_forall_notMem ?_
    rintro x ⟨cls, m, l, hoff, -⟩
    cases hoff with
    | advertised hv =>
      rw [spfDone_eq_nil hself] at hv
      cases hv
    | attachedDefault _ _ hbest =>
      obtain ⟨_, v, hv, -⟩ := hbest.attained
      rw [spfDone_eq_nil hself] at hv
      cases hv

theorem not_offered_of_lookup_none (hp : (s.computeSPF o level algo aff now).lookup p = none) :
    ¬ s.Offered o level algo aff now p cls m l := by
  intro hoff
  have hbest := @bestOf_computeSPF s o level algo aff now h p
  rw [hp] at hbest
  have hempty : s.offerEntries o level algo aff now p = ∅ := hbest
  exact Set.eq_empty_iff_forall_notMem.mp hempty (rank cls m, l) ⟨cls, m, l, hoff, rfl⟩

theorem isBest_of_lookup_some (hp : (s.computeSPF o level algo aff now).lookup p = some r) :
    IsBest (s.offerEntries o level algo aff now p) r.entry.1 r.entry.2 := by
  have hbest := @bestOf_computeSPF s o level algo aff now h p
  rw [hp] at hbest
  exact hbest

/-- A route has a first hop. -/
theorem exists_mem_nextHops (hp : (s.computeSPF o level algo aff now).lookup p = some r) :
    ∃ x, x ∈ r.nextHops := by
  have hbest := isBest_of_lookup_some h hp
  obtain ⟨l, hl⟩ := hbest.attained
  obtain ⟨cls, m, l', hoff, heq⟩ := hl
  obtain ⟨hrank, rfl⟩ := Prod.mk.inj heq
  obtain ⟨x, hx⟩ := Finset.nonempty_iff_ne_empty.mpr hoff.label_ne_empty
  exact ⟨x, mem_toFinset.mp ((hbest.label x).mpr ⟨_, ⟨cls, m, l, hoff, by rw [hrank]⟩, hx⟩)⟩

end

/-! ## Correctness -/

/-- What a computation at a level is to find, whatever the order of its ranges and ties. -/
structure IsisServer.ShortestRoutes (s : IsisServer) (o : SpfOrder) (level : Level) (algo : UInt8)
    (aff : FlexAlgoAffinity) (now : Int) : Prop where
  /-- The visited nodes are those an admissible path below the ceiling reaches. -/
  visited : ∀ n, (∃ v ∈ s.spfDone o level algo aff now, v.id = n) ↔
    ∃ p c, AdmissiblePath (s.buildTopology level algo aff now) (realNode s.systemID) p n c ∧
      c < maxPathMetric
  /-- The recorded distance is the least cost of such a path. -/
  dist : ∀ v ∈ s.spfDone o level algo aff now,
    (∃ p, AdmissiblePath (s.buildTopology level algo aff now) (realNode s.systemID) p v.id v.dist) ∧
      ∀ p c, AdmissiblePath (s.buildTopology level algo aff now) (realNode s.systemID) p v.id c →
        v.dist ≤ c
  /-- No sum of a distance and a link metric leaves 32 bits. -/
  noWrap : ∀ v ∈ s.spfDone o level algo aff now, ∀ node,
    (s.buildTopology level algo aff now).lookup v.id = some node → ∀ e ∈ node.edges,
      v.dist + e.metric.toNat < 2 ^ 32
  /-- A prefix has a route exactly when something offers one. -/
  routed : ∀ p, (∃ r, (s.computeSPF o level algo aff now).lookup p = some r) ↔
    ∃ cls m l, s.Offered o level algo aff now p cls m l
  /-- The route is an offer of the best class present, and the least metric among those. -/
  metric : ∀ p r, (s.computeSPF o level algo aff now).lookup p = some r →
    (∃ l, s.Offered o level algo aff now p (preferenceClass r) r.metric.toNat l) ∧
      ∀ cls m l, s.Offered o level algo aff now p cls m l → preferenceClass r ≤ cls ∧
        (cls = preferenceClass r → r.metric.toNat ≤ m)

/-- **Shortest paths and best routes.** With link metrics below `2 ^ 24`, `computeSPF` visits
exactly the nodes within reach, at their least distance and without wrapping a sum, and routes each
prefix at the least metric of the best preference class on offer. -/
theorem spf_shortest_routes (h : s.LinkMetricsBelow level (2 ^ 24)) (o : SpfOrder) (algo : UInt8)
    (aff : FlexAlgoAffinity) (now : Int) : s.ShortestRoutes o level algo aff now where
  visited n := by
    constructor
    · rintro ⟨v, hv, rfl⟩
      obtain ⟨⟨p, hp⟩, -⟩ := admissible_of_mem_spfDone h hv
      exact ⟨p, v.dist, hp, dist_lt_of_mem_spfDone h hv⟩
    · rintro ⟨p, c, hp, hlt⟩
      exact exists_visit_of_admissible h hp hlt
  dist v hv := admissible_of_mem_spfDone h hv
  noWrap v hv node hnode e he := by
    have hd := dist_lt_of_mem_spfDone h hv
    have hm := metric_lt_of_mem_edges h hnode he
    unfold maxPathMetric at hd
    omega
  routed p := by
    cases hlookup : (s.computeSPF o level algo aff now).lookup p with
    | none =>
      constructor
      · rintro ⟨r, hr⟩
        cases hr
      · rintro ⟨cls, m, l, hoff⟩
        exact absurd hoff (not_offered_of_lookup_none h hlookup)
    | some r =>
      obtain ⟨_, cls, m, l, hoff, -⟩ := (isBest_of_lookup_some h hlookup).attained
      exact ⟨fun _ => ⟨cls, m, l, hoff⟩, fun _ => ⟨r, rfl⟩⟩
  metric p r hr := by
    have hbest := isBest_of_lookup_some h hr
    have hmax : maxPathMetric < 2 ^ 32 := by decide
    constructor
    · obtain ⟨_, cls, m, l, hoff, heq⟩ := hbest.attained
      have hm := Nat.lt_trans (hoff.lt_maxPathMetric h) hmax
      obtain ⟨rfl, rfl⟩ := (rank_eq_iff r.metric.toNat_lt hm).mp (Prod.mk.inj heq).1
      exact ⟨l, hoff⟩
    · intro cls m l hoff
      have hm := Nat.lt_trans (hoff.lt_maxPathMetric h) hmax
      rcases (rank_le_iff r.metric.toNat_lt hm).mp (hbest.least _ _ ⟨cls, m, l, hoff, rfl⟩) with
        hcls | ⟨hcls, hle⟩
      · exact ⟨UInt8.le_of_lt hcls, fun heq => absurd heq.symm (UInt8.ne_of_lt hcls)⟩
      · exact ⟨UInt8.le_of_eq hcls, fun _ => hle⟩

end Routes

/-! ## Two routers on a link -/

def router (n : UInt8) : SystemID := octets6 0 0 0 0 0 n

/-- A point-to-point circuit of Level 1 with an adjacency that is up. -/
def p2pLink (name : String) (metric : UInt32) (neighbor : SystemID) : Circuit :=
  { newCircuit (ethernet name true metric) 1 1 with
    p2pAdj := some { systemID := neighbor, snpa := Octets.zero 6, state := .up,
                     levels := ⟨true, false⟩ } }

/-- `192.0.2.0/24`. -/
def testNet : Prefix := ⟨.v4 (octets4 192 0 2 0), 24⟩

/-- Router 1 next to router 2, which advertises a prefix. -/
def pairServer : IsisServer :=
  levelOneServer (router 1) [p2pLink "eth0" 10 (router 2)] (announcedDB .level1 0
    [(realNode (router 1), [.extendedISReachability [⟨realNode (router 2), 10, []⟩]]),
     (realNode (router 2), [.extendedISReachability [⟨realNode (router 1), 10, []⟩],
       .extendedIPReachability [⟨5, false, false, testNet, []⟩]])])

/-- Router 1 visits router 2 at distance 10 and routes its prefix at metric 15. -/
theorem spf_shortest_routes_pair :
    pairServer.LinkMetricsBelow .level1 (2 ^ 24) ∧
      pairServer.ShortestRoutes (.scan fun _ _ => true) .level1 0 {} 0 ∧
      (pairServer.spfDone (.scan fun _ _ => true) .level1 0 {} 0).map (fun v => (v.id, v.dist)) =
        [(realNode (router 2), 10), (realNode (router 1), 0)] ∧
      ((pairServer.computeSPF (.scan fun _ _ => true) .level1 0 {} 0).lookup testNet).map
      (·.metric) = some 15 :=
  have hbelow : pairServer.LinkMetricsBelow .level1 (2 ^ 24) :=
    linkMetricsBelow_of_entries rfl (by decide)
  ⟨hbelow, spf_shortest_routes hbelow (.scan fun _ _ => true) 0 {} 0, by decide, by decide⟩

end Goisis.Server
