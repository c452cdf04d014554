import Goisis.Server.InterLevel

/-!
# Computations over the same links

Which nodes `computeSPF` visits, at which distance and with which first hops, is decided by the
edges and overload bits of the graph alone: two graphs that agree on those are walked alike in every
order of the tentative set. What then differs is only the prefixes the visited nodes contribute, and
of those the fold of `addRoute` keeps, for the exchange between the levels, three things: whether
some contribution is intra-area, the least metric of those, and whether some contribution is not MT
#2.

* `spfVisits_sameLinks` — the same visits over the same links;
* `lookup_exported` — the exported metric of a prefix in terms of the contributions.
-/

namespace Goisis.Server

open Lib Packet List Option IsisServer

variable {p : Prefix} {r : Route} {m : UInt32} {level : Level}

/-! ## The walk -/

/-- What the loop reads of a node. -/
def SpfNode.links (n : SpfNode) : List SpfEdge × Bool := (n.edges, n.overload)

/-- The same nodes with the same edges and overload bits. -/
def SameLinks (nodes nodes' : Topology) : Prop :=
  ∀ id, (nodes.lookup id).map SpfNode.links = (nodes'.lookup id).map SpfNode.links

section Walk

variable {nodes nodes' : Topology} {Q : TentQueue}

theorem SameLinks.cases (h : SameLinks nodes nodes') (id : NodeID) :
    (nodes.lookup id = none ∧ nodes'.lookup id = none) ∨
      ∃ n n', nodes.lookup id = some n ∧ nodes'.lookup id = some n' ∧ n.edges = n'.edges ∧
        n.overload = n'.overload := by
  have hid := h id
  cases hn : nodes.lookup id with
  | none =>
    rw [hn, map_none, eq_comm, map_eq_none_iff] at hid
    exact .inl ⟨rfl, hid⟩
  | some n =>
    rw [hn, map_some, eq_comm, map_eq_some_iff] at hid
    obtain ⟨n', hn', heq⟩ := hid
    obtain ⟨hedges, hover⟩ := Prod.mk.inj heq
    exact .inr ⟨n, n', rfl, hn', hedges.symm, hover.symm⟩

variable (h : SameLinks nodes nodes')

include h

theorem SameLinks.twoWay_eq (a b : NodeID) : twoWay nodes a b = twoWay nodes' a b := by
  unfold twoWay
  rcases h.cases b with ⟨hn, hn'⟩ | ⟨n, n', hn, hn', hedges, -⟩
  · rw [hn, hn']
  · rw [hn, hn']
    simp only [hedges]

theorem SameLinks.relaxEdge_eq (done : List SpfVisit) (cur : SpfVisit) :
    relaxEdge Q nodes done cur = relaxEdge Q nodes' done cur := by
  funext tent e
  unfold relaxEdge
  rw [h.twoWay_eq]

theorem SameLinks.expandNode_eq (self : NodeID) (done : List SpfVisit) (cur : SpfVisit)
    (tent : Q.State) :
    expandNode Q nodes self done cur tent = expandNode Q nodes' self done cur tent := by
  unfold expandNode
  rcases h.cases cur.id with ⟨hn, hn'⟩ | ⟨n, n', hn, hn', hedges, hover⟩
  · rw [hn, hn']
  · rw [hn, hn']
    simp only [hedges, hover, h.relaxEdge_eq]

theorem SameLinks.spfLoop_eq (self : NodeID) (k : ℕ) (done : List SpfVisit) (tent : Q.State) :
    spfLoop Q nodes self k done tent = spfLoop Q nodes' self k done tent := by
  induction k generalizing done tent with
  | zero => rfl
  | succ k ih =>
    unfold spfLoop
    cases Q.pop tent with
    | none => rfl
    | some popped =>
      obtain ⟨⟨id, d, fh⟩, rest⟩ := popped
      simp only [h.expandNode_eq, ih]

/-- **The same links are walked alike**, whatever else the nodes carry. -/
theorem spfVisits_sameLinks (self : NodeID) : spfVisits Q nodes self = spfVisits Q nodes' self := by
  have hlen : nodes.keys.length = nodes'.keys.length := by
    refine Map.length_keys_eq fun id => ?_
    rcases h.cases id with ⟨hn, hn'⟩ | ⟨n, n', hn, hn', -⟩
    · rw [hn, hn']
    · rw [hn, hn']
      rfl
  unfold spfVisits
  rcases h.cases self with ⟨hn, hn'⟩ | ⟨n, n', hn, hn', -⟩
  · rw [hn, hn']
  · rw [hn, hn']
    simp only [hlen, h.spfLoop_eq]

end Walk

/-! ## Folding contributions -/

section Fold

variable {l : List (Prefix × Route)}

/-- The fold has a route exactly for what was contributed. -/
theorem isSome_fold_iff : ((l.foldl (fun routes c => addRoute routes c.1 c.2) ∅).lookup p).isSome =
    true ↔ ∃ c, (p, c) ∈ l := by
  induction l using reverseRecOn with
  | nil => simp
  | append_singleton l c ih =>
    rw [foldl_concat, lookup_addRoute]
    split
    · rename_i hp
      subst hp
      simp only [isSome_some, true_iff]
      exact ⟨c.2, mem_append_right _ mem_cons_self⟩
    · rename_i hp
      rw [ih]
      constructor
      · rintro ⟨r, hr⟩
        exact ⟨r, mem_append_left _ hr⟩
      · rintro ⟨r, hr⟩
        rcases mem_append.mp hr with hr | hr
        · exact ⟨r, hr⟩
        · rw [← mem_singleton.mp hr] at hp
          exact absurd rfl hp

/-- **The multi-topology flag** stands when every contribution has it. -/
theorem mt_fold_iff (h : (l.foldl (fun routes c => addRoute routes c.1 c.2) ∅).lookup p = some r) :
    r.mt = true ↔ ∀ c, (p, c) ∈ l → c.mt = true := by
  induction l using reverseRecOn generalizing r with
  | nil => cases h
  | append_singleton l c ih =>
    rw [foldl_concat, lookup_addRoute] at h
    split at h
    · rename_i hp
      subst hp
      obtain rfl := some.inj h
      cases hcur : (l.foldl (fun routes c => addRoute routes c.1 c.2) ∅).lookup c.1 with
      | none =>
        have hnone : ¬ ∃ r, (c.1, r) ∈ l := by
          rw [← isSome_fold_iff, hcur]
          simp
        constructor
        · intro hmt r hr
          rcases mem_append.mp hr with hr | hr
          · exact absurd ⟨r, hr⟩ hnone
          · rw [← mem_singleton.mp hr] at hmt
            exact hmt
        · intro hall
          exact hall c.2 (mem_append_right _ mem_cons_self)
      | some cur =>
        have hmerge : (mergeRoute cur c.2).mt = (cur.mt && c.2.mt) := rfl
        simp only [map_some, getD_some]
        rw [hmerge, Bool.and_eq_true, ih hcur]
        constructor
        · rintro ⟨hl, hc⟩ r hr
          rcases mem_append.mp hr with hr | hr
          · exact hl r hr
          · rw [← mem_singleton.mp hr] at hc
            exact hc
        · intro hall
          exact ⟨fun r hr => hall r (mem_append_left _ hr),
            hall c.2 (mem_append_right _ mem_cons_self)⟩
    · rename_i hp
      rw [ih h]
      constructor
      · intro hl r hr
        rcases mem_append.mp hr with hr | hr
        · exact hl r hr
        · rw [← mem_singleton.mp hr] at hp
          exact absurd rfl hp
      · intro hall r hr
        exact hall r (mem_append_left _ hr)

theorem intraArea_iff : r.intraArea = true ↔ preferenceClass r = 1 := by
  unfold Route.intraArea preferenceClass
  cases r.level with
  | level2 => simp
  | level1 => cases r.down <;> simp

theorem one_le_preferenceClass (r : Route) : 1 ≤ preferenceClass r := by
  unfold preferenceClass
  cases r.level with
  | level2 => exact (by decide : (1 : UInt8) ≤ 2)
  | level1 => cases r.down <;> decide

/-- The class and metric of the folded route come from a contribution, and none is better. -/
theorem best_fold (h : (l.foldl (fun routes c => addRoute routes c.1 c.2) ∅).lookup p = some r) :
    (∃ c, (p, c) ∈ l ∧ preferenceClass c = preferenceClass r ∧ c.metric = r.metric) ∧
      ∀ c, (p, c) ∈ l → preferenceClass r ≤ preferenceClass c ∧
        (preferenceClass c = preferenceClass r → r.metric ≤ c.metric) := by
  have hbest := bestOf_addRoute l p
  rw [h] at hbest
  have hbest : IsBest _ r.entry.1 r.entry.2 := hbest
  constructor
  · obtain ⟨_, c, hc, heq⟩ := hbest.attained
    have hfst : c.entry.1 = r.entry.1 := by rw [← heq]
    exact ⟨c, hc, Route.entry_eq_iff.mp hfst⟩
  · intro c hc
    have hle : ¬ c.entry.1 < r.entry.1 := Nat.not_lt.mpr (hbest.least _ c.entry.2 ⟨c, hc, rfl⟩)
    rw [Route.entry_lt_iff, not_or] at hle
    exact ⟨UInt8.not_lt.mp hle.1, fun hclass => UInt32.not_lt.mp fun hlt => hle.2 ⟨hclass, hlt⟩⟩

/-- **The intra-area metric** is the least among the intra-area contributions. -/
theorem intraArea_fold_iff :
    (∃ r, (l.foldl (fun routes c => addRoute routes c.1 c.2) ∅).lookup p = some r ∧
        r.intraArea = true ∧ r.metric = m) ↔
      (∃ c, (p, c) ∈ l ∧ c.intraArea = true ∧ c.metric = m) ∧
        ∀ c, (p, c) ∈ l → c.intraArea = true → m ≤ c.metric := by
  simp only [intraArea_iff]
  constructor
  · rintro ⟨r, hr, hintra, rfl⟩
    obtain ⟨⟨c, hc, hclass, hmetric⟩, hleast⟩ := best_fold hr
    refine ⟨⟨c, hc, hclass.trans hintra, hmetric⟩, fun c' hc' hintra' => ?_⟩
    exact (hleast c' hc').2 (hintra'.trans hintra.symm)
  · rintro ⟨⟨c, hc, hintra, rfl⟩, hleast⟩
    obtain ⟨r, hr⟩ := isSome_iff_exists.mp (isSome_fold_iff.mpr ⟨c, hc⟩)
    obtain ⟨⟨c', hc', hclass', hmetric'⟩, hbest⟩ := best_fold hr
    obtain ⟨hclass, hmetric⟩ := hbest c hc
    rw [hintra] at hclass hmetric
    have hone := UInt8.le_antisymm hclass (one_le_preferenceClass r)
    have hge := hleast c' hc' (hclass'.trans hone)
    rw [hmetric'] at hge
    exact ⟨r, hr, hone, UInt32.le_antisymm (hmetric hone.symm) hge⟩

end Fold

/-! ## The export set by contributions -/

section Exported

variable {s : RoutingServer} {o : Level → UInt8 → SpfOrder} {now : Int}

variable (hboth : s.bothLevels = true)

include hboth

theorem usesAttachedDefault_bothLevels {algo : UInt8} :
    s.usesAttachedDefault level algo = false := by
  simp only [bothLevels, Bool.and_eq_true] at hboth
  simp [usesAttachedDefault, hboth.2]

/-- On an L1L2 system the contributions are those of the visited nodes. -/
theorem mem_contributions :
    (p, r) ∈ s.contributions (o level 0) level 0 {} now ↔
      ∃ v ∈ s.spfDone (o level 0) level 0 {} now,
        (p, r) ∈ nodeRoutes (s.buildTopology level 0 {} now) (realNode s.systemID) level 0 v := by
  unfold contributions
  simp only [usesAttachedDefault_bothLevels hboth, Bool.false_eq_true, if_false, append_nil,
    mem_flatMap, ((o level 0).perm_routes _).mem_iff]

theorem plainRoutes_eq_fold (level : Level) :
    s.plainRoutes o now level = (s.contributions (o level 0) level 0 {} now).foldl
      (fun routes c => addRoute routes c.1 c.2) ∅ := by
  cases hself : (s.buildTopology level 0 {} now).lookup (realNode s.systemID) with
  | some node =>
    obtain ⟨db, -, hdb, -⟩ := lookup_buildTopology.mp hself
    unfold RoutingServer.plainRoutes
    rw [hdb, ← computeSPF_eq hself]
    rfl
  | none =>
    have hempty : s.contributions (o level 0) level 0 {} now = [] := by
      rw [eq_nil_iff_forall_not_mem]
      rintro ⟨p, r⟩ hmem
      obtain ⟨v, hv, -⟩ := (mem_contributions hboth).mp hmem
      rw [spfDone_eq_nil hself] at hv
      cases hv
    unfold RoutingServer.plainRoutes
    rw [hempty, computeSPF_eq_empty hself, ite_self, foldl_nil]

/-- **The exported metric** of a prefix: the least of the intra-area contributions, if some
contribution is not MT #2. -/
theorem lookup_exported :
    (s.l1ExportSet (s.merged o now)).lookup p = some m ↔ s.carries p = true ∧
      ((∃ c, (p, c) ∈ s.contributions (o .level1 0) .level1 0 {} now ∧ c.intraArea = true ∧
          c.metric = m) ∧
        ∀ c, (p, c) ∈ s.contributions (o .level1 0) .level1 0 {} now → c.intraArea = true →
          m ≤ c.metric) ∧
      ∃ c, (p, c) ∈ s.contributions (o .level1 0) .level1 0 {} now ∧ c.mt = false := by
  rw [lookup_l1ExportSet, plainRoutes_eq_fold hboth, ← intraArea_fold_iff]
  constructor
  · rintro ⟨-, hcarries, r, hr, hintra, hmt, hm⟩
    refine ⟨hcarries, ⟨r, hr, hintra, hm⟩, ?_⟩
    by_contra hall
    rw [Bool.eq_false_iff, ne_eq, mt_fold_iff hr] at hmt
    exact hmt fun c hc => by simpa using fun hfalse => hall ⟨c, hc, hfalse⟩
  · rintro ⟨hcarries, ⟨r, hr, hintra, hm⟩, c, hc, hmt⟩
    refine ⟨hboth, hcarries, r, hr, hintra, ?_, hm⟩
    rw [Bool.eq_false_iff, ne_eq, mt_fold_iff hr]
    intro hall
    rw [hall c hc] at hmt
    cases hmt

end Exported

end Goisis.Server
