import Goisis.Lib.MinQueue
import Goisis.Server.Topology

/-!
# Shortest paths first

Model of `computeSPF` (`pkg/server/spf.go`) and its helpers: the Dijkstra loop with its first-hop
sets, the prefix routes collected from the visited nodes, and the Level-1-only default towards the
nearest attached system.

What a run leaves open is a parameter (`SpfOrder`): the tentative set is any lawful `MinQueue`, so
any heap order among equal distances is allowed, and each of the two ranges over `done` takes any
order. Distances are natural numbers with the wrap of the source's `uint32` addition written out.
-/

namespace Goisis.Server

open Lib Packet List

variable {h : Finset SystemID} {x : SystemID} {a b : NodeID}

/-! ## First-hop sets -/

/-- The order of `sortedHops`: system IDs render in hex, so they sort as octet strings. -/
def hopLE (a b : SystemID) : Prop := a.val ≤ b.val

instance : DecidableRel hopLE := fun a b => inferInstanceAs (Decidable (a.val ≤ b.val))

instance : IsTrans SystemID hopLE := ⟨fun _ _ _ h h' => List.le_trans h h'⟩

instance : Std.Antisymm hopLE := ⟨fun _ _ h h' => Subtype.ext (List.le_antisymm h h')⟩

instance : Std.Total hopLE := ⟨fun a b => List.le_total a.val b.val⟩

/-- `sortedHops(h)`. -/
def sortedHops (h : Finset SystemID) : List SystemID :=
  Quot.liftOn h.val (insertionSort hopLE) fun a b hab =>
    Perm.eq_of_pairwise' (pairwise_insertionSort hopLE a) (pairwise_insertionSort hopLE b)
      ((perm_insertionSort hopLE a).trans (hab.trans (perm_insertionSort hopLE b).symm))

theorem mem_sortedHops : x ∈ sortedHops h ↔ x ∈ h := by
  obtain ⟨m, hm⟩ := h
  induction m using Quot.inductionOn with
  | h l => exact mem_insertionSort hopLE

theorem sortedHops_eq_nil : sortedHops h = [] ↔ h = ∅ := by
  constructor
  · intro hnil
    refine Finset.eq_empty_of_forall_notMem fun x hx => ?_
    have hmem := mem_sortedHops.mpr hx
    rw [hnil] at hmem
    cases hmem
  · rintro rfl
    rfl

/-- `mergeHops(a, b)`. -/
def mergeHops (a b : List SystemID) : List SystemID := sortedHops (a.toFinset ∪ b.toFinset)

theorem mem_mergeHops {a b : List SystemID} : x ∈ mergeHops a b ↔ x ∈ a ∨ x ∈ b := by
  simp [mergeHops, mem_sortedHops]

/-! ## The loop -/

/-- `nodeID(sys, 0)`. -/
def realNode (sys : SystemID) : NodeID := ⟨sys, 0⟩

/-- A node taken off the tentative set: `dist[id]` and `hops[id]`. -/
abbrev SpfVisit := Visit NodeID SystemID

/-- A tentative set: distance and first hops by node. -/
abbrev TentQueue := MinQueue NodeID (ℕ × Finset SystemID) Prod.fst

/-- `newTentSet(self)`. -/
def newTentSet (Q : TentQueue) (self : NodeID) : Q.State := Q.insert Q.empty self (0, ∅)

/-- `(*tentSet).relax(id, d, fh)`. -/
def tentRelax (Q : TentQueue) (tent : Q.State) (id : NodeID) (d : ℕ) (fh : Finset SystemID) :
    Q.State :=
  match Q.lookup tent id with
  | none => Q.insert tent id (d, fh)
  | some (e, hops) =>
    if d < e then Q.insert tent id (d, fh)
    else if d = e then Q.insert tent id (e, hops ∪ fh)
    else tent

/-- `firstHopsFor(cur, to)`. -/
def firstHopsFor (firstHops : Finset SystemID) (dst : NodeID) : Finset SystemID :=
  if 0 < firstHops.card then firstHops
  else if dst.pseudonodeID = 0 then {dst.systemID}
  else ∅

variable (nodes : Topology)

/-- `twoWay(nodes, a, b)`. -/
def twoWay (a b : NodeID) : Bool :=
  match nodes.lookup b with
  | none => false
  | some nb => nb.edges.any (·.dst == a)

/-- `done[id]`. -/
def isDone (done : List SpfVisit) (id : NodeID) : Bool := done.any (·.id == id)

/-- One edge of the visited node; `uint32` addition wraps. -/
def relaxEdge (Q : TentQueue) (nodes : Topology) (done : List SpfVisit) (cur : SpfVisit)
    (tent : Q.State) (e : SpfEdge) : Q.State :=
  if isDone done e.dst then tent
  else if !twoWay nodes cur.id e.dst then tent
  else
    let nd := (cur.dist + e.metric.toNat) % 2 ^ 32
    if nd ≥ maxPathMetric then tent
    else tentRelax Q tent e.dst nd (firstHopsFor cur.label e.dst)

/-- The body of the loop once `cur` is recorded: an overloaded node other than self is not
crossed. -/
def expandNode (Q : TentQueue) (nodes : Topology) (self : NodeID) (done : List SpfVisit)
    (cur : SpfVisit) (tent : Q.State) : Q.State :=
  match nodes.lookup cur.id with
  | none => tent
  | some node =>
    if node.overload ∧ cur.id ≠ self then tent
    else node.edges.foldl (relaxEdge Q nodes done cur) tent

/-- `for tent.len() > 0`, over at most `n` turns; the last visited node comes first. -/
def spfLoop (Q : TentQueue) (nodes : Topology) (self : NodeID) :
    ℕ → List SpfVisit → Q.State → List SpfVisit
  | 0, done, _ => done
  | n + 1, done, tent =>
    match Q.pop tent with
    | none => done
    | some ((id, d, fh), tent) =>
      spfLoop Q nodes self n (⟨id, d, fh⟩ :: done)
        (expandNode Q nodes self (⟨id, d, fh⟩ :: done) ⟨id, d, fh⟩ tent)

/-- The visited nodes of a graph: a node is visited at most once, which bounds the turns. -/
def spfVisits (Q : TentQueue) (nodes : Topology) (self : NodeID) : List SpfVisit :=
  match nodes.lookup self with
  | none => []
  | some _ => spfLoop Q nodes self nodes.keys.length [] (newTentSet Q self)

/-! ## Routes -/

/-- `route`. -/
structure Route where
  metric : UInt32
  level : Level
  algo : UInt8
  down : Bool
  mt : Bool
  nextHops : List SystemID
deriving DecidableEq, Repr

/-- `preferenceClass(r)`. -/
def preferenceClass (r : Route) : UInt8 :=
  match r.level with
  | .level2 => 2
  | .level1 => if r.down then 3 else 1

/-- The route `addRoute` keeps of two for one prefix: the better class wins at any metric, then the
lower metric, and equals merge their hops. -/
def mergeRoute (cur r : Route) : Route :=
  let best :=
    if preferenceClass r ≠ preferenceClass cur then
      if preferenceClass r < preferenceClass cur then r else cur
    else if r.metric < cur.metric then r
    else if r.metric = cur.metric then
      { cur with nextHops := mergeHops cur.nextHops r.nextHops }
    else cur
  { best with mt := cur.mt && r.mt }

/-- `addRoute(routes, p, r)`. -/
def addRoute (routes : Map Prefix Route) (p : Prefix) (r : Route) : Map Prefix Route :=
  match routes.lookup p with
  | none => routes.insert p r
  | some cur => routes.insert p (mergeRoute cur r)

/-- The routes a visited node contributes; the sum is taken in 64 bits. -/
def nodeRoutes (self : NodeID) (level : Level) (algo : UInt8) (v : SpfVisit) :
    List (Prefix × Route) :=
  if v.id = self then []
  else
    match nodes.lookup v.id with
    | none => []
    | some node =>
      let nh := sortedHops v.label
      if nh.length = 0 then []
      else
        (node.prefixes.filter fun p => v.dist + p.metric.toNat < maxPathMetric).map fun p =>
          (p.pfx, ⟨UInt32.ofNat (v.dist + p.metric.toNat), level, algo, p.down, p.mt, nh⟩)

/-- `defaultV4`. -/
def defaultV4 : Prefix := ⟨.v4 (Octets.zero 4), 0⟩

/-- `defaultV6`. -/
def defaultV6 : Prefix := ⟨.v6 (Octets.zero 16), 0⟩

/-- A visited node that can serve as the exit of its area. -/
def isAttachedExit (v : SpfVisit) : Bool :=
  match nodes.lookup v.id with
  | none => false
  | some n => v.id.pseudonodeID == 0 && n.attached && !n.overload && v.label.card != 0

/-- The nearest attached systems: their distance and the union of their first hops. -/
def nearestAttached (visits : List SpfVisit) : Option (ℕ × Finset SystemID) :=
  visits.foldl (fun best v =>
    if isAttachedExit nodes v then
      match best with
      | none => some (v.dist, v.label)
      | some (d, nh) =>
        if v.dist < d then some (v.dist, v.label)
        else if v.dist = d then some (d, nh ∪ v.label)
        else some (d, nh)
    else best) none

/-- `addAttachedDefault(routes, nodes, done, dist, hops)`. -/
def addAttachedDefault (routes : Map Prefix Route) (nodes : Topology) (visits : List SpfVisit) :
    Map Prefix Route :=
  match nearestAttached nodes visits with
  | none => routes
  | some (best, nh) =>
    [defaultV4, defaultV6].foldl (fun routes p =>
      addRoute routes p ⟨UInt32.ofNat best, .level1, 0, true, false, sortedHops nh⟩) routes

/-- What a run of `computeSPF` leaves open. -/
structure SpfOrder where
  queue : TentQueue
  rangeRoutes : List SpfVisit → List SpfVisit
  rangeAttached : List SpfVisit → List SpfVisit
  perm_routes : ∀ l, (rangeRoutes l).Perm l
  perm_attached : ∀ l, (rangeAttached l).Perm l

/-- A tentative set that is scanned, `pref` deciding among equals, and ranges in order of visit. -/
def SpfOrder.scan (pref : NodeID → Finset SystemID → Bool) : SpfOrder where
  queue := scanQueue _ _ _ fun k v => pref k v.2
  rangeRoutes := id
  rangeAttached := id
  perm_routes := fun _ => .refl _
  perm_attached := fun _ => .refl _

namespace IsisServer

/-- The nodes `computeSPF` visits. -/
def spfDone (s : IsisServer) (o : SpfOrder) (level : Level) (algo : UInt8) (aff : FlexAlgoAffinity)
    (now : Int) : List SpfVisit :=
  spfVisits o.queue (s.buildTopology level algo aff now) (realNode s.systemID)

/-- The Level-1-only condition of the attached default. -/
def usesAttachedDefault (s : IsisServer) (level : Level) (algo : UInt8) : Bool :=
  level == .level1 && algo == 0 && !s.levelCap.has .level2

/-- `computeSPF(level, algo, aff, now)`. -/
def computeSPF (s : IsisServer) (o : SpfOrder) (level : Level) (algo : UInt8)
    (aff : FlexAlgoAffinity) (now : Int) : Map Prefix Route :=
  let nodes := s.buildTopology level algo aff now
  let self := realNode s.systemID
  match nodes.lookup self with
  | none => ∅
  | some _ =>
    let done := s.spfDone o level algo aff now
    let routes := ((o.rangeRoutes done).flatMap (nodeRoutes nodes self level algo)).foldl
      (fun routes c => addRoute routes c.1 c.2) ∅
    if s.usesAttachedDefault level algo then
      addAttachedDefault routes nodes (o.rangeAttached done)
    else routes

end IsisServer

/-! ## The loop as a search -/

/-- The edges the loop follows out of a node. -/
def spfSucc (self a : NodeID) : List (NodeID × ℕ) :=
  match nodes.lookup a with
  | none => []
  | some node =>
    if node.overload ∧ a ≠ self then []
    else (node.edges.filter fun e => twoWay nodes a e.dst).map fun e => (e.dst, e.metric.toNat)

/-- The search the loop carries out. -/
def spfSearch (self : NodeID) : Search NodeID SystemID where
  source := self
  succ := spfSucc nodes self
  bound := maxPathMetric
  via := fun _ firstHops dst => firstHopsFor firstHops dst

theorem maxPathMetric_pos : 0 < maxPathMetric := by decide

/-- Every link metric of the graph is below `2 ^ 24`, the range of the wide metric. -/
def MetricsFit : Prop :=
  ∀ a node, nodes.lookup a = some node → ∀ e ∈ node.edges, e.metric.toNat < 2 ^ 24

section Loop

variable {Q : TentQueue} {nodes : Topology} {self : NodeID} {done : List SpfVisit} {cur : SpfVisit}
  {tent : Q.State}

variable {pref : NodeID → Finset SystemID → Prop}

theorem mem_spfSucc {w : ℕ} : (b, w) ∈ spfSucc nodes self a ↔
    ∃ node, nodes.lookup a = some node ∧ (a = self ∨ node.overload = false) ∧
      ∃ e ∈ node.edges, e.dst = b ∧ e.metric.toNat = w ∧ twoWay nodes a b = true := by
  unfold spfSucc
  cases hn : nodes.lookup a with
  | none => simp
  | some node =>
    by_cases hover : node.overload = true ∧ a ≠ self
    · simp only [if_pos hover]
      constructor
      · intro h
        cases h
      · rintro ⟨node', heq, hor, -⟩
        cases heq
        rcases hor with rfl | hfalse
        · exact absurd rfl hover.2
        · rw [hover.1] at hfalse
          cases hfalse
    · simp only [if_neg hover]
      have hor : a = self ∨ node.overload = false := by
        by_cases ha : a = self
        · exact .inl ha
        · exact .inr (by simpa [ha] using hover)
      constructor
      · intro h
        obtain ⟨e, he, heq⟩ := mem_map.mp h
        obtain ⟨he, htwo⟩ := mem_filter.mp he
        obtain ⟨rfl, rfl⟩ := Prod.mk.inj heq
        exact ⟨node, rfl, hor, e, he, rfl, rfl, htwo⟩
      · rintro ⟨node', heq, -, e, he, rfl, rfl, htwo⟩
        cases heq
        exact mem_map.mpr ⟨e, mem_filter.mpr ⟨he, htwo⟩, rfl⟩

theorem lookup_ne_none_of_twoWay (h : twoWay nodes a b = true) :
    ∃ node, nodes.lookup b = some node := by
  unfold twoWay at h
  split at h
  · cases h
  · exact ⟨_, by assumption⟩

theorem isDone_iff {k : NodeID} : isDone done k = true ↔ ¬ Search.Fresh done k := by
  rw [Search.not_fresh_iff]
  simp [isDone]

theorem lookup_tentRelax (id k : NodeID) (d : ℕ) (fh : Finset SystemID) :
    Q.lookup (tentRelax Q tent id d fh) k =
      if k = id then relaxEntry (Q.lookup tent id) d fh else Q.lookup tent k := by
  unfold tentRelax relaxEntry
  cases hid : Q.lookup tent id with
  | none => exact Q.lookup_insert tent id _ k fun v' hv' => by rw [hid] at hv'; cases hv'
  | some e =>
    obtain ⟨e, hops⟩ := e
    simp only
    split
    · rename_i hlt
      refine Q.lookup_insert tent id _ k fun v' hv' => ?_
      rw [hid] at hv'
      cases hv'
      exact Nat.le_of_lt hlt
    · split
      · refine Q.lookup_insert tent id _ k fun v' hv' => ?_
        rw [hid] at hv'
        cases hv'
        exact Nat.le_refl _
      · split
        · rename_i hk
          rw [hk, hid]
        · rfl

/-- The wrapped sum of the source is the sum, for metrics that fit. -/
theorem wrapped_sum {d m : ℕ} (hd : d < maxPathMetric) (hm : m < 2 ^ 24) :
    (d + m) % 2 ^ 32 = d + m := by
  refine Nat.mod_eq_of_lt ?_
  unfold maxPathMetric at hd
  omega

theorem lookup_relaxEdge {e : SpfEdge} (hd : cur.dist < maxPathMetric)
    (hm : e.metric.toNat < 2 ^ 24) (k : NodeID) :
    Q.lookup (relaxEdge Q nodes done cur tent e) k =
      if k = e.dst ∧ isDone done e.dst = false ∧ twoWay nodes cur.id e.dst = true ∧
          cur.dist + e.metric.toNat < maxPathMetric then
        relaxEntry (Q.lookup tent k) (cur.dist + e.metric.toNat) (firstHopsFor cur.label e.dst)
      else Q.lookup tent k := by
  unfold relaxEdge
  cases hdone : isDone done e.dst with
  | true => simp
  | false =>
    cases htwo : twoWay nodes cur.id e.dst with
    | false => simp
    | true =>
      simp only [wrapped_sum hd hm, Bool.false_eq_true, if_false, Bool.not_true, true_and]
      by_cases hlt : cur.dist + e.metric.toNat < maxPathMetric
      · rw [if_neg (Nat.not_le.mpr hlt), lookup_tentRelax]
        by_cases hk : k = e.dst
        · rw [if_pos hk, if_pos ⟨hk, hlt⟩, hk]
        · rw [if_neg hk, if_neg fun h => hk h.1]
      · rw [if_pos (Nat.not_lt.mp hlt), if_neg fun h => hlt h.2]

theorem lookup_foldl_relaxEdge (hd : cur.dist < maxPathMetric) {es : List SpfEdge}
    (hm : ∀ e ∈ es, e.metric.toNat < 2 ^ 24) (k : NodeID) :
    Q.lookup (es.foldl (relaxEdge Q nodes done cur) tent) k =
      if isDone done k then Q.lookup tent k
      else (spfSearch nodes self).relaxAll cur k
        ((es.filter fun e => twoWay nodes cur.id e.dst).map fun e => (e.dst, e.metric.toNat))
        (Q.lookup tent k) := by
  induction es generalizing tent with
  | nil =>
    split <;> rfl
  | cons e es ih =>
    rw [foldl_cons, ih fun x hx => hm x (mem_cons_of_mem _ hx),
      lookup_relaxEdge hd (hm e mem_cons_self)]
    cases hk : isDone done k with
    | true =>
      simp only [if_true]
      rw [if_neg]
      rintro ⟨rfl, hnot, -⟩
      rw [hk] at hnot
      cases hnot
    | false =>
      simp only [Bool.false_eq_true, if_false]
      cases htwo : twoWay nodes cur.id e.dst with
      | false =>
        rw [if_neg fun h => by simp at h, filter_cons_of_neg (by simp [htwo])]
      | true =>
        rw [filter_cons_of_pos (by simp [htwo]), map_cons]
        simp only [Search.relaxAll, foldl_cons]
        by_cases hhit : e.dst = k ∧ cur.dist + e.metric.toNat < maxPathMetric
        · obtain ⟨rfl, hlt⟩ := hhit
          rw [if_pos ⟨rfl, hk, trivial, hlt⟩]
          congr 1
          exact (if_pos ⟨rfl, hlt⟩).symm
        · rw [if_neg fun h => hhit ⟨h.1.symm, h.2.2.2⟩]
          congr 1
          exact (if_neg hhit).symm

/-- One turn relaxes the edges of the search. -/
theorem lookup_expandNode (hfit : MetricsFit nodes) (hd : cur.dist < maxPathMetric) (k : NodeID) :
    Q.lookup (expandNode Q nodes self done cur tent) k =
      if isDone done k then Q.lookup tent k
      else (spfSearch nodes self).relaxAll cur k ((spfSearch nodes self).succ cur.id)
        (Q.lookup tent k) := by
  unfold expandNode
  show _ = if isDone done k then Q.lookup tent k
    else (spfSearch nodes self).relaxAll cur k (spfSucc nodes self cur.id) (Q.lookup tent k)
  unfold spfSucc
  cases hn : nodes.lookup cur.id with
  | none => exact (ite_self (Q.lookup tent k)).symm
  | some node =>
    by_cases hover : node.overload = true ∧ cur.id ≠ self
    · simp only [if_pos hover]
      exact (ite_self (Q.lookup tent k)).symm
    · simp only [if_neg hover]
      exact lookup_foldl_relaxEdge hd (hfit cur.id node hn) k

/-- One turn of the loop keeps the queue and the visited nodes in step. -/
theorem spfLoop_turn (hpref : Q.Prefers pref) (hfit : MetricsFit nodes)
    (hrun : (spfSearch nodes self).Run pref done)
    (hrep : (spfSearch nodes self).Represents done (Q.lookup tent)) {id : NodeID} {d : ℕ}
    {fh : Finset SystemID} {rest : Q.State} (hpop : Q.pop tent = some ((id, d, fh), rest)) :
    (spfSearch nodes self).Run pref (⟨id, d, fh⟩ :: done) ∧
      (spfSearch nodes self).Represents (⟨id, d, fh⟩ :: done)
        (Q.lookup (expandNode Q nodes self (⟨id, d, fh⟩ :: done) ⟨id, d, fh⟩ rest)) := by
  have hrun' : (spfSearch nodes self).Run pref (⟨id, d, fh⟩ :: done) :=
    hrep.run hrun (Q.lookup_popped _ _ _ _ hpop) (Q.popped_least _ _ _ _ hpop)
      fun k l hk hl => hpref tent id d fh rest hpop k l hk hl
  have hd : d < maxPathMetric := (hrun'.walk maxPathMetric_pos mem_cons_self).2
  refine ⟨hrun', hrep.settle (fun k hk => ?_) fun k hk => ?_⟩
  · rw [lookup_expandNode hfit hd, if_pos (isDone_iff.mpr hk), Q.lookup_rest _ _ _ _ hpop]
    split
    · rfl
    rename_i hne
    refine hrep.settled k fun hfresh => hk fun u hu => ?_
    rcases mem_cons.mp hu with rfl | hu
    · exact fun heq => hne heq.symm
    · exact hfresh u hu
  · have hnot : ¬ isDone (⟨id, d, fh⟩ :: done) k = true := fun h => isDone_iff.mp h hk
    rw [lookup_expandNode hfit hd, if_neg hnot, Q.lookup_rest _ _ _ _ hpop,
      if_neg fun heq => hk _ mem_cons_self heq.symm]

/-- The loop ends complete or after as many turns as it has fuel. -/
theorem spfLoop_run (hpref : Q.Prefers pref) (hfit : MetricsFit nodes) (n : ℕ)
    (hrun : (spfSearch nodes self).Run pref done)
    (hrep : (spfSearch nodes self).Represents done (Q.lookup tent)) :
    (spfSearch nodes self).Run pref (spfLoop Q nodes self n done tent) ∧
      ((spfSearch nodes self).Complete (spfLoop Q nodes self n done tent) ∨
        (spfLoop Q nodes self n done tent).length = done.length + n) := by
  induction n generalizing done tent with
  | zero => exact ⟨hrun, .inr rfl⟩
  | succ n ih =>
    rw [spfLoop]
    cases hpop : Q.pop tent with
    | none => exact ⟨hrun, .inl (hrep.complete (Q.pop_none tent hpop))⟩
    | some popped =>
      obtain ⟨⟨id, d, fh⟩, rest⟩ := popped
      obtain ⟨hrun', hrep'⟩ := spfLoop_turn hpref hfit hrun hrep hpop
      refine (ih hrun' hrep').imp_right (Or.imp_right fun hlen => ?_)
      simp only [length_cons] at hlen ⊢
      omega

theorem lookup_newTentSet (k : NodeID) :
    Q.lookup (newTentSet Q self) k = if k = self then some (0, ∅) else none := by
  have hnone (v : ℕ × Finset SystemID) (_ : Q.lookup Q.empty self = some v) : (0 : ℕ) ≤ v.1 :=
    Nat.zero_le _
  unfold newTentSet
  rw [Q.lookup_insert _ _ _ _ hnone, Q.lookup_empty]

/-- The first turn settles self. -/
theorem spfLoop_first (hfit : MetricsFit nodes) (n : ℕ) : ∃ tent : Q.State,
    spfLoop Q nodes self (n + 1) [] (newTentSet Q self) =
        spfLoop Q nodes self n [⟨self, 0, ∅⟩] tent ∧
      (spfSearch nodes self).Represents [⟨self, 0, ∅⟩] (Q.lookup tent) := by
  rw [spfLoop]
  cases hpop : Q.pop (newTentSet Q self) with
  | none =>
    have hnone := Q.pop_none _ hpop self
    rw [lookup_newTentSet, if_pos rfl] at hnone
    cases hnone
  | some popped =>
    obtain ⟨⟨id, d, fh⟩, rest⟩ := popped
    have hlookup := Q.lookup_popped _ _ _ _ hpop
    rw [lookup_newTentSet] at hlookup
    split at hlookup
    · rename_i hid
      cases hlookup
      subst hid
      refine ⟨_, rfl, ?_⟩
      -- before the first turn nothing is settled and nothing is on offer
      have hstart : (spfSearch nodes id).Represents [] fun _ => none :=
        ⟨fun _ _ => rfl, fun k _ => by
          show Search.offers _ [] k = ∅
          ext o
          simp [Search.offers]⟩
      have hrest (k : NodeID) : Q.lookup rest k = none := by
        rw [Q.lookup_rest _ _ _ _ hpop, lookup_newTentSet]
        split <;> rfl
      refine hstart.settle (fun k hk => ?_) fun k hk => ?_
      · rw [lookup_expandNode hfit maxPathMetric_pos, if_pos (isDone_iff.mpr hk), hrest]
      · rw [lookup_expandNode hfit maxPathMetric_pos, if_neg fun h => isDone_iff.mp h hk, hrest]
    · cases hlookup

theorem mem_keys_of_run (hself : self ∈ nodes.keys) (hrun : (spfSearch nodes self).Run pref done)
    {v : SpfVisit} (hv : v ∈ done) : v.id ∈ nodes.keys := by
  obtain ⟨⟨p, hp⟩, -⟩ := hrun.walk maxPathMetric_pos hv
  generalize v.id = n at hp
  generalize v.dist = d at hp
  cases hp with
  | nil => exact hself
  | snoc _ he =>
    obtain ⟨_, _, _, _, _, _, _, htwo⟩ := mem_spfSucc.mp he
    obtain ⟨node, hnode⟩ := lookup_ne_none_of_twoWay htwo
    exact AList.mem_keys.mp (AList.lookup_isSome.mp (by rw [hnode]; rfl))

/-- **The loop is a completed run of the search**, whatever the queue's order among equals. -/
theorem spfVisits_run (hpref : Q.Prefers pref) (hfit : MetricsFit nodes) {node : SpfNode}
    (hself : nodes.lookup self = some node) :
    (spfSearch nodes self).Run pref (spfVisits Q nodes self) ∧
      (spfSearch nodes self).Complete (spfVisits Q nodes self) := by
  have hmem : self ∈ nodes.keys :=
    AList.mem_keys.mp (AList.lookup_isSome.mp (by rw [hself]; rfl))
  obtain ⟨n, hn⟩ : ∃ n, nodes.keys.length = n + 1 :=
    Nat.exists_eq_add_one.mpr (length_pos_of_mem hmem)
  obtain ⟨tent, hfirst, hrep⟩ := @spfLoop_first Q nodes self hfit n
  have hvisits : spfVisits Q nodes self = spfLoop Q nodes self n [⟨self, 0, ∅⟩] tent := by
    unfold spfVisits
    rw [hself]
    rw [hn, hfirst]
  rw [hvisits]
  obtain ⟨hrun, hend⟩ := spfLoop_run hpref hfit n .start hrep
  refine ⟨hrun, hend.elim id fun hlen => ?_⟩
  -- out of fuel: every node of the graph has been visited
  have hall := (hrun.length_le fun v hv => mem_keys_of_run hmem hrun hv).2
    (by rw [hlen, hn, length_singleton]; omega)
  intro k hk
  refine Set.eq_empty_of_forall_notMem fun o ho => ?_
  obtain ⟨u, -, w, hw, -⟩ := ho
  obtain ⟨_, _, _, _, _, _, _, htwo⟩ := mem_spfSucc.mp hw
  obtain ⟨nb, hnb⟩ := lookup_ne_none_of_twoWay htwo
  exact hall k (AList.mem_keys.mp (AList.lookup_isSome.mp (by rw [hnb]; rfl))) hk

end Loop

/-! ## Invariants of the labels -/

section Labels

variable {Q : TentQueue} {nodes : Topology} {self : NodeID} {I : NodeID → Finset SystemID → Prop}
  {tent : Q.State}

/-- A property of nodes and first-hop sets that the loop hands on, whatever the metrics are. -/
structure LabelRule (nodes : Topology) (root : NodeID) (I : NodeID → Finset SystemID → Prop) :
    Prop where
  source : I root ∅
  union : ∀ k l l', I k l → I k l' → I k (l ∪ l')
  edge : ∀ u l node e, I u l → nodes.lookup u = some node → e ∈ node.edges → e.dst ≠ root →
    I e.dst (firstHopsFor l e.dst)

/-- The property on everything visited or tentative; nothing but self is tentative before self is
visited. -/
structure LabelsHold (I : NodeID → Finset SystemID → Prop) (root : NodeID) (Q : TentQueue)
    (done : List SpfVisit) (tent : Q.State) : Prop where
  visited : ∀ v ∈ done, I v.id v.label
  tentative : ∀ k d l, Q.lookup tent k = some (d, l) → I k l
  first : isDone done root = true ∨ ∀ k e, Q.lookup tent k = some e → k = root

theorem LabelRule.tentRelax (hI : LabelRule nodes self I) {id : NodeID} {d : ℕ}
    {fh : Finset SystemID} (ht : ∀ k d l, Q.lookup tent k = some (d, l) → I k l) (hfh : I id fh) :
    ∀ k d' l, Q.lookup (tentRelax Q tent id d fh) k = some (d', l) → I k l := by
  intro k d' l hk
  rw [lookup_tentRelax] at hk
  split at hk
  · rename_i heq
    subst heq
    cases hold : Q.lookup tent k with
    | none =>
      rw [hold] at hk
      cases hk
      exact hfh
    | some e =>
      obtain ⟨e, m⟩ := e
      rw [hold] at hk
      simp only [relaxEntry] at hk
      split at hk
      · cases hk
        exact hfh
      split at hk
      · cases hk
        exact hI.union k m fh (ht k _ m hold) hfh
      · cases hk
        exact ht k d' l hold
  · exact ht k d' l hk

theorem LabelRule.expandNode (hI : LabelRule nodes self I) {done : List SpfVisit} {cur : SpfVisit}
    (hcur : I cur.id cur.label) (hself : isDone done self = true)
    (ht : ∀ k d l, Q.lookup tent k = some (d, l) → I k l) :
    ∀ k d l, Q.lookup (expandNode Q nodes self done cur tent) k = some (d, l) → I k l := by
  unfold Goisis.Server.expandNode
  cases hnode : nodes.lookup cur.id with
  | none => exact ht
  | some node =>
    simp only
    split
    · exact ht
    have hfold : ∀ es : List SpfEdge, (∀ e ∈ es, e ∈ node.edges) → ∀ tent : Q.State,
        (∀ k d l, Q.lookup tent k = some (d, l) → I k l) →
        ∀ k d l, Q.lookup (es.foldl (relaxEdge Q nodes done cur) tent) k = some (d, l) → I k l := by
      intro es hes
      induction es with
      | nil => exact fun _ ht => ht
      | cons e es ih =>
        intro tent ht
        refine ih (fun x hx => hes x (mem_cons_of_mem _ hx)) _ ?_
        unfold relaxEdge
        split
        · exact ht
        rename_i hfresh
        split
        · exact ht
        simp only
        split
        · exact ht
        refine hI.tentRelax ht (hI.edge cur.id cur.label node e hcur hnode
          (hes e mem_cons_self) fun heq => ?_)
        rw [heq] at hfresh
        exact hfresh hself
    exact hfold node.edges (fun e he => he) tent ht

theorem LabelRule.spfLoop (hI : LabelRule nodes self I) (n : ℕ) {done : List SpfVisit}
    (h : LabelsHold I self Q done tent) :
    ∀ v ∈ spfLoop Q nodes self n done tent, I v.id v.label := by
  induction n generalizing done tent with
  | zero => exact h.visited
  | succ n ih =>
    rw [Goisis.Server.spfLoop]
    cases hpop : Q.pop tent with
    | none => exact h.visited
    | some popped =>
      obtain ⟨⟨id, d, fh⟩, rest⟩ := popped
      have hid := Q.lookup_popped _ _ _ _ hpop
      have hcur : I id fh := h.tentative id d fh hid
      have hself : isDone (⟨id, d, fh⟩ :: done) self = true := by
        rcases h.first with hself | honly
        · simp only [isDone, any_cons, Bool.or_eq_true] at hself ⊢
          exact .inr hself
        · simp [isDone, honly id _ hid]
      refine ih ⟨fun v hv => ?_, hI.expandNode hcur hself fun k d' l hk => ?_, .inl hself⟩
      · rcases mem_cons.mp hv with rfl | hv
        · exact hcur
        · exact h.visited v hv
      · rw [Q.lookup_rest _ _ _ _ hpop] at hk
        split at hk
        · cases hk
        · exact h.tentative k d' l hk

/-- **The loop hands a label rule on to every visited node.** -/
theorem LabelRule.spfVisits (hI : LabelRule nodes self I) :
    ∀ v ∈ spfVisits Q nodes self, I v.id v.label := by
  unfold Goisis.Server.spfVisits
  split
  · intro v hv
    cases hv
  have hnew (k : NodeID) (e : ℕ × Finset SystemID) (hk : Q.lookup (newTentSet Q self) k = some e) :
      k = self ∧ e = (0, ∅) := by
    rw [lookup_newTentSet] at hk
    split at hk
    · rename_i heq
      exact ⟨heq, (Option.some.inj hk).symm⟩
    · cases hk
  refine hI.spfLoop _ ⟨fun v hv => ?_, fun k d l hk => ?_, .inr fun k e hk => (hnew k e hk).1⟩
  · cases hv
  · obtain ⟨rfl, heq⟩ := hnew k _ hk
    cases heq
    exact hI.source

end Labels

end Goisis.Server
