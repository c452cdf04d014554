import Goisis.Server.SameLinks

/-!
# Route selection does not depend on order

`computeSPF` folds the routes its visited nodes contribute with `addRoute`, and `updateRIB` merges
the tables of its computations with `betterRoute`. Both loops range over Go maps, so the order is
the runtime's. What comes out is a best-of: the least preference class over everything contributed,
then the least algorithm, then the least metric within the run and the class.

* `SpfRun` — one run of `computeSPF`, by the routes it adds;
* `Selects` — what the selected route of a prefix is, from the contributions as a set;
* `selectRoutes_best` — the two folds select it, in whatever order they run;
* `lookup_rib_iff` — the routing table is what they select.
-/

namespace Goisis.Server

open Lib Packet List RoutingServer Option

variable {run run' : SpfRun}

/-! ## Runs -/

/-- First hops as `sortedHops` leaves them. -/
def SortedHops (l : List SystemID) : Prop := l = sortedHops l.toFinset

instance (l : List SystemID) : Decidable (SortedHops l) :=
  inferInstanceAs (Decidable (l = sortedHops l.toFinset))

theorem sortedHops_sorted (h : Finset SystemID) : SortedHops (sortedHops h) := by
  unfold SortedHops
  rw [toFinset_sortedHops]

/-- One run of `computeSPF`: its level and algorithm, and the routes it adds in the order it adds
them. -/
structure SpfRun where
  level : Level
  algo : UInt8
  added : List (Prefix × Route)
  own : ∀ c ∈ added, c.2.level = level ∧ c.2.algo = algo
  sorted : ∀ c ∈ added, SortedHops c.2.nextHops

/-- The table a run returns. -/
def SpfRun.routes (run : SpfRun) : Map Prefix Route :=
  run.added.foldl (fun routes c => addRoute routes c.1 c.2) ∅

/-- The tables of the runs merged as `updateRIB` merges them. -/
def selectRoutes (runs : List SpfRun) : Map Prefix Route :=
  runs.foldl (fun merged run => mergeComputed merged run.routes) ∅

/-- At most one run for a level and an algorithm. -/
def OneRunEach (runs : List SpfRun) : Prop := (runs.map fun run => (run.level, run.algo)).Nodup

/-- The same run with its additions in another order. -/
def SpfRun.SameAdded (run run' : SpfRun) : Prop :=
  run.level = run'.level ∧ run.algo = run'.algo ∧ run.added.Perm run'.added

/-- The same runs in another order, each with its additions in another order. -/
def Reordered (runs runs' : List SpfRun) : Prop :=
  ∃ mid, runs.Perm mid ∧ Forall₂ SpfRun.SameAdded mid runs'

theorem contributions_sorted {s : IsisServer} {o : SpfOrder} {level : Level} {algo : UInt8}
    {aff : FlexAlgoAffinity} {now : Int} {c : Prefix × Route}
    (hc : c ∈ s.contributions o level algo aff now) : SortedHops c.2.nextHops := by
  rcases mem_append.mp hc with hc | hc
  · obtain ⟨v, -, hc⟩ := mem_flatMap.mp hc
    obtain ⟨-, -, node, -, q, -, -, -, heq⟩ := mem_nodeRoutes.mp hc
    rw [heq]
    exact sortedHops_sorted _
  · split at hc
    · obtain ⟨d, l, -, -, heq⟩ := mem_attachedRoutes.mp hc
      rw [heq]
      exact sortedHops_sorted _
    · cases hc

/-! ## The selected route -/

/-- The routes of the run to `p` in the class `k`. -/
def SpfRun.inClass (run : SpfRun) (p : Prefix) (k : UInt8) : Set Route :=
  { c | (p, c) ∈ run.added ∧ preferenceClass c = k }

/-- **What the selected route is**: the class is the least contributed, the algorithm the least
that contributes the class, and the rest comes from the run of that level and algorithm. -/
structure Selects (runs : List SpfRun) (p : Prefix) (r : Route) : Prop where
  cls : IsLeast { k | ∃ run ∈ runs, (run.inClass p k).Nonempty } (preferenceClass r)
  algo : IsLeast { a | ∃ run ∈ runs, run.algo = a ∧ (run.inClass p (preferenceClass r)).Nonempty }
    r.algo
  fromRun : ∃ run ∈ runs, run.level = r.level ∧ run.algo = r.algo ∧
    IsLeast (Route.metric '' run.inClass p (preferenceClass r)) r.metric ∧
    SortedHops r.nextHops ∧
    (∀ x, x ∈ r.nextHops ↔
      ∃ c ∈ run.inClass p (preferenceClass r), c.metric = r.metric ∧ x ∈ c.nextHops) ∧
    (r.mt = true ↔ ∀ c, (p, c) ∈ run.added → c.mt = true)

/-- Routes that agree on everything `updateRIB` reads off them; the up/down bit of a Level 2 route
is not read. -/
def Route.Agrees (r r' : Route) : Prop :=
  r.level = r'.level ∧ r.algo = r'.algo ∧ preferenceClass r = preferenceClass r' ∧
    r.metric = r'.metric ∧ r.nextHops = r'.nextHops ∧ r.mt = r'.mt ∧
    (r.level = .level1 → r.down = r'.down)

/-- The class tells the level and, at Level 1, the up/down bit. -/
theorem level_of_preferenceClass {r r' : Route} (h : preferenceClass r = preferenceClass r') :
    r.level = r'.level ∧ (r.level = .level1 → r.down = r'.down) := by
  unfold preferenceClass at h
  cases hl : r.level <;> cases hl' : r'.level <;> rw [hl, hl'] at h
  · cases hd : r.down <;> cases hd' : r'.down <;> simp_all
  · cases hd : r.down <;> simp_all
  · cases hd' : r'.down <;> simp_all
  · exact ⟨rfl, by rintro ⟨⟩⟩

/-- The selected route is unique up to the bit that is not read. -/
theorem Selects.agrees {runs : List SpfRun} (hone : OneRunEach runs) {p : Prefix} {r r' : Route}
    (h : Selects runs p r) (h' : Selects runs p r') : r.Agrees r' := by
  have hcls : preferenceClass r = preferenceClass r' :=
    UInt8.le_antisymm (h.cls.2 h'.cls.1) (h'.cls.2 h.cls.1)
  have halgo : r.algo = r'.algo := by
    have hleast := h.algo
    rw [hcls] at hleast
    exact UInt8.le_antisymm (hleast.2 h'.algo.1) (h'.algo.2 hleast.1)
  obtain ⟨hlevel, hdown⟩ := level_of_preferenceClass hcls
  obtain ⟨run, hrun, hrl, hra, hmetric, hsorted, hhops, hmt⟩ := h.fromRun
  obtain ⟨run', hrun', hrl', hra', hmetric', hsorted', hhops', hmt'⟩ := h'.fromRun
  obtain rfl : run = run' := inj_on_of_nodup_map hone hrun hrun'
    (Prod.ext (hrl.trans (hlevel.trans hrl'.symm)) (hra.trans (halgo.trans hra'.symm)))
  have hm : r.metric = r'.metric := by
    rw [hcls] at hmetric
    exact UInt32.le_antisymm (hmetric.2 hmetric'.1) (hmetric'.2 hmetric.1)
  refine ⟨hlevel, halgo, hcls, hm, ?_, ?_, hdown⟩
  · rw [hsorted, hsorted']
    refine congrArg sortedHops (Finset.ext fun x => ?_)
    rw [List.mem_toFinset, List.mem_toFinset, hhops, hhops', hcls, hm]
  · rw [Bool.eq_iff_iff, hmt, hmt']

/-! ## Reordering -/

theorem SpfRun.SameAdded.symm (h : run.SameAdded run') : run'.SameAdded run :=
  ⟨h.1.symm, h.2.1.symm, h.2.2.symm⟩

theorem SpfRun.SameAdded.inClass_eq (h : run.SameAdded run') (p : Prefix) (k : UInt8) :
    run.inClass p k = run'.inClass p k := by
  ext c
  exact and_congr_left fun _ => h.2.2.mem_iff

/-- Every run of one list has its counterpart in the other. -/
def Matched (runs runs' : List SpfRun) : Prop := ∀ run ∈ runs, ∃ run' ∈ runs', run.SameAdded run'

theorem matched_of_forall₂ {R : SpfRun → SpfRun → Prop} {mid runs : List SpfRun}
    (h : Forall₂ R mid runs) : (∀ a ∈ mid, ∃ b ∈ runs, R a b) ∧ ∀ b ∈ runs, ∃ a ∈ mid, R a b := by
  induction h with
  | nil =>
    constructor
    · rintro a ⟨⟩
    · rintro b ⟨⟩
  | cons hab _ ih =>
    constructor
    · rintro x (_ | ⟨_, hx⟩)
      · exact ⟨_, mem_cons_self, hab⟩
      · obtain ⟨y, hy, hxy⟩ := ih.1 x hx
        exact ⟨y, mem_cons_of_mem _ hy, hxy⟩
    · rintro x (_ | ⟨_, hx⟩)
      · exact ⟨_, mem_cons_self, hab⟩
      · obtain ⟨y, hy, hxy⟩ := ih.2 x hx
        exact ⟨y, mem_cons_of_mem _ hy, hxy⟩

theorem Reordered.matched {runs runs' : List SpfRun} (h : Reordered runs runs') :
    Matched runs runs' ∧ Matched runs' runs := by
  obtain ⟨mid, hperm, hall⟩ := h
  obtain ⟨hto, hfrom⟩ := matched_of_forall₂ hall
  constructor
  · intro run hrun
    exact hto run (hperm.mem_iff.mp hrun)
  · intro run' hrun'
    obtain ⟨run, hrun, hsame⟩ := hfrom run' hrun'
    exact ⟨run, hperm.mem_iff.mpr hrun, hsame.symm⟩

/-- **Only what is contributed counts**: a reordering selects the same route. -/
theorem Selects.reorder {runs runs' : List SpfRun} (hto : Matched runs runs')
    (hfrom : Matched runs' runs) {p : Prefix} {r : Route} (h : Selects runs p r) :
    Selects runs' p r := by
  -- the sets of classes and of algorithms are the same on both sides
  have hsub {a b : List SpfRun} (hab : Matched a b) {P : SpfRun → Prop}
      (hP : ∀ x y, x.SameAdded y → P x → P y) : (∃ x ∈ a, P x) → ∃ y ∈ b, P y := by
    rintro ⟨x, hx, hp⟩
    obtain ⟨y, hy, hxy⟩ := hab x hx
    exact ⟨y, hy, hP x y hxy hp⟩
  have hcls : { k | ∃ run ∈ runs, (run.inClass p k).Nonempty } =
      { k | ∃ run ∈ runs', (run.inClass p k).Nonempty } := by
    ext k
    have hP : ∀ x y : SpfRun, x.SameAdded y → (x.inClass p k).Nonempty → (y.inClass p k).Nonempty :=
      fun x y hxy hx => hxy.inClass_eq p k ▸ hx
    exact ⟨hsub hto hP, hsub hfrom hP⟩
  have halgo : { a | ∃ run ∈ runs, run.algo = a ∧ (run.inClass p (preferenceClass r)).Nonempty } =
      { a | ∃ run ∈ runs', run.algo = a ∧ (run.inClass p (preferenceClass r)).Nonempty } := by
    ext a
    have hP : ∀ x y : SpfRun, x.SameAdded y →
        x.algo = a ∧ (x.inClass p (preferenceClass r)).Nonempty →
        y.algo = a ∧ (y.inClass p (preferenceClass r)).Nonempty :=
      fun x y hxy hx => ⟨hxy.2.1.symm.trans hx.1, hxy.inClass_eq p _ ▸ hx.2⟩
    exact ⟨hsub hto hP, hsub hfrom hP⟩
  obtain ⟨run, hrun, hlevel, ha, hmetric, hsorted, hhops, hmt⟩ := h.fromRun
  obtain ⟨run', hrun', hsame⟩ := hto run hrun
  rw [hsame.inClass_eq] at hmetric hhops
  refine ⟨hcls ▸ h.cls, halgo ▸ h.algo, run', hrun', hsame.1.symm.trans hlevel,
    hsame.2.1.symm.trans ha, hmetric, hsorted, hhops, ?_⟩
  rw [hmt]
  exact forall_congr' fun c => imp_congr_left hsame.2.2.mem_iff

/-! ## The folds select -/

section Run

variable {run : SpfRun} {p : Prefix} {r : Route}

variable (h : run.routes.lookup p = some r)

include h

theorem SpfRun.level_algo : r.level = run.level ∧ r.algo = run.algo := by
  refine forall_of_addRoute (I := fun r => r.level = run.level ∧ r.algo = run.algo)
    (fun cur r hcur hr => ?_) run.own h
  unfold mergeRoute
  split
  · split
    · exact hr
    · exact hcur
  · split
    · exact hr
    · split
      · exact hcur
      · exact hcur

theorem SpfRun.sortedHops_routes : SortedHops r.nextHops := by
  refine forall_of_addRoute (I := fun r => SortedHops r.nextHops) (fun cur r hcur hr => ?_)
    run.sorted h
  unfold mergeRoute
  split
  · split
    · exact hr
    · exact hcur
  · split
    · exact hr
    · split
      · exact sortedHops_sorted (cur.nextHops.toFinset ∪ r.nextHops.toFinset)
      · exact hcur

/-- Inside a run the metric is the least of the route's class. -/
theorem SpfRun.isLeast_metric :
    IsLeast (Route.metric '' run.inClass p (preferenceClass r)) r.metric := by
  obtain ⟨⟨c, hc, hcls, hmetric⟩, hleast⟩ := best_fold h
  refine ⟨⟨c, ⟨hc, hcls⟩, hmetric⟩, ?_⟩
  rintro _ ⟨d, ⟨hd, hcls'⟩, rfl⟩
  exact (hleast d hd).2 hcls'

/-- The first hops are those of the contributions that attain class and metric. -/
theorem SpfRun.mem_nextHops_iff (x : SystemID) :
    x ∈ r.nextHops ↔
      ∃ c ∈ run.inClass p (preferenceClass r), c.metric = r.metric ∧ x ∈ c.nextHops := by
  have hbest := bestOf_addRoute run.added p
  have hfold : (run.added.foldl (fun routes c => addRoute routes c.1 c.2) ∅).lookup p = some r := h
  rw [hfold] at hbest
  have hbest : IsBest _ r.entry.1 r.entry.2 := hbest
  have hlabel := hbest.label x
  constructor
  · intro hx
    obtain ⟨_, ⟨c, hc, heq⟩, hx⟩ := hlabel.mp (mem_toFinset.mpr hx)
    obtain ⟨hrank, rfl⟩ := Prod.mk.inj heq
    obtain ⟨hcls, hmetric⟩ := Route.entry_eq_iff.mp hrank.symm
    exact ⟨c, ⟨hc, hcls⟩, hmetric, mem_toFinset.mp hx⟩
  · rintro ⟨c, ⟨hc, hcls⟩, hmetric, hx⟩
    have hrank : c.entry.1 = r.entry.1 := Route.entry_eq_iff.mpr ⟨hcls, hmetric⟩
    refine mem_toFinset.mp (hlabel.mpr ⟨c.entry.2, ⟨c, hc, ?_⟩, mem_toFinset.mpr hx⟩)
    rw [← hrank]

end Run

section Select

variable {runs : List SpfRun} {p : Prefix} {r : Route}

/-- A prefix has a route exactly when something was contributed for it. -/
theorem isSome_selectRoutes_iff : ((selectRoutes runs).lookup p).isSome = true ↔
    ∃ run ∈ runs, ∃ c, (p, c) ∈ run.added := by
  constructor
  · intro h
    obtain ⟨r, hr⟩ := isSome_iff_exists.mp h
    obtain ⟨run, hrun, hlookup⟩ := lookup_foldl_mergeComputed_some hr
    exact ⟨run, hrun, isSome_fold_iff.mp (isSome_of_mem hlookup)⟩
  · rintro ⟨run, hrun, hc⟩
    obtain ⟨r, hr⟩ := isSome_iff_exists.mp (isSome_fold_iff.mpr hc)
    obtain ⟨r', hr', -⟩ := foldl_mergeComputed_least (f := SpfRun.routes) hrun hr
    exact isSome_of_mem hr'

/-- A contribution's class and algorithm are no better than the selected ones. -/
theorem order_le_of_added (h : (selectRoutes runs).lookup p = some r) (hrun : run ∈ runs)
    {c : Route} (hc : (p, c) ∈ run.added) :
    preferenceClass r ≤ preferenceClass c ∧
      (preferenceClass c = preferenceClass r → r.algo ≤ run.algo) := by
  obtain ⟨q, hq⟩ := isSome_iff_exists.mp (isSome_fold_iff.mpr ⟨c, hc⟩)
  obtain ⟨r', hr', hle⟩ := foldl_mergeComputed_least (f := SpfRun.routes) hrun hq
  obtain rfl : r = r' := some.inj (h.symm.trans hr')
  have hqc := ((best_fold hq).2 c hc).1
  have halgo : q.algo = run.algo := (SpfRun.level_algo hq).2
  rw [← halgo]
  have hb := r.algo.toNat_lt
  have hb' := q.algo.toNat_lt
  unfold Route.order at hle
  simp only [UInt8.le_iff_toNat_le, ← UInt8.toNat_inj] at hqc ⊢
  omega

/-- **The folds select**: whatever the order of runs and additions, the merged route is the one
`Selects` describes. -/
theorem selects_of_lookup (h : (selectRoutes runs).lookup p = some r) : Selects runs p r := by
  obtain ⟨run, hrun, hlookup⟩ := lookup_foldl_mergeComputed_some h
  obtain ⟨hlevel, halgo⟩ := SpfRun.level_algo hlookup
  have hmetric := SpfRun.isLeast_metric hlookup
  obtain ⟨c, hc, -⟩ := hmetric.1
  refine ⟨⟨⟨run, hrun, c, hc⟩, ?_⟩, ⟨⟨run, hrun, halgo.symm, c, hc⟩, ?_⟩, run, hrun, hlevel.symm,
    halgo.symm, hmetric, SpfRun.sortedHops_routes hlookup, SpfRun.mem_nextHops_iff hlookup,
    mt_fold_iff hlookup⟩
  · rintro k ⟨run', hrun', d, hd, rfl⟩
    exact (order_le_of_added h hrun' hd).1
  · rintro a ⟨run', hrun', rfl, d, hd, hcls⟩
    exact (order_le_of_added h hrun' hd).2 hcls

end Select

/-- **Route selection is an order-independent best-of.** For every list of runs, at most one for a
level and an algorithm: a prefix has a route when something was contributed for it, the route is the
selected one, and every order of runs and additions agrees on it. -/
theorem selectRoutes_best (runs : List SpfRun) (hone : OneRunEach runs) (p : Prefix) :
    (((selectRoutes runs).lookup p).isSome = true ↔ ∃ run ∈ runs, ∃ c, (p, c) ∈ run.added) ∧
    (∀ r, (selectRoutes runs).lookup p = some r → Selects runs p r) ∧
    (∀ r r', Selects runs p r → Selects runs p r' → r.Agrees r') ∧
    ∀ runs', Reordered runs runs' →
      Option.Rel Route.Agrees ((selectRoutes runs).lookup p) ((selectRoutes runs').lookup p) := by
  refine ⟨isSome_selectRoutes_iff, fun r => selects_of_lookup, fun r r' => Selects.agrees hone,
    fun runs' hre => ?_⟩
  obtain ⟨hto, hfrom⟩ := hre.matched
  have hexists : (∃ run ∈ runs, ∃ c, (p, c) ∈ run.added) ↔
      ∃ run ∈ runs', ∃ c, (p, c) ∈ run.added := by
    constructor
    · rintro ⟨run, hrun, c, hc⟩
      obtain ⟨run', hrun', hsame⟩ := hto run hrun
      exact ⟨run', hrun', c, hsame.2.2.mem_iff.mp hc⟩
    · rintro ⟨run, hrun, c, hc⟩
      obtain ⟨run', hrun', hsame⟩ := hfrom run hrun
      exact ⟨run', hrun', c, hsame.2.2.mem_iff.mp hc⟩
  rw [← isSome_selectRoutes_iff, ← isSome_selectRoutes_iff] at hexists
  cases h : (selectRoutes runs).lookup p with
  | none =>
    rw [h] at hexists
    cases h' : (selectRoutes runs').lookup p with
    | none => exact .none
    | some r' =>
      rw [h'] at hexists
      exact absurd (hexists.mpr rfl) Bool.false_ne_true
  | some r =>
    rw [h] at hexists
    cases h' : (selectRoutes runs').lookup p with
    | none =>
      rw [h'] at hexists
      exact absurd (hexists.mp rfl) Bool.false_ne_true
    | some r' =>
      refine .some (Selects.agrees hone (selects_of_lookup h) ?_)
      exact (selects_of_lookup h').reorder hfrom hto

/-- An area with two equal paths to the prefix, one of them advertised in the standard topology, and
a shorter path over Level 2. -/
def twoRuns : List SpfRun :=
  [{ level := .level1
     algo := 0
     added := [(testNet, ⟨20, .level1, 0, false, true, [router 3]⟩),
       (testNet, ⟨20, .level1, 0, false, false, [router 2]⟩)]
     own := by decide
     sorted := by decide +kernel },
   { level := .level2
     algo := 0
     added := [(testNet, ⟨5, .level2, 0, false, true, [router 4]⟩)]
     own := by decide
     sorted := by decide +kernel }]

theorem selectRoutes_twoRuns : OneRunEach twoRuns ∧ ∀ runs', Reordered twoRuns runs' →
    Option.Rel Route.Agrees (some ⟨20, .level1, 0, false, false, [router 2, router 3]⟩)
      ((selectRoutes runs').lookup testNet) := by
  have hone : OneRunEach twoRuns := by
    unfold OneRunEach
    decide
  have hlookup : (selectRoutes twoRuns).lookup testNet =
      some ⟨20, .level1, 0, false, false, [router 2, router 3]⟩ := by decide +kernel
  refine ⟨hone, fun runs' hre => ?_⟩
  exact (selectRoutes_best twoRuns hone testNet).2.2.2 runs' hre

/-! ## The runs of `updateRIB` -/

variable (s : RoutingServer)

/-- The run of one computation of `updateRIB`; a node that is not in its own topology computes
nothing. -/
def RoutingServer.spfRun (o : Level → UInt8 → SpfOrder) (now : Int)
    (c : Level × UInt8 × FlexAlgoAffinity) : SpfRun where
  level := c.1
  algo := c.2.1
  added :=
    if ((s.buildTopology c.1 c.2.1 c.2.2 now).lookup (realNode s.systemID)).isSome then
      s.contributions (o c.1 c.2.1) c.1 c.2.1 c.2.2 now
    else []
  own := by
    intro x hx
    split at hx
    · exact contributions_level_algo hx
    · cases hx
  sorted := by
    intro x hx
    split at hx
    · exact contributions_sorted hx
    · cases hx

/-- The runs of `updateRIB`, levels first and then algorithms. -/
def RoutingServer.spfRuns (o : Level → UInt8 → SpfOrder) (now : Int) : List SpfRun :=
  (s.computations now).map (s.spfRun o now)

theorem routes_spfRun (o : Level → UInt8 → SpfOrder) (now : Int)
    (c : Level × UInt8 × FlexAlgoAffinity) : (s.spfRun o now c).routes = s.routesOf o now c := by
  unfold SpfRun.routes routesOf
  cases hself : (s.buildTopology c.1 c.2.1 c.2.2 now).lookup (realNode s.systemID) with
  | none =>
    have hadded : (s.spfRun o now c).added = [] := by
      simp only [spfRun, hself]
      rfl
    rw [hadded, computeSPF_eq_empty hself, foldl_nil]
  | some node =>
    have hadded : (s.spfRun o now c).added = s.contributions (o c.1 c.2.1) c.1 c.2.1 c.2.2 now := by
      simp only [spfRun, hself]
      rfl
    rw [hadded, computeSPF_eq hself]

theorem computations_nodup (now : Int) :
    ((s.computations now).map fun c => (c.1, c.2.1)).Nodup := by
  have halgos : s.routingAlgos.Nodup :=
    (perm_insertionSort _ _).nodup_iff.mpr (nodup_dedup _)
  -- a pair names the level it was made for and the algorithm it came from
  have hmem {level : Level} {x : Level × UInt8} {algo : UInt8}
      (h : x ∈ ((s.algoRules level now algo).map fun aff => (level, algo, aff)).map
        fun c => (c.1, c.2.1)) : x = (level, algo) := by
    cases hr : s.algoRules level now algo with
    | none =>
      rw [hr] at h
      cases h
    | some aff =>
      rw [hr] at h
      exact (some.inj h).symm
  unfold computations
  rw [map_flatMap, nodup_flatMap]
  constructor
  · intro level _
    rw [map_filterMap]
    refine halgos.filterMap fun a a' x hx hx' => ?_
    exact (Prod.mk.inj ((hmem hx).symm.trans (hmem hx'))).2
  · have hlevels : Level.all.Nodup := by decide
    refine (hlevels.filter _).imp fun {l l'} hne => ?_
    refine disjoint_left.mpr fun {x} hx hx' => ?_
    simp only [map_filterMap] at hx hx'
    obtain ⟨a, -, hx⟩ := mem_filterMap.mp hx
    obtain ⟨a', -, hx'⟩ := mem_filterMap.mp hx'
    exact hne (Prod.mk.inj ((hmem hx).symm.trans (hmem hx'))).1

/-- **The table `updateRIB` merges is a selection** over one run for each level and algorithm. -/
theorem merged_eq_selectRoutes (o : Level → UInt8 → SpfOrder) (now : Int) :
    s.merged o now = selectRoutes (s.spfRuns o now) ∧ OneRunEach (s.spfRuns o now) := by
  constructor
  · unfold merged selectRoutes spfRuns
    rw [foldl_map]
    simp only [routes_spfRun]
    rfl
  · unfold OneRunEach spfRuns
    rw [List.map_map]
    exact computations_nodup s now

/-- **The routing table is the selection**: a prefix has a route exactly if it is not connected and
the selected route has a next hop, and then that route. -/
theorem lookup_rib_iff (o : Level → UInt8 → SpfOrder) (now : Int) (p : Prefix) (ri : RouteInfo) :
    (s.updateRIB o now).rib.lookup p = some ri ↔
      s.connected.contains p.masked = false ∧ ri.nextHops ≠ [] ∧
      ∃ r, Selects (s.spfRuns o now) p r ∧
        ri = ⟨p, r.metric, r.level, preferenceClass r, r.algo, s.resolveNextHops p r.nextHops⟩ := by
  obtain ⟨hmerged, hone⟩ := merged_eq_selectRoutes s o now
  rw [lookup_rib, hmerged, bind_eq_some_iff]
  constructor
  · rintro ⟨r, hr, hri⟩
    unfold routeInfo at hri
    grind [selects_of_lookup hr]
  · rintro ⟨hconn, hhops, r, hr, rfl⟩
    obtain ⟨run, hrun, c, hc⟩ := hr.cls.1
    obtain ⟨r', hr'⟩ := isSome_iff_exists.mp (isSome_selectRoutes_iff.mpr ⟨run, hrun, c, hc.1⟩)
    obtain ⟨hlevel, halgo, hcls, hmetric, hnext, -⟩ := hr.agrees hone (selects_of_lookup hr')
    refine ⟨r', hr', ?_⟩
    rw [hnext] at hhops ⊢
    rw [hlevel, halgo, hcls, hmetric]
    exact routeInfo_eq_some hconn hhops

end Goisis.Server
