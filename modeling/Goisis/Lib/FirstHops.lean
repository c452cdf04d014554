import Goisis.Lib.MinQueue

/-!
# First hops on shortest paths

A search whose labels are meant to be first hops: some vertices are hops (`hop v = some x`), the
others are transparent, and a settled vertex passes its label on, except that a vertex reached with
an empty label contributes its own hop (`HopLabels`). What the label of a vertex should be is the
set of hops that come first on a shortest walk to it (`ReachedVia`); what it is depends on the order
in which vertices at the same distance are settled, because edges out of a transparent vertex may
cost nothing.

* `Run.reachedVia_of_mem` — a label holds first hops only;
* `Run.mem_label_of_unavoidable`, `Settles.mem_self` — hops every run finds;
* `Run.dodges`, `Run.not_mem_label_of_tainted` — hops a run misses if it prefers
  vertices without the hop, or with a label, among equals;
* `HopsUnavoidable` — the condition on the graph under which no run misses any, both ways
  (`Run.mem_label_iff`, `hopsUnavoidable_of_runs`).
-/

namespace Goisis.Lib

open List

variable {c d w : ℕ}

namespace Search

variable {V X : Type}

/-! ## Shortest walks -/

variable (P : Search V X)

/-- `p` is a walk to `n` of least cost. -/
def Shortest (p : List V) (n : V) : Prop := ∃ c, P.Walk p n c ∧ P.IsDist n c

/-- An edge of a shortest walk. -/
def Tight (u v : V) (w : ℕ) : Prop :=
  (v, w) ∈ P.succ u ∧ ∃ d, P.IsDist u d ∧ P.IsDist v (d + w)

section Walks

variable {P : Search V X} {p : List V} {u v : V}

theorem isDist_source (P : Search V X) : P.IsDist P.source 0 :=
  ⟨⟨[], .nil⟩, fun _ _ _ => Nat.zero_le _⟩

/-- What comes before the last edge of a shortest walk is a shortest walk. -/
theorem IsDist.of_snoc (h : P.Walk p u c) (he : (v, w) ∈ P.succ u) (hd : P.IsDist v (c + w)) :
    P.IsDist u c := by
  refine ⟨⟨p, h⟩, fun q b hq => ?_⟩
  have := hd.least _ _ (hq.snoc he)
  omega

theorem Tight.dist (h : P.Tight u v w) (hd : P.IsDist u d) : P.IsDist v (d + w) := by
  obtain ⟨-, e, hu, hv⟩ := h
  rw [hd.unique hu]
  exact hv

theorem Shortest.snoc (h : P.Shortest p u) (ht : P.Tight u v w) : P.Shortest (p ++ [v]) v := by
  obtain ⟨c, hp, hc⟩ := h
  exact ⟨c + w, hp.snoc ht.1, ht.dist hc⟩

end Walks

/-! ## First hops -/

/-- `x` comes first among the hops of some shortest walk. -/
def ReachedVia (hop : V → Option X) (x : X) (n : V) : Prop :=
  ∃ p, P.Shortest p n ∧ p.findSome? hop = some x

/-- Some shortest walk has no hop on it. -/
def Direct (hop : V → Option X) (n : V) : Prop :=
  ∃ p, P.Shortest p n ∧ p.findSome? hop = none

/-- Some shortest walk has a hop on it. -/
def Tainted (hop : V → Option X) (n : V) : Prop := ∃ x, P.ReachedVia hop x n

/-- The labels of the search are meant as first hops: they are inherited, and where there is nothing
to inherit a vertex contributes its own hop. No two vertices are the same hop. -/
structure HopLabels (P : Search V X) (hop : V → Option X) : Prop where
  source : hop P.source = none
  inj : ∀ u v x, hop u = some x → hop v = some x → u = v
  inherit : ∀ u l v, v ≠ P.source → l ≠ ∅ → P.via u l v = l
  introduce : ∀ u v x, v ≠ P.source → (x ∈ P.via u ∅ v ↔ hop v = some x)

/-- Only transparent vertices other than the source have edges that cost nothing. -/
def PositiveHops (hop : V → Option X) : Prop :=
  ∀ u v w, u = P.source ∨ hop u ≠ none → (v, w) ∈ P.succ u → 0 < w

section Hops

variable {P : Search V X} {hop : V → Option X} {p : List V} {u v n : V} {x y : X}

theorem ReachedVia.snoc (h : P.ReachedVia hop x u) (ht : P.Tight u v w) : P.ReachedVia hop x v := by
  obtain ⟨p, hp, hx⟩ := h
  refine ⟨p ++ [v], hp.snoc ht, ?_⟩
  rw [findSome?_append, hx]
  rfl

theorem Direct.snoc (h : P.Direct hop u) (ht : P.Tight u v w) (hv : hop v = none) :
    P.Direct hop v := by
  obtain ⟨p, hp, hx⟩ := h
  refine ⟨p ++ [v], hp.snoc ht, ?_⟩
  rw [findSome?_append, hx]
  simp [hv]

theorem Direct.reachedVia (h : P.Direct hop u) (ht : P.Tight u v w) (hv : hop v = some x) :
    P.ReachedVia hop x v := by
  obtain ⟨p, hp, hx⟩ := h
  refine ⟨p ++ [v], hp.snoc ht, ?_⟩
  rw [findSome?_append, hx]
  simp [hv]

/-- A walk that leaves the source costs something. -/
theorem Walk.pos (hpos : P.PositiveHops hop) (h : P.Walk p n c) (hne : p ≠ []) : 0 < c := by
  induction h with
  | nil => exact absurd rfl hne
  | @snoc p u n c w hp he ih =>
    cases hp with
    | nil =>
      have := hpos _ n w (.inl rfl) he
      omega
    | snoc _ _ =>
      have := ih (by simp)
      omega

theorem not_tainted_source (hpos : P.PositiveHops hop) : ¬ P.Tainted hop P.source := by
  rintro ⟨x, p, ⟨c, hp, hc⟩, hx⟩
  have hne : p ≠ [] := by
    rintro rfl
    cases hx
  have := hp.pos hpos hne
  have := hc.unique P.isDist_source
  omega

/-- A vertex reached without a hop is none itself. -/
theorem Direct.hop_eq_none (hL : P.HopLabels hop) (h : P.Direct hop n) : hop n = none := by
  obtain ⟨p, ⟨c, hp, -⟩, hx⟩ := h
  cases hp with
  | nil => exact hL.source
  | snoc _ _ =>
    rw [findSome?_append, Option.or_eq_none_iff] at hx
    simpa using hx.2

/-- Where a first hop comes from: it is inherited along the last edge, or introduced by it. -/
theorem ReachedVia.cases_pred (h : P.ReachedVia hop x n) : ∃ u w, P.Tight u n w ∧
    (P.ReachedVia hop x u ∨ P.Direct hop u ∧ hop n = some x) := by
  obtain ⟨p, ⟨c, hp, hc⟩, hx⟩ := h
  cases hp with
  | nil => cases hx
  | @snoc p u _ c w hp he =>
    have hu := IsDist.of_snoc hp he hc
    refine ⟨u, w, ⟨he, c, hu, hc⟩, ?_⟩
    rw [findSome?_append, Option.or_eq_some_iff] at hx
    rcases hx with hx | ⟨hnone, hx⟩
    · exact .inl ⟨p, ⟨c, hp, hu⟩, hx⟩
    · exact .inr ⟨⟨p, ⟨c, hp, hu⟩, hnone⟩, by simpa using hx⟩

/-- The hop itself lies on the walk, behind no other. -/
theorem ReachedVia.origin (h : P.ReachedVia hop x n) : ∃ r u w,
    hop r = some x ∧ P.Tight u r w ∧ P.Direct hop u := by
  obtain ⟨p, ⟨c, hp, hc⟩, hx⟩ := h
  induction hp with
  | nil => cases hx
  | @snoc p u n c w hp he ih =>
    have hu := IsDist.of_snoc hp he hc
    rw [findSome?_append, Option.or_eq_some_iff] at hx
    rcases hx with hx | ⟨hnone, hx⟩
    · exact ih hx hu
    · exact ⟨n, u, w, by simpa using hx, ⟨he, c, hu, hc⟩, p, ⟨c, hp, hu⟩, hnone⟩

/-- A vertex behind a hop is farther away than the hop. -/
theorem ReachedVia.dist_lt (hL : P.HopLabels hop) (hpos : P.PositiveHops hop)
    (h : P.ReachedVia hop x n) {r : V} {e : ℕ} (hr : hop r = some x) (hne : n ≠ r)
    (hd : P.IsDist r e) (hc : P.IsDist n c) : e < c := by
  obtain ⟨p, ⟨c', hp, hc'⟩, hx⟩ := h
  obtain rfl := hc.unique hc'
  clear hc'
  induction hp with
  | nil => cases hx
  | @snoc p u n c w hp he ih =>
    have hu := IsDist.of_snoc hp he hc
    rw [findSome?_append, Option.or_eq_some_iff] at hx
    rcases hx with hx | ⟨-, hx⟩
    · by_cases hur : u = r
      · subst hur
        have := hd.unique hu
        have := hpos u n w (.inr (by simp [hr])) he
        omega
      · have := ih hur hu hx
        omega
    · exact absurd (hL.inj n r x (by simpa using hx) hr) hne

end Hops

/-! ## Labels of a run -/

section Labels

variable {P : Search V X} {hop : V → Option X} {pref : V → Finset X → Prop}
  {done fin : List (Visit V X)} {u v z : Visit V X} {x y : X}

/-- The settled vertices stand at their true distances. -/
def Exact (P : Search V X) (done : List (Visit V X)) : Prop := ∀ v ∈ done, P.IsDist v.id v.dist

theorem Exact.tail (h : P.Exact (z :: done)) : P.Exact done :=
  fun v hv => h v (mem_cons_of_mem _ hv)

theorem Exact.head (h : P.Exact (z :: done)) : P.IsDist z.id z.dist := h z mem_cons_self

theorem Run.exact (h : P.Run pref done) (hc : P.Complete done) (hb : 0 < P.bound) : P.Exact done :=
  fun _ hv => h.dist hc hb hv

/-- What a vertex is settled with, in terms of its tight predecessors. -/
structure Settles (P : Search V X) (done : List (Visit V X)) (z : Visit V X) : Prop where
  fresh : Fresh done z.id
  ne_source : z.id ≠ P.source
  lt_bound : z.dist < P.bound
  pred : ∃ u ∈ done, ∃ w, P.Tight u.id z.id w
  mem_label : ∀ x, x ∈ z.label ↔
    ∃ u ∈ done, (∃ w, P.Tight u.id z.id w) ∧ x ∈ P.via u.id u.label z.id
  nearer : ∀ k c m, Fresh done k → (c, m) ∈ P.offers done k → z.dist ≤ c

theorem Run.settles (h : P.Run pref (z :: done)) (hne : done ≠ []) (hex : P.Exact (z :: done)) :
    P.Settles done z := by
  cases h with
  | start => exact absurd rfl hne
  | settle hrun hfresh hbest hmin hpref =>
    have htight {u : Visit V X} {w : ℕ} (hu : u ∈ done) (he : (z.id, w) ∈ P.succ u.id)
        (hd : z.dist = u.dist + w) : P.Tight u.id z.id w :=
      ⟨he, u.dist, hex.tail u hu, hd ▸ hex.head⟩
    obtain ⟨m, u₀, hu₀, w₀, he₀, hlt₀, heq₀⟩ := hbest.attained
    have hd₀ := (Prod.mk.inj heq₀).1
    refine ⟨hfresh, ?_, hd₀ ▸ hlt₀, ⟨u₀, hu₀, w₀, htight hu₀ he₀ hd₀⟩, fun x => ?_, hmin⟩
    · intro hsource
      exact hfresh _ hrun.source_mem hsource.symm
    · rw [hbest.label]
      constructor
      · rintro ⟨m, ⟨u, hu, w, he, -, heq⟩, hx⟩
        obtain ⟨hd, rfl⟩ := Prod.mk.inj heq
        exact ⟨u, hu, ⟨w, htight hu he hd⟩, hx⟩
      · rintro ⟨u, hu, ⟨w, ht⟩, hx⟩
        have hd : z.dist = u.dist + w := hex.head.unique (ht.dist (hex.tail u hu))
        exact ⟨_, ⟨u, hu, w, ht.1, by omega, by rw [hd]⟩, hx⟩

/-- Run-wise induction on what the settled vertices satisfy. -/
theorem Run.forall_of_settles (h : P.Run pref done) (hex : P.Exact done) {Q : Visit V X → Prop}
    (hsource : Q ⟨P.source, 0, ∅⟩)
    (hstep : ∀ done z, P.Run pref (z :: done) → P.Exact (z :: done) → P.Settles done z →
      (∀ u ∈ done, Q u) → Q z) : ∀ v ∈ done, Q v := by
  induction h with
  | start =>
    intro v hv
    rw [mem_singleton] at hv
    subst hv
    exact hsource
  | @settle done z hrun hfresh hbest hmin hpref ih =>
    have hrun' := Run.settle hrun hfresh hbest hmin hpref
    have hall := ih hex.tail
    intro v hv
    rcases mem_cons.mp hv with rfl | hv
    · exact hstep done v hrun' hex (hrun'.settles hrun.ne_nil hex) hall
    · exact hall v hv

/-- A tight predecessor that is strictly nearer is settled before. -/
theorem Settles.mem_of_pos (hs : P.Settles done z) (hrun : P.Run pref (z :: done))
    (hex : P.Exact (z :: done)) {u : V} (ht : P.Tight u z.id w) (hw : 0 < w) :
    ∃ v ∈ done, v.id = u := by
  obtain ⟨-, d, hu, hz⟩ := ht
  have hd : z.dist = d + w := hex.head.unique hz
  obtain ⟨p, hp⟩ := hu.walk
  have hprev : P.Run pref done := by
    cases hrun with
    | start =>
      obtain ⟨v, hv, -⟩ := hs.pred
      cases hv
    | settle hrun _ _ _ _ => exact hrun
  have hlt := hs.lt_bound
  obtain ⟨v, hv, hid, -⟩ := hprev.settled_of_walk_lt hs.nearer hp (by omega) (by omega)
  exact ⟨v, hv, hid⟩

variable (hL : P.HopLabels hop)

include hL

/-- **A label holds first hops only**, and an empty one means that there is a walk without hops. -/
theorem Run.reachedVia_of_mem (h : P.Run pref done) (hex : P.Exact done) :
    ∀ v ∈ done, (∀ x ∈ v.label, P.ReachedVia hop x v.id) ∧ (v.label = ∅ → P.Direct hop v.id) := by
  refine h.forall_of_settles hex ⟨fun x hx => absurd hx (Finset.notMem_empty x),
    fun _ => ⟨[], ⟨0, .nil, P.isDist_source⟩, rfl⟩⟩ fun done z _ _ hs ih =>
      ⟨fun x hx => ?_, fun hempty => ?_⟩
  · obtain ⟨u, hu, ⟨w, ht⟩, hx⟩ := (hs.mem_label x).mp hx
    by_cases hlabel : u.label = ∅
    · rw [hlabel] at hx
      exact ((ih u hu).2 hlabel).reachedVia ht ((hL.introduce u.id z.id x hs.ne_source).mp hx)
    · rw [hL.inherit u.id u.label z.id hs.ne_source hlabel] at hx
      exact ((ih u hu).1 x hx).snoc ht
  · obtain ⟨u, hu, w, ht⟩ := hs.pred
    have hnone (x : X) : x ∉ P.via u.id u.label z.id := by
      intro hx
      have hmem : x ∈ z.label := (hs.mem_label x).mpr ⟨u, hu, ⟨w, ht⟩, hx⟩
      rw [hempty] at hmem
      exact Finset.notMem_empty x hmem
    have hlabel : u.label = ∅ := by
      by_contra hne
      obtain ⟨x, hx⟩ := Finset.nonempty_iff_ne_empty.mpr hne
      exact hnone x (by rwa [hL.inherit u.id u.label z.id hs.ne_source hne])
    refine ((ih u hu).2 hlabel).snoc ht ?_
    cases hz : hop z.id with
    | none => rfl
    | some y =>
      refine absurd ((hL.introduce u.id z.id y hs.ne_source).mpr hz) ?_
      rw [← hlabel]
      exact hnone y

/-- A hop never has an empty label. -/
theorem Run.label_ne_empty (h : P.Run pref done) (hex : P.Exact done) (hv : v ∈ done)
    (hhop : hop v.id = some y) : v.label ≠ ∅ := by
  intro hempty
  have := ((h.reachedVia_of_mem hL hex v hv).2 hempty).hop_eq_none hL
  rw [hhop] at this
  cases this

/-- A vertex no shortest walk with a hop leads to has an empty label. -/
theorem Run.label_eq_empty (h : P.Run pref done) (hex : P.Exact done) (hv : v ∈ done)
    (hclean : ¬ P.Tainted hop v.id) : v.label = ∅ :=
  Finset.eq_empty_of_forall_notMem fun x hx =>
    hclean ⟨x, (h.reachedVia_of_mem hL hex v hv).1 x hx⟩

/-- What a settled predecessor hands on. -/
theorem Settles.mem_of_pred (hs : P.Settles done z) (hu : u ∈ done) (ht : P.Tight u.id z.id w)
    (hx : x ∈ u.label) : x ∈ z.label := by
  refine (hs.mem_label x).mpr ⟨u, hu, ⟨w, ht⟩, ?_⟩
  rw [hL.inherit u.id u.label z.id hs.ne_source (Finset.ne_empty_of_mem hx)]
  exact hx

theorem Settles.mem_of_empty_pred (hs : P.Settles done z) (hu : u ∈ done) (ht : P.Tight u.id z.id w)
    (hempty : u.label = ∅) (hz : hop z.id = some x) : x ∈ z.label := by
  refine (hs.mem_label x).mpr ⟨u, hu, ⟨w, ht⟩, ?_⟩
  rw [hempty]
  exact (hL.introduce u.id z.id x hs.ne_source).mpr hz

end Labels

/-! ## Hops that no run misses -/

/-- Whichever predecessor of `v` is settled first, `v` counts as its own first hop if it is one:
either nothing but clean predecessors exists, or a strictly nearer one is clean. -/
def IntroducedAt (hop : V → Option X) (v : V) : Prop :=
  (∃ u w, P.Tight u v w ∧ P.Direct hop u) → (∀ u w, P.Tight u v w → ¬ P.Tainted hop u) ∨
      ∃ u w, 0 < w ∧ P.Tight u v w ∧ ¬ P.Tainted hop u

/-- `v` may be settled before it hears of `x`: the strictly nearer predecessors have not heard of
it, and neither has one that `v` may be reached from. -/
inductive Avoids (P : Search V X) (hop : V → Option X) (x : X) : V → Prop where
  | source : Avoids P hop x P.source
  | step {u v : V} {w : ℕ} (hv : hop v ≠ some x) (ht : P.Tight u v w) (hu : Avoids P hop x u)
      (hall : ∀ u' w', 0 < w' → P.Tight u' v w' → Avoids P hop x u') : Avoids P hop x v

/-- The graph leaves no run a choice about the first hops of a hop within reach. -/
structure HopsUnavoidable (P : Search V X) (hop : V → Option X) : Prop where
  /-- Its own. -/
  own : ∀ v y d, hop v = some y → P.IsDist v d → d < P.bound → P.IntroducedAt hop v
  /-- The others. -/
  others : ∀ v y d x, hop v = some y → P.IsDist v d → d < P.bound → P.ReachedVia hop x v → x ≠ y →
    ¬ P.Avoids hop x v

section Found

variable {P : Search V X} {hop : V → Option X} {pref : V → Finset X → Prop}
  {done : List (Visit V X)} {v z : Visit V X} {x y : X}

theorem Avoids.hop_ne (hL : P.HopLabels hop) {n : V} (h : P.Avoids hop x n) : hop n ≠ some x := by
  cases h with
  | source =>
    rw [hL.source]
    exact fun heq => by cases heq
  | step hv _ _ _ => exact hv

theorem Avoids.of_pos {n : V} (hne : n ≠ P.source) (h : P.Avoids hop x n) {u : V} (hw : 0 < w)
    (ht : P.Tight u n w) : P.Avoids hop x u := by
  cases h with
  | source => exact absurd rfl hne
  | step _ _ _ hall => exact hall u w hw ht

/-- A vertex that is its own first hop says so. -/
theorem Settles.mem_self (hL : P.HopLabels hop) (hs : P.Settles done z)
    (hrun : P.Run pref (z :: done)) (hex : P.Exact (z :: done)) (hz : hop z.id = some y)
    (hintro : P.IntroducedAt hop z.id) (hpred : ∃ u w, P.Tight u z.id w ∧ P.Direct hop u) :
    y ∈ z.label := by
  have hlabel (u : Visit V X) (hu : u ∈ done) (hclean : ¬ P.Tainted hop u.id) : u.label = ∅ :=
    hrun.label_eq_empty hL hex (mem_cons_of_mem _ hu) hclean
  rcases hintro hpred with hall | ⟨u, w, hw, ht, hclean⟩
  · obtain ⟨u, hu, w, ht⟩ := hs.pred
    exact hs.mem_of_empty_pred hL hu ht (hlabel u hu (hall u.id w ht)) hz
  · obtain ⟨u, hu, rfl⟩ := hs.mem_of_pos hrun hex ht hw
    exact hs.mem_of_empty_pred hL hu ht (hlabel u hu hclean) hz

/-- **No run misses a hop that cannot be avoided.** -/
theorem Run.mem_label_of_unavoidable (hL : P.HopLabels hop)
    (hown : ∀ r d, hop r = some x → P.IsDist r d → d < P.bound →
      P.IntroducedAt hop r ∧ ∃ u w, P.Tight u r w ∧ P.Direct hop u) (h : P.Run pref done)
    (hex : P.Exact done) : ∀ v ∈ done, ¬ P.Avoids hop x v.id → x ∈ v.label := by
  refine h.forall_of_settles hex (fun hnot => absurd .source hnot) ?_
  intro done z hrun hex hs ih hnot
  by_cases hz : hop z.id = some x
  · obtain ⟨hintro, hpred⟩ := hown z.id z.dist hz hex.head hs.lt_bound
    exact hs.mem_self hL hrun hex hz hintro hpred
  obtain ⟨u, hu, w, ht⟩ := hs.pred
  by_cases havoid : P.Avoids hop x u.id
  · -- then some strictly nearer predecessor cannot avoid the hop
    have hsome : ∃ u' w', 0 < w' ∧ P.Tight u' z.id w' ∧ ¬ P.Avoids hop x u' := by
      by_contra hnone
      push Not at hnone
      exact hnot (.step hz ht havoid hnone)
    obtain ⟨u', w', hw', ht', hnot'⟩ := hsome
    obtain ⟨u', hu', rfl⟩ := hs.mem_of_pos hrun hex ht' hw'
    exact hs.mem_of_pred hL hu' ht' (ih u' hu' hnot')
  · exact hs.mem_of_pred hL hu ht (ih u hu havoid)

/-- **Where no hop can be avoided a label is the set of first hops.** -/
theorem Run.mem_label_iff (hL : P.HopLabels hop) (hU : P.HopsUnavoidable hop) (h : P.Run pref done)
    (hex : P.Exact done) (hb : 0 < P.bound) (hv : v ∈ done) (hhop : hop v.id = some y) :
    x ∈ v.label ↔ P.ReachedVia hop x v.id := by
  refine ⟨(h.reachedVia_of_mem hL hex v hv).1 x, fun hx => ?_⟩
  have hlt := (h.walk hb hv).2
  obtain ⟨r, u, w, hr, ht, hdirect⟩ := hx.origin
  have hown (r' : V) (d : ℕ) (hr' : hop r' = some x) (hd : P.IsDist r' d) (hdlt : d < P.bound) :
      P.IntroducedAt hop r' ∧ ∃ u w, P.Tight u r' w ∧ P.Direct hop u := by
    obtain rfl := hL.inj r r' x hr hr'
    exact ⟨hU.own r x d hr hd hdlt, u, w, ht, hdirect⟩
  refine h.mem_label_of_unavoidable hL hown hex v hv ?_
  by_cases hxy : x = y
  · intro havoid
    exact havoid.hop_ne hL (hxy ▸ hhop)
  · exact hU.others v.id y v.dist x hhop (hex v hv) hlt hx hxy

end Found

/-! ## Hops that some run misses -/

section Missed

variable {P : Search V X} {hop : V → Option X} {pref : V → Finset X → Prop}
  {done : List (Visit V X)} {u v z : Visit V X} {x y : X}

variable {n : V}

theorem Run.prev (h : P.Run pref (z :: done)) (hne : done ≠ []) : P.Run pref done := by
  cases h with
  | start => exact absurd rfl hne
  | settle hrun _ _ _ _ => exact hrun

/-- A fresh vertex with a tight settled predecessor, no farther than the vertex settled next, has a
best offer at the same distance, and the one settled next was preferred to it. -/
theorem Run.best_of_fresh (h : P.Run pref (z :: done)) (hs : P.Settles done z)
    (hex : P.Exact (z :: done)) (hu : u ∈ done) (ht : P.Tight u.id n w) (hfresh : Fresh done n)
    (hn : P.IsDist n d) (hle : d ≤ z.dist) :
    d = z.dist ∧ ∃ l, (∀ x, x ∈ l ↔ ∃ u ∈ done, (∃ w, P.Tight u.id n w) ∧
      x ∈ P.via u.id u.label n) ∧ (pref n l → pref z.id z.label) := by
  classical
  have hcost {u' : Visit V X} {w' : ℕ} (hu' : u' ∈ done) (ht' : P.Tight u'.id n w') :
      u'.dist + w' = d := (ht'.dist (hex.tail u' hu')).unique hn
  have hlt := hs.lt_bound
  have hmem : (u.dist + w, P.via u.id u.label n) ∈ P.offers done n :=
    ⟨u, hu, w, ht.1, by rw [hcost hu ht]; omega, rfl⟩
  have hge := hs.nearer n _ _ hfresh hmem
  have hd : d = z.dist := by
    rw [hcost hu ht] at hge
    omega
  refine ⟨hd, ?_⟩
  obtain ⟨o, ho⟩ := exists_bestOf_offers P done n
  cases o with
  | none =>
    have hempty : P.offers done n = ∅ := ho
    rw [hempty] at hmem
    exact hmem.elim
  | some e =>
    have hbest : IsBest (P.offers done n) e.1 e.2 := ho
    have he : e.1 = z.dist := by
      obtain ⟨m, hm⟩ := hbest.attained
      have h1 := hs.nearer n _ _ hfresh hm
      have h2 := hbest.least _ _ hmem
      rw [hcost hu ht] at h2
      omega
    refine ⟨e.2, fun x => ?_, ?_⟩
    · rw [hbest.label]
      constructor
      · rintro ⟨m, ⟨u', hu', w', he', hlt', heq⟩, hx⟩
        obtain ⟨hd', rfl⟩ := Prod.mk.inj heq
        refine ⟨u', hu', ⟨w', he', u'.dist, hex.tail u' hu', ?_⟩, hx⟩
        rw [← hd', he, ← hd]
        exact hn
      · rintro ⟨u', hu', ⟨w', ht'⟩, hx⟩
        refine ⟨_, ⟨u', hu', w', ht'.1, by rw [hcost hu' ht']; omega, ?_⟩, hx⟩
        rw [hcost hu' ht', he, hd]
    · cases h with
      | start => cases hu
      | settle _ _ _ _ hpref => exact hpref n e.2 hfresh (he ▸ hbest)

/-- What a run that prefers vertices without `x` knows about the vertices that may avoid `x`. -/
structure Dodges (P : Search V X) (hop : V → Option X) (x : X) (done : List (Visit V X)) :
    Prop where
  /-- They have avoided it. -/
  clean : ∀ v ∈ done, P.Avoids hop x v.id → x ∉ v.label
  /-- They go first. -/
  first : ∀ u ∈ done, x ∈ u.label → ∀ n d, P.Avoids hop x n → P.IsDist n d → d ≤ u.dist →
    ¬ Fresh done n

theorem Dodges.via_notMem (hL : P.HopLabels hop) (h : P.Dodges hop x done) (hex : P.Exact done)
    (havoid : P.Avoids hop x n) (hn : P.IsDist n d) (hne : n ≠ P.source) (hfresh : Fresh done n)
    (hu : u ∈ done) (ht : P.Tight u.id n w) : x ∉ P.via u.id u.label n := by
  intro hx
  by_cases hlabel : u.label = ∅
  · rw [hlabel] at hx
    exact havoid.hop_ne hL ((hL.introduce u.id n x hne).mp hx)
  rw [hL.inherit u.id u.label n hne hlabel] at hx
  have hd : d = u.dist + w := hn.unique (ht.dist (hex u hu))
  by_cases hw : 0 < w
  · exact h.clean u hu (havoid.of_pos hne hw ht) hx
  · exact h.first u hu hx n d havoid hn (by omega) hfresh

/-- **A run that prefers vertices without `x` dodges `x` wherever it can be avoided.** -/
theorem Run.dodges (hL : P.HopLabels hop) (h : P.Run (fun _ l => x ∉ l) done) (hex : P.Exact done) :
    P.Dodges hop x done := by
  induction h with
  | start =>
    refine ⟨fun v hv _ => ?_, fun u hu hx => ?_⟩
    · rw [mem_singleton.mp hv]
      exact Finset.notMem_empty x
    · rw [mem_singleton.mp hu] at hx
      exact absurd hx (Finset.notMem_empty x)
  | @settle done z hrun hfresh hbest hmin hpref ih =>
    have hrun' := Run.settle hrun hfresh hbest hmin hpref
    have hs := hrun'.settles hrun.ne_nil hex
    have hdodge := ih hex.tail
    refine ⟨fun v hv havoid => ?_, fun u hu hx n d havoid hn hle hfn => ?_⟩
    · rcases mem_cons.mp hv with rfl | hv
      · intro hx
        obtain ⟨u, hu, ⟨w, ht⟩, hx⟩ := (hs.mem_label x).mp hx
        exact hdodge.via_notMem hL hex.tail havoid hex.head hs.ne_source hfresh hu ht hx
      · exact hdodge.clean v hv havoid
    · rcases mem_cons.mp hu with rfl | hu
      · -- what may avoid `x` and is no farther than the vertex with `x` has been settled before
        have hsettled : ∀ n, P.Avoids hop x n → ∀ d, P.IsDist n d → d ≤ u.dist →
            ¬ Fresh done n := by
          intro n havoid
          induction havoid with
          | source => exact fun _ _ _ hfresh => hfresh _ hrun.source_mem rfl
          | @step b n w hv ht hb hall ihb _ =>
            intro d hn hle hfn
            obtain ⟨-, db, hdb, hdn⟩ := id ht
            have hd := hn.unique hdn
            obtain ⟨b, hb', rfl⟩ := not_fresh_iff.mp (ihb db hdb (by omega))
            have hne : n ≠ P.source := fun heq => hfn _ hrun.source_mem heq.symm
            obtain ⟨-, l, hl, hpref'⟩ := hrun'.best_of_fresh hs hex hb' ht hfn hn hle
            refine hpref' (fun hxl => ?_) hx
            obtain ⟨u', hu', ⟨w', ht'⟩, hx'⟩ := (hl x).mp hxl
            exact hdodge.via_notMem hL hex.tail (.step hv ht hb hall) hn hne hfn hu' ht' hx'
        exact hsettled n havoid d hn hle hfn.of_cons
      · exact hdodge.first u hu hx n d havoid hn hle hfn.of_cons

theorem not_introducedAt : ¬ P.IntroducedAt hop n ↔
    (∃ u w, P.Tight u n w ∧ P.Direct hop u) ∧ (∃ u w, P.Tight u n w ∧ P.Tainted hop u) ∧
      ∀ u w, 0 < w → P.Tight u n w → P.Tainted hop u := by
  unfold IntroducedAt
  push Not
  rfl

/-- Before a vertex with an empty label is settled, a run that prefers labels has settled whatever
lies behind a hop and is no farther. -/
theorem Run.settled_of_tainted (hL : P.HopLabels hop) (hpos : P.PositiveHops hop)
    (h : P.Run (fun _ l => l ≠ ∅) (z :: done)) (hs : P.Settles done z) (hex : P.Exact (z :: done))
    (hinv : ∀ v ∈ done, P.Tainted hop v.id → v.label ≠ ∅) (hempty : z.label = ∅)
    (hx : P.ReachedVia hop x n) (hc : P.IsDist n c) (hle : c ≤ z.dist)
    (hlt : hop n ≠ none → c < z.dist) : ¬ Fresh done n := by
  obtain ⟨p, ⟨c', hp, hc'⟩, hx⟩ := hx
  obtain rfl := hc.unique hc'
  clear hc'
  have hprev : P.Run (fun _ l => l ≠ ∅) done := by
    refine h.prev ?_
    rintro rfl
    obtain ⟨_, hu, -⟩ := hs.pred
    cases hu
  have hbound := hs.lt_bound
  induction hp with
  | nil => cases hx
  | @snoc p b n c w hp he ih =>
    have hb := IsDist.of_snoc hp he hc
    have ht : P.Tight b n w := ⟨he, c, hb, hc⟩
    by_cases hnear : c + w < z.dist
    · obtain ⟨v, hv, hid, -⟩ := hprev.settled_of_walk_lt hs.nearer (hp.snoc he) hnear (by omega)
      exact not_fresh_iff.mpr ⟨v, hv, hid⟩
    have hn : hop n = none := by
      by_contra hne
      exact hnear (hlt hne)
    have hx' : p.findSome? hop = some x := by simpa [findSome?_append, hn] using hx
    have hnot : ¬ Fresh done b := by
      refine ih hb (by omega) (fun hne => ?_) hx'
      have := hpos b n w (.inr hne) he
      omega
    obtain ⟨b, hbmem, rfl⟩ := not_fresh_iff.mp hnot
    intro hfn
    have hsource : n ≠ P.source := fun heq => hfn _ hprev.source_mem heq.symm
    have hlabel : b.label ≠ ∅ := hinv b hbmem ⟨x, p, ⟨c, hp, hb⟩, hx'⟩
    obtain ⟨-, l, hl, hpref⟩ := h.best_of_fresh hs hex hbmem ht hfn hc hle
    obtain ⟨y, hy⟩ := Finset.nonempty_iff_ne_empty.mpr hlabel
    have hyl : y ∈ l := by
      refine (hl y).mpr ⟨b, hbmem, ⟨w, ht⟩, ?_⟩
      rw [hL.inherit b.id b.label n hsource hlabel]
      exact hy
    exact hpref (Finset.ne_empty_of_mem hyl) hempty

/-- A run that prefers labels leaves none empty that could be filled. -/
theorem Run.label_ne_empty_of_tainted (hL : P.HopLabels hop) (hpos : P.PositiveHops hop)
    (h : P.Run (fun _ l => l ≠ ∅) done) (hex : P.Exact done) :
    ∀ v ∈ done, P.Tainted hop v.id → v.label ≠ ∅ := by
  refine h.forall_of_settles hex (fun ht => absurd ht (not_tainted_source hpos)) ?_
  intro done z hrun hex hs ih ht hempty
  have hz : hop z.id = none := by
    cases hz : hop z.id with
    | none => rfl
    | some y => exact absurd hempty (hrun.label_ne_empty hL hex mem_cons_self hz)
  obtain ⟨x, hx⟩ := ht
  obtain ⟨u, w, ht, hx⟩ := hx.cases_pred
  have hxu : P.ReachedVia hop x u := by
    rcases hx with hx | ⟨-, hx⟩
    · exact hx
    · rw [hz] at hx
      cases hx
  obtain ⟨he, d, hu, hd⟩ := id ht
  have hdz := hex.head.unique hd
  have hnot : ¬ Fresh done u := by
    refine hrun.settled_of_tainted hL hpos hs hex ih hempty hxu hu (by omega) fun hne => ?_
    have := hpos u z.id w (.inr hne) he
    omega
  obtain ⟨u, hmem, rfl⟩ := not_fresh_iff.mp hnot
  obtain ⟨y, hy⟩ := Finset.nonempty_iff_ne_empty.mpr (ih u hmem ⟨x, hxu⟩)
  exact Finset.ne_empty_of_mem (hs.mem_of_pred hL hmem ht hy) hempty

theorem Exact.of_subset {done' : List (Visit V X)} (h : P.Exact done) (hsub : done' ⊆ done) :
    P.Exact done' :=
  fun v hv => h v (hsub hv)

theorem Run.not_nil_of_ne_source (h : P.Run pref (z :: done)) (hne : z.id ≠ P.source) :
    done ≠ [] := by
  rintro rfl
  cases h with
  | start => exact hne rfl
  | settle h _ _ _ _ => exact h.ne_nil rfl

/-- **A run that prefers labels misses that a vertex is its own first hop** where the graph lets
it. -/
theorem Run.not_mem_label_of_tainted (hL : P.HopLabels hop) (hpos : P.PositiveHops hop)
    (h : P.Run (fun _ l => l ≠ ∅) done) (hex : P.Exact done) (hv : v ∈ done)
    (hhop : hop v.id = some y) (hnot : ¬ P.IntroducedAt hop v.id) : y ∉ v.label := by
  obtain ⟨-, hsome, hnear⟩ := not_introducedAt.mp hnot
  obtain ⟨pre, hrun, hsub⟩ := h.prefix_of_mem hv
  have hexv : P.Exact (v :: pre) := hex.of_subset (cons_subset.mpr ⟨hv, hsub⟩)
  have hne : v.id ≠ P.source := by
    intro heq
    rw [heq, hL.source] at hhop
    cases hhop
  have hs := hrun.settles (hrun.not_nil_of_ne_source hne) hexv
  intro hy
  obtain ⟨u, hu, ⟨w, ht⟩, hy⟩ := (hs.mem_label y).mp hy
  have hd : v.dist = u.dist + w := hexv.head.unique (ht.dist (hexv.tail u hu))
  by_cases hlabel : u.label = ∅
  · -- `u` is clean, so it is no nearer than `v`, and was settled although `v` was on offer
    have hprev := hrun.prev (hrun.not_nil_of_ne_source hne)
    have hclean : ¬ P.Tainted hop u.id := fun htaint =>
      hprev.label_ne_empty_of_tainted hL hpos hexv.tail u hu htaint hlabel
    have hw : w = 0 := by
      by_contra hw
      exact hclean (hnear u.id w (Nat.pos_of_ne_zero hw) ht)
    have hune : u.id ≠ P.source := by
      intro heq
      have := hpos u.id v.id w (.inl heq) ht.1
      omega
    obtain ⟨pre', hrun', hsub'⟩ := hprev.prefix_of_mem hu
    have hexu : P.Exact (u :: pre') := hexv.tail.of_subset (cons_subset.mpr ⟨hu, hsub'⟩)
    have hs' := hrun'.settles (hrun'.not_nil_of_ne_source hune) hexu
    have hinv := (hrun'.prev (hrun'.not_nil_of_ne_source hune)).label_ne_empty_of_tainted hL hpos
      hexu.tail
    obtain ⟨b, wb, htb, x, hx⟩ := hsome
    obtain ⟨he, db, hdb, hdv⟩ := id htb
    have hvd := hexv.head.unique hdv
    have hnot : ¬ Fresh pre' b := by
      refine hrun'.settled_of_tainted hL hpos hs' hexu hinv hlabel hx hdb (by omega) fun hne => ?_
      have := hpos b v.id wb (.inr hne) he
      omega
    obtain ⟨b, hb, rfl⟩ := not_fresh_iff.mp hnot
    have hfresh : Fresh pre' v.id := fun k hk => hs.fresh k (hsub' hk)
    obtain ⟨-, l, hl, hpref⟩ := hrun'.best_of_fresh hs' hexu hb htb hfresh hexv.head (by omega)
    have hblabel := hinv b hb ⟨x, hx⟩
    obtain ⟨x', hx'⟩ := Finset.nonempty_iff_ne_empty.mpr hblabel
    have hmem : x' ∈ l := by
      refine (hl x').mpr ⟨b, hb, ⟨wb, htb⟩, ?_⟩
      rw [hL.inherit b.id b.label v.id hne hblabel]
      exact hx'
    exact hpref (Finset.ne_empty_of_mem hmem) hlabel
  · -- then `v` would lie on the way to its own predecessor
    rw [hL.inherit u.id u.label v.id hne hlabel] at hy
    have hvia := (hrun.reachedVia_of_mem hL hexv u (mem_cons_of_mem _ hu)).1 y hy
    have := hvia.dist_lt hL hpos hhop (hs.fresh u hu) hexv.head (hexv.tail u hu)
    omega

/-- **If every run finds every first hop, the graph leaves none a choice.** -/
theorem hopsUnavoidable_of_runs [DecidableEq X] (hL : P.HopLabels hop) (hpos : P.PositiveHops hop)
    (hb : 0 < P.bound) (hruns : ∀ pref : Finset X → Bool, ∃ fin,
      P.Run (fun _ l => pref l = true) fin ∧ P.Complete fin ∧
        ∀ v ∈ fin, ∀ y, hop v.id = some y → ∀ x, P.ReachedVia hop x v.id → x ∈ v.label) :
    P.HopsUnavoidable hop := by
  constructor
  · intro n y d hn hd hlt
    obtain ⟨fin, hrun, hcomplete, hall⟩ := hruns fun l => decide (l ≠ ∅)
    simp only [decide_eq_true_eq] at hrun
    obtain ⟨p, hp⟩ := hd.walk
    obtain ⟨v, hv, rfl, -⟩ := hrun.settled_of_walk hcomplete hp hlt
    have hex := hrun.exact hcomplete hb
    by_contra hnot
    obtain ⟨⟨u, w, ht, hdirect⟩, -⟩ := not_introducedAt.mp hnot
    exact hrun.not_mem_label_of_tainted hL hpos hex hv hn hnot
      (hall v hv y hn y (hdirect.reachedVia ht hn))
  · intro n y d x hn hd hlt hx _ havoid
    obtain ⟨fin, hrun, hcomplete, hall⟩ := hruns fun l => decide (x ∉ l)
    simp only [decide_eq_true_eq] at hrun
    obtain ⟨p, hp⟩ := hd.walk
    obtain ⟨v, hv, rfl, -⟩ := hrun.settled_of_walk hcomplete hp hlt
    have hex := hrun.exact hcomplete hb
    exact (hrun.dodges hL hex).clean v hv havoid (hall v hv y hn x hx)

end Missed

end Search

end Goisis.Lib
