import Goisis.Server.Ecmp
import Goisis.Server.SameLinks

/-!
# The attached default beside an advertised one

A Level-1-only system sends what its area does not reach towards the nearest attached router
(`addAttachedDefault`, `pkg/server/spf.go`). The synthesized default carries the up/down bit, which
is to rank it below every advertised route. A default leaked into the area carries the bit as well,
so the two share a preference class and the metric decides between them.

* `Advertised`, `IsExit` — who advertises a default, and who is an exit of the area;
* `detached` — the same database with every attached bit cleared;
* `attached_default_iff` — the default is the one without attached bits exactly when every exit is
  farther than an advertised default or adds no first hop to it; without an advertised default it
  leads to the nearest exits;
* `leaked_default_outranked` — a leaked default that loses to a nearer exit.
-/

namespace Goisis.Server

open Lib Packet IsisServer Route Option

variable {s : IsisServer} {o : SpfOrder} {aff : FlexAlgoAffinity} {now : Int} {n : NodeID} {d : ℕ}
  {v : SpfVisit} {p : Prefix} {down : Bool} {l : Finset SystemID} {r' : Route}

/-! ## Advertisers and exits -/

section Area

variable (s : IsisServer) (o : SpfOrder) (aff : FlexAlgoAffinity) (now : Int)

/-- A router other than this one that is attached and not overloaded. -/
structure IsisServer.IsExit (n : NodeID) : Prop where
  router : n.pseudonodeID = 0
  other : n ≠ realNode s.systemID
  attached : ∃ node, (s.buildTopology .level1 0 aff now).lookup n = some node ∧
    node.attached = true ∧ node.overload = false

/-- The least cost of an admissible path to `n`, below the ceiling. -/
structure IsisServer.Distance (n : NodeID) (d : ℕ) : Prop where
  path : ∃ p, AdmissiblePath (s.buildTopology .level1 0 aff now) (realNode s.systemID) p n d
  least : ∀ p c, AdmissiblePath (s.buildTopology .level1 0 aff now) (realNode s.systemID) p n c →
    d ≤ c
  below : d < maxPathMetric

/-- A reachable node other than this one, with first hops `l`, advertises `p` with the bit `down` at
total metric `m` below the ceiling. -/
def IsisServer.Advertised (p : Prefix) (down : Bool) (m : ℕ) (l : Finset SystemID) : Prop :=
  ∃ v ∈ s.spfDone o .level1 0 aff now, v.id ≠ realNode s.systemID ∧ v.label ≠ ∅ ∧
    ∃ d, s.Distance aff now v.id d ∧
      ∃ node, (s.buildTopology .level1 0 aff now).lookup v.id = some node ∧
        ∃ q ∈ node.prefixes, q.pfx = p ∧ q.down = down ∧ m = d + q.metric.toNat ∧
          m < maxPathMetric ∧ l = v.label

/-- What `addAttachedDefault` picks from. -/
def IsisServer.exits : Set (ℕ × Finset SystemID) :=
  attachedExits (s.buildTopology .level1 0 aff now) (s.spfDone o .level1 0 aff now)

theorem IsisServer.exits_best : s.exits o aff now = ∅ ∨ ∃ d l, IsBest (s.exits o aff now) d l := by
  have hnear := bestOf_nearestAttached (s.buildTopology .level1 0 aff now)
    (s.spfDone o .level1 0 aff now)
  cases hres : nearestAttached (s.buildTopology .level1 0 aff now)
    (s.spfDone o .level1 0 aff now) with
  | none =>
    rw [hres] at hnear
    exact .inl hnear
  | some best =>
    rw [hres] at hnear
    exact .inr ⟨best.1, best.2, hnear⟩

end Area

/-! ## Distances -/

/-- The recorded distances are the distances. -/
theorem distance_iff (h : s.LinkMetricsBelow .level1 (2 ^ 24)) (o : SpfOrder) :
    s.Distance aff now n d ↔ ∃ v ∈ s.spfDone o .level1 0 aff now, v.id = n ∧ v.dist = d := by
  constructor
  · rintro ⟨⟨p, hp⟩, hleast, hbelow⟩
    obtain ⟨v, hv, rfl⟩ := exists_visit_of_admissible (o := o) h hp hbelow
    obtain ⟨⟨q, hq⟩, hle⟩ := admissible_of_mem_spfDone h hv
    exact ⟨v, hv, rfl, Nat.le_antisymm (hle p d hp) (hleast q _ hq)⟩
  · rintro ⟨v, hv, rfl, rfl⟩
    obtain ⟨hpath, hleast⟩ := admissible_of_mem_spfDone h hv
    exact ⟨hpath, hleast, dist_lt_of_mem_spfDone h hv⟩

theorem IsisServer.Distance.unique {d' : ℕ} (hd : s.Distance aff now n d)
    (hd' : s.Distance aff now n d') : d = d' := by
  obtain ⟨q, hq⟩ := hd.path
  obtain ⟨q', hq'⟩ := hd'.path
  exact Nat.le_antisymm (hd.least q' _ hq') (hd'.least q _ hq)

theorem distance_visit (h : s.LinkMetricsBelow .level1 (2 ^ 24))
    (hv : v ∈ s.spfDone o .level1 0 aff now) : s.Distance aff now v.id v.dist :=
  (distance_iff h o).mpr ⟨v, hv, rfl, rfl⟩

/-! ## Without the attached bits -/

/-- The entry with its attached bits cleared; its octets and checksum are not read by SPF and are
dropped with them. -/
def LspEntry.detached (e : LspEntry) : LspEntry :=
  { e with
    raw := []
    lsp := { e.lsp with
      checksum := 0
      attError := false
      attExpense := false
      attDelay := false
      attDefault := false } }

/-- The database with every attached bit cleared. -/
def LSDB.detached (db : LSDB) : LSDB := db.mapVal LspEntry.detached

/-- The server over such a database. -/
def IsisServer.detached (s : IsisServer) : IsisServer :=
  { s with dbs := fun level => (s.dbs level).map LSDB.detached }

theorem nodeTLVs_detached {db : LSDB} (nid : NodeID) :
    nodeTLVs db.detached nid now = nodeTLVs db nid now := by
  unfold nodeTLVs LSDB.detached Map.mapVal
  rw [List.filter_map, List.flatMap_map]
  rfl

/-- Only the attached bits of the graph change. -/
theorem lookup_buildTopology_detached (nid : NodeID) :
    (s.detached.buildTopology .level1 0 aff now).lookup nid =
      ((s.buildTopology .level1 0 aff now).lookup nid).map fun node =>
        { node with attached := false } := by
  cases hdb : s.dbs .level1 with
  | none =>
    have hdb' : s.detached.dbs .level1 = none := by simp [detached, hdb]
    unfold buildTopology
    rw [hdb, hdb']
    rfl
  | some db =>
    have hdb' : s.detached.dbs .level1 = some db.detached := by simp [detached, hdb]
    rw [lookup_buildTopology_eq hdb', lookup_buildTopology_eq hdb, map_map]
    have hlookup : db.detached.lookup ⟨nid, 0⟩ = (db.lookup ⟨nid, 0⟩).map LspEntry.detached :=
      Map.lookup_mapVal _ _ _
    rw [hlookup]
    cases db.lookup ⟨nid, 0⟩ with
    | none => rfl
    | some e =>
      have hadm : admitted 0 now ⟨nid, 0⟩ e.detached = admitted 0 now ⟨nid, 0⟩ e := rfl
      rw [map_some, filter_some, filter_some, hadm]
      split
      · simp only [map_some, Function.comp_apply, topologyNode, nodeTLVs_detached]
        rfl
      · rfl

/-- **The walk does not read the attached bits.** -/
theorem spfDone_detached :
    s.detached.spfDone o .level1 0 aff now = s.spfDone o .level1 0 aff now := by
  refine spfVisits_sameLinks (fun nid => ?_) _
  rw [lookup_buildTopology_detached, map_map]
  rfl

theorem linkMetricsBelow_detached {bound : ℕ} (h : s.LinkMetricsBelow .level1 bound) :
    s.detached.LinkMetricsBelow .level1 bound := by
  intro id e he nb hnb
  obtain ⟨db, hdb, he⟩ := bind_eq_some_iff.mp he
  obtain ⟨db, hdb', rfl⟩ := map_eq_some_iff.mp hdb
  have hlookup : db.detached.lookup id = (db.lookup id).map LspEntry.detached :=
    Map.lookup_mapVal _ _ _
  rw [hlookup] at he
  obtain ⟨e', he', rfl⟩ := map_eq_some_iff.mp he
  refine h id e' ?_ nb hnb
  show (s.dbs .level1).bind _ = _
  rw [hdb']
  exact he'

/-! ## The offers of a default -/

/-- The advertised offers as `addRoute` compares them. -/
def IsisServer.advertisedEntries (s : IsisServer) (o : SpfOrder) (aff : FlexAlgoAffinity)
    (now : Int) (p : Prefix) : Set (ℕ × Finset SystemID) :=
  { x | ∃ down m l, s.Advertised o aff now p down m l ∧
    x = (rank (offerClass .level1 down) m, l) }

theorem distance_detached (h : s.LinkMetricsBelow .level1 (2 ^ 24)) :
    s.detached.Distance aff now n d ↔ s.Distance aff now n d := by
  rw [distance_iff h (.scan fun _ _ => true),
    distance_iff (linkMetricsBelow_detached h) (.scan fun _ _ => true), spfDone_detached]

theorem advertised_detached (h : s.LinkMetricsBelow .level1 (2 ^ 24)) {m : ℕ} :
    s.detached.Advertised o aff now p down m l ↔ s.Advertised o aff now p down m l := by
  unfold IsisServer.Advertised
  rw [spfDone_detached]
  refine exists_congr fun v => and_congr_right fun _ => and_congr_right fun _ =>
    and_congr_right fun _ => exists_congr fun d => and_congr (distance_detached h) ?_
  rw [lookup_buildTopology_detached]
  constructor
  · rintro ⟨_, hnode, hrest⟩
    obtain ⟨node, hlook, rfl⟩ := map_eq_some_iff.mp hnode
    exact ⟨node, hlook, hrest⟩
  · rintro ⟨node, hnode, hrest⟩
    exact ⟨_, map_eq_some_iff.mpr ⟨node, hnode, rfl⟩, hrest⟩

/-- What is offered for a default: the advertisements, and the way to the nearest exits. -/
theorem offerEntries_default (h : s.LinkMetricsBelow .level1 (2 ^ 24))
    (hlevel : s.levelCap.has .level2 = false) (hp : p = defaultV4 ∨ p = defaultV6) :
    s.offerEntries o .level1 0 aff now p = s.advertisedEntries o aff now p ∪
      { x | ∃ d l, IsBest (s.exits o aff now) d l ∧
        x = (rank (offerClass .level1 true) d, l) } := by
  have huse : s.usesAttachedDefault .level1 0 = true := by
    simp [usesAttachedDefault, hlevel]
  ext x
  constructor
  · rintro ⟨cls, m, l, hoff, rfl⟩
    cases hoff with
    | @advertised v node q hv hself hnode hlabel hq hpfx hlt =>
      exact .inl ⟨q.down, _, _, ⟨v, hv, hself, hlabel, _, distance_visit h hv, node, hnode, q, hq,
        hpfx, rfl, rfl, hlt, rfl⟩, rfl⟩
    | attachedDefault _ _ hbest => exact .inr ⟨_, _, hbest, rfl⟩
  · rintro (⟨down, m, l, ⟨v, hv, hself, hl, d, hd, node, hnode, q, hq, hpfx, rfl, rfl, hlt, rfl⟩,
      rfl⟩ | ⟨d, l, hbest, rfl⟩)
    · obtain rfl := hd.unique (distance_visit h hv)
      exact ⟨_, _, _, .advertised hv hself hnode hl hq hpfx hlt, rfl⟩
    · exact ⟨_, _, _, .attachedDefault huse hp hbest, rfl⟩

theorem exits_detached : s.detached.exits o aff now = ∅ := by
  refine Set.eq_empty_of_forall_notMem ?_
  rintro x ⟨v, -, hexit, -⟩
  unfold isAttachedExit at hexit
  rw [lookup_buildTopology_detached] at hexit
  cases hn : (s.buildTopology .level1 0 aff now).lookup v.id with
  | none =>
    rw [hn] at hexit
    cases hexit
  | some n =>
    rw [hn] at hexit
    simp at hexit

theorem offerEntries_detached (h : s.LinkMetricsBelow .level1 (2 ^ 24))
    (hlevel : s.levelCap.has .level2 = false) (hp : p = defaultV4 ∨ p = defaultV6) :
    s.detached.offerEntries o .level1 0 aff now p = s.advertisedEntries o aff now p := by
  rw [offerEntries_default (linkMetricsBelow_detached h) hlevel hp, exits_detached]
  ext x
  constructor
  · rintro (⟨down, m, l, hadv, hl⟩ | ⟨d, l, hbest, -⟩)
    · exact ⟨down, m, l, (advertised_detached h).mp hadv, hl⟩
    · obtain ⟨_, hmem⟩ := hbest.attained
      exact hmem.elim
  · rintro ⟨down, m, l, hadv, hl⟩
    exact .inl ⟨down, m, l, (advertised_detached h).mpr hadv, hl⟩

/-! ## Exits -/

/-- The exits the loop picks are the exits of the area: every router other than this one has a first
hop, and this one has none. -/
theorem isAttachedExit_iff (h : s.LinkMetricsBelow .level1 (2 ^ 24))
    (hv : v ∈ s.spfDone o .level1 0 aff now) :
    isAttachedExit (s.buildTopology .level1 0 aff now) v = true ↔ s.IsExit aff now v.id := by
  obtain ⟨self, hself⟩ := exists_self_of_mem hv
  obtain ⟨hrun, hcomplete⟩ := spfDone_run h hself
  have hexact := hrun.exact hcomplete maxPathMetric_pos
  unfold isAttachedExit
  constructor
  · intro hexit
    cases hn : (s.buildTopology .level1 0 aff now).lookup v.id with
    | none =>
      rw [hn] at hexit
      cases hexit
    | some n =>
      rw [hn] at hexit
      simp only [Bool.and_eq_true, beq_iff_eq, Bool.not_eq_true', bne_iff_ne] at hexit
      obtain ⟨⟨⟨hrouter, hatt⟩, hover⟩, hlabel⟩ := hexit
      refine ⟨hrouter, fun heq => hlabel ?_, n, hn, hatt, hover⟩
      rw [hrun.eq_of_id hv hrun.source_mem heq, Finset.card_empty]
  · rintro ⟨hrouter, hother, n, hn, hatt, hover⟩
    have hlabel : v.label ≠ ∅ := hrun.label_ne_empty (hopLabels_spfSearch _ _) hexact hv
      (firstRouter_eq_some.mpr ⟨hrouter, hother, rfl⟩)
    have hcard : v.label.card ≠ 0 := fun hcard => hlabel (Finset.card_eq_zero.mp hcard)
    rw [hn]
    simp [hrouter, hatt, hover, hcard]

theorem exists_hop_of_exit {nodes : Topology} (h : isAttachedExit nodes v = true) :
    ∃ x, x ∈ v.label := by
  unfold isAttachedExit at h
  split at h
  · cases h
  · simp only [Bool.and_eq_true, bne_iff_ne] at h
    exact Finset.card_pos.mp (Nat.pos_of_ne_zero h.2)

theorem exits_eq (h : s.LinkMetricsBelow .level1 (2 ^ 24)) :
    s.exits o aff now =
      { x | ∃ v ∈ s.spfDone o .level1 0 aff now, s.IsExit aff now v.id ∧
        x = (v.dist, v.label) } := by
  ext x
  refine exists_congr fun v => and_congr_right fun hv => ?_
  rw [isAttachedExit_iff h hv]

/-! ## Which default wins -/

/-- What decides where traffic goes: the metric and the first-hop set. -/
def Route.reach (r : Route) : UInt32 × Finset SystemID := (r.metric, r.nextHops.toFinset)

section Default

variable (s : IsisServer) (o : SpfOrder) (aff : FlexAlgoAffinity) (now : Int) (p : Prefix)

/-- The default is the one computed with every attached bit cleared. -/
def IsisServer.SameWithoutAttached : Prop :=
  ((s.computeSPF o .level1 0 aff now).lookup p).map reach =
    ((s.detached.computeSPF o .level1 0 aff now).lookup p).map reach

/-- Some default is advertised without the up/down bit, or every first hop towards an exit is beaten
or matched by an advertised default. -/
def IsisServer.ExitsYield : Prop :=
  (∃ m l, s.Advertised o aff now p false m l) ∨
    ∀ v ∈ s.spfDone o .level1 0 aff now, s.IsExit aff now v.id → ∀ d, s.Distance aff now v.id d →
      ∀ x ∈ v.label, ∃ m l, s.Advertised o aff now p true m l ∧ (m < d ∨ m = d ∧ x ∈ l)

/-- The default leads to the nearest exits. -/
structure IsisServer.NearestExits : Prop where
  routed : (∃ r, (s.computeSPF o .level1 0 aff now).lookup p = some r) ↔
    ∃ n d, s.IsExit aff now n ∧ s.Distance aff now n d
  metric : ∀ r, (s.computeSPF o .level1 0 aff now).lookup p = some r →
    (∃ n, s.IsExit aff now n ∧ s.Distance aff now n r.metric.toNat) ∧
      ∀ n d, s.IsExit aff now n → s.Distance aff now n d → r.metric.toNat ≤ d
  hops : ∀ r, (s.computeSPF o .level1 0 aff now).lookup p = some r → ∀ x, x ∈ r.nextHops ↔
    ∃ v ∈ s.spfDone o .level1 0 aff now, s.IsExit aff now v.id ∧
      s.Distance aff now v.id r.metric.toNat ∧ x ∈ v.label

end Default

section Wins

variable {m : ℕ}

theorem Advertised.lt_two_pow (h : s.Advertised o aff now p down m l) : m < 2 ^ 32 := by
  obtain ⟨v, -, -, -, d, -, node, -, q, -, -, -, -, hlt, -⟩ := h
  exact Nat.lt_trans hlt (by decide)

theorem rank_lt_rank (hm : m < 2 ^ 32) :
    rank (offerClass .level1 false) m < rank (offerClass .level1 true) d := by
  have h1 : (offerClass .level1 false).toNat = 1 := rfl
  have h3 : (offerClass .level1 true).toNat = 3 := rfl
  unfold rank
  omega

theorem rank_lt_rank_iff :
    rank (offerClass .level1 true) m < rank (offerClass .level1 true) d ↔ m < d := by
  unfold rank
  omega

theorem rank_eq_rank_iff :
    rank (offerClass .level1 true) m = rank (offerClass .level1 true) d ↔ m = d := by
  unfold rank
  omega

/-- **The pointwise condition** says that the nearest exits lose to the best advertised default or
add nothing to it. -/
theorem exitsYield_iff (h : s.LinkMetricsBelow .level1 (2 ^ 24)) {ρ : ℕ} {L : Finset SystemID}
    (hadv : IsBest (s.advertisedEntries o aff now p) ρ L) (hexit : IsBest (s.exits o aff now) d l) :
    s.ExitsYield o aff now p ↔ ρ < rank (offerClass .level1 true) d ∨
      ρ = rank (offerClass .level1 true) d ∧ l ⊆ L := by
  rw [exits_eq h] at hexit
  constructor
  · rintro (⟨m, l', hm⟩ | hall)
    · left
      exact Nat.lt_of_le_of_lt (hadv.least _ _ ⟨false, m, l', hm, rfl⟩)
        (rank_lt_rank (Advertised.lt_two_pow hm))
    · -- the nearest exit is beaten or matched
      obtain ⟨_, v, hv, hex, heq⟩ := hexit.attained
      obtain ⟨rfl, -⟩ := Prod.mk.inj heq
      obtain ⟨x, hx⟩ := exists_hop_of_exit ((isAttachedExit_iff h hv).mpr hex)
      obtain ⟨m, l', hm, hle⟩ := hall v hv hex _ (distance_visit h hv) x hx
      have hρ := hadv.least _ _ ⟨true, m, l', hm, rfl⟩
      rcases Nat.lt_or_ge ρ (rank (offerClass .level1 true) v.dist) with hlt | hge
      · exact .inl hlt
      refine .inr ⟨?_, fun y hy => ?_⟩
      · refine Nat.le_antisymm (Nat.le_trans hρ ?_) hge
        unfold rank
        omega
      · obtain ⟨_, ⟨u, hu, hexu, heq'⟩, hyu⟩ := (hexit.label y).mp hy
        obtain ⟨hd, rfl⟩ := Prod.mk.inj heq'
        obtain ⟨m', l'', hm', hle'⟩ := hall u hu hexu _ (distance_visit h hu) y hyu
        have hρ' := hadv.least _ _ ⟨true, m', l'', hm', rfl⟩
        rcases hle' with hlt | ⟨rfl, hy⟩
        · have := rank_lt_rank_iff.mpr (hd ▸ hlt)
          omega
        · refine (hadv.label y).mpr ⟨l'', ⟨true, _, l'', hm', ?_⟩, hy⟩
          rw [hd] at hge
          rw [Nat.le_antisymm hρ' hge]
  · intro hcase
    obtain ⟨_, down, m, l', hm, heq⟩ := hadv.attained
    obtain ⟨rfl, -⟩ := Prod.mk.inj heq
    cases down with
    | false => exact .inl ⟨m, l', hm⟩
    | true =>
      rw [rank_lt_rank_iff, rank_eq_rank_iff] at hcase
      refine .inr fun v hv hex e he x hx => ?_
      obtain rfl := he.unique (distance_visit h hv)
      have hd : d ≤ v.dist := hexit.least _ v.label ⟨v, hv, hex, rfl⟩
      rcases Nat.lt_or_ge m v.dist with hlt | hge
      · exact ⟨m, l', hm, .inl hlt⟩
      obtain ⟨rfl, hsub⟩ : m = d ∧ l ⊆ L := by
        rcases hcase with hlt | hboth
        · omega
        · exact hboth
      have hdist : v.dist = m := Nat.le_antisymm hge hd
      have hxl : x ∈ l := (hexit.label x).mpr ⟨v.label, ⟨v, hv, hex, by rw [hdist]⟩, hx⟩
      obtain ⟨l'', ⟨down, m', _, hm', heq'⟩, hxl''⟩ := (hadv.label x).mp (hsub hxl)
      obtain ⟨hrank, rfl⟩ := Prod.mk.inj heq'
      cases down with
      | false => exact absurd hrank.symm (Nat.ne_of_lt (rank_lt_rank (Advertised.lt_two_pow hm')))
      | true =>
        have := rank_eq_rank_iff.mp hrank
        exact ⟨m', l'', hm', .inr ⟨by omega, hxl''⟩⟩

theorem Route.reach_eq_of_entry {r : Route} (h : r.entry = r'.entry) : r.reach = r'.reach := by
  have hm := (entry_eq_iff.mp (congrArg Prod.fst h)).2
  have hl : r.nextHops.toFinset = r'.nextHops.toFinset := congrArg Prod.snd h
  unfold reach
  rw [hm, hl]

theorem map_reach_of_entry {a b : Option Route} (h : a.map entry = b.map entry) :
    a.map reach = b.map reach := by
  cases a with
  | none =>
    cases b with
    | none => rfl
    | some r' => cases h
  | some r =>
    cases b with
    | none => cases h
    | some r' => exact congrArg some (reach_eq_of_entry (some.inj h))

section Beside

variable (h : s.LinkMetricsBelow .level1 (2 ^ 24)) (hlevel : s.levelCap.has .level2 = false)
  (hp : p = defaultV4 ∨ p = defaultV6)

include h hlevel hp

/-- The entry of a default without the exits, -/
theorem bestOf_detached : BestOf (s.advertisedEntries o aff now p)
    (((s.detached.computeSPF o .level1 0 aff now).lookup p).map entry) := by
  rw [← offerEntries_detached h hlevel hp]
  exact bestOf_computeSPF (linkMetricsBelow_detached h) p

/-- and what they do to it: one more relaxation. -/
theorem entry_default (hexit : IsBest (s.exits o aff now) d l) :
    ((s.computeSPF o .level1 0 aff now).lookup p).map entry =
      relaxEntry (((s.detached.computeSPF o .level1 0 aff now).lookup p).map entry)
        (rank (offerClass .level1 true) d) l := by
  have hall := @bestOf_computeSPF s o .level1 0 aff now h p
  rw [offerEntries_default h hlevel hp] at hall
  refine hall.unique ?_
  convert (bestOf_detached h hlevel hp).relax (rank (offerClass .level1 true) d) l using 1
  ext x
  constructor
  · rintro (hx | ⟨d', l', hbest, rfl⟩)
    · exact .inr hx
    · obtain ⟨rfl, rfl⟩ := hbest.unique hexit
      exact .inl rfl
  · rintro (rfl | hx)
    · exact .inr ⟨d, l, hexit, rfl⟩
    · exact .inl hx

/-- Without exits nothing is added. -/
theorem entry_default_of_no_exit (hnone : s.exits o aff now = ∅) :
    ((s.computeSPF o .level1 0 aff now).lookup p).map entry =
      ((s.detached.computeSPF o .level1 0 aff now).lookup p).map entry := by
  have hall := @bestOf_computeSPF s o .level1 0 aff now h p
  rw [offerEntries_default h hlevel hp, hnone] at hall
  refine hall.unique ?_
  convert bestOf_detached h hlevel hp using 1
  ext x
  constructor
  · rintro (hx | ⟨d', l', hbest, -⟩)
    · exact hx
    · obtain ⟨_, hmem⟩ := hbest.attained
      exact hmem.elim
  · exact .inl

/-- **With an advertised default**, the default stays as it was when the nearest exits lose to it or
add nothing. -/
theorem sameWithoutAttached_iff (hexit : IsBest (s.exits o aff now) d l)
    (hr' : (s.detached.computeSPF o .level1 0 aff now).lookup p = some r') :
    s.SameWithoutAttached o aff now p ↔ r'.entry.1 < rank (offerClass .level1 true) d ∨
      r'.entry.1 = rank (offerClass .level1 true) d ∧ l ⊆ r'.entry.2 := by
  have hentry := entry_default h hlevel hp hexit
  have hadv : IsBest (s.advertisedEntries o aff now p) r'.entry.1 r'.entry.2 := by
    have hbest := @bestOf_detached s o aff now p h hlevel hp
    rwa [hr'] at hbest
  have hd : d < 2 ^ 32 := by
    obtain ⟨_, v, hv, -, heq⟩ := hexit.attained
    rw [(Prod.mk.inj heq).1]
    exact Nat.lt_trans (dist_lt_of_mem_spfDone h hv) (by decide)
  unfold IsisServer.SameWithoutAttached
  rw [hr', map_some] at hentry
  rw [hr', map_some]
  obtain ⟨x, hx⟩ := relaxEntry_some r'.entry (rank (offerClass .level1 true) d) l
  obtain ⟨r, hr, rfl⟩ := map_eq_some_iff.mp (hentry.trans hx)
  rw [hr, map_some, some_inj]
  rcases Nat.lt_trichotomy (rank (offerClass .level1 true) d) r'.entry.1 with hlt | heq | hgt
  · -- the exits win outright, at another metric
    rw [relaxEntry_of_lt hlt] at hx
    obtain ⟨_, down, m, l', hm, heq⟩ := hadv.attained
    have hrank := (Prod.mk.inj heq).1
    have hmlt := Advertised.lt_two_pow hm
    cases down with
    | false =>
      have := rank_lt_rank (d := d) hmlt
      omega
    | true =>
      have hdm : d < m := by
        rw [hrank] at hlt
        exact rank_lt_rank_iff.mp hlt
      have hmetric : r.metric.toNat = d :=
        ((rank_eq_iff r.metric.toNat_lt hd).mp (congrArg Prod.fst (some.inj hx.symm))).2
      have hmetric' : r'.metric.toNat = m := ((rank_eq_iff r'.metric.toNat_lt hmlt).mp hrank).2
      constructor
      · intro hreach
        have hsame : r.metric = r'.metric := congrArg Prod.fst hreach
        rw [hsame] at hmetric
        omega
      · rintro (hgt | ⟨heq, -⟩)
        · omega
        · omega
  · rw [heq, relaxEntry_self] at hx
    have hre := some.inj hx.symm
    have hfst : r.entry.1 = r'.entry.1 := by rw [hre]
    have hmetric : r.metric = r'.metric := (entry_eq_iff.mp hfst).2
    have hhops : r.nextHops.toFinset = r'.entry.2 ∪ l := congrArg Prod.snd hre
    constructor
    · intro hreach
      have hsame : r.nextHops.toFinset = r'.entry.2 := congrArg Prod.snd hreach
      exact .inr ⟨heq.symm, Finset.union_eq_left.mp (hhops.symm.trans hsame)⟩
    · rintro (hlt | ⟨-, hsub⟩)
      · omega
      · refine Prod.ext hmetric ?_
        exact hhops.trans (Finset.union_eq_left.mpr hsub)
  · rw [relaxEntry_of_gt hgt] at hx
    have hreach := reach_eq_of_entry (some.inj hx.symm)
    exact ⟨fun _ => .inl hgt, fun _ => hreach⟩

/-- Without an advertised default the offers are those of the nearest exits. -/
theorem nearestExits_of_not_advertised (hadv : ¬ ∃ down m l, s.Advertised o aff now p down m l) :
    s.NearestExits o aff now p := by
  have hempty : s.advertisedEntries o aff now p = ∅ := by
    refine Set.eq_empty_of_forall_notMem ?_
    rintro x ⟨down, m, l, hm, -⟩
    exact hadv ⟨down, m, l, hm⟩
  have hdetached : ((s.detached.computeSPF o .level1 0 aff now).lookup p).map entry = none := by
    refine (bestOf_detached h hlevel hp).unique ?_
    rw [hempty]
    rfl
  rcases s.exits_best o aff now with hnone | ⟨d, l, hexit⟩
  · have hlook : (s.computeSPF o .level1 0 aff now).lookup p = none := by
      have hentry := entry_default_of_no_exit h hlevel hp hnone
      rw [hdetached] at hentry
      exact map_eq_none_iff.mp hentry
    have hnever : ¬ ∃ n d, s.IsExit aff now n ∧ s.Distance aff now n d := by
      rintro ⟨n, d, hex, hd⟩
      obtain ⟨v, hv, rfl, rfl⟩ := (distance_iff h o).mp hd
      have hmem : (v.dist, v.label) ∈ s.exits o aff now := by
        rw [exits_eq h]
        exact ⟨v, hv, hex, rfl⟩
      rw [hnone] at hmem
      exact hmem
    refine ⟨⟨?_, fun hex => absurd hex hnever⟩, ?_, ?_⟩
    · rintro ⟨r, hr⟩
      rw [hlook] at hr
      cases hr
    · intro r hr
      rw [hlook] at hr
      cases hr
    · intro r hr
      rw [hlook] at hr
      cases hr
  · have hentry := entry_default h hlevel hp hexit
    rw [hdetached] at hentry
    rw [exits_eq h] at hexit
    obtain ⟨_, v, hv, hex, heq⟩ := hexit.attained
    obtain ⟨rfl, -⟩ := Prod.mk.inj heq
    obtain ⟨r, hr, hre⟩ := map_eq_some_iff.mp hentry
    have hd : v.dist < 2 ^ 32 := Nat.lt_trans (dist_lt_of_mem_spfDone h hv) (by decide)
    have hmetric : r.metric.toNat = v.dist :=
      ((rank_eq_iff r.metric.toNat_lt hd).mp (congrArg Prod.fst hre)).2
    have hhops : r.nextHops.toFinset = l := congrArg Prod.snd hre
    have hdist : s.Distance aff now v.id v.dist := distance_visit h hv
    refine ⟨⟨fun _ => ⟨v.id, v.dist, hex, hdist⟩, fun _ => ⟨r, hr⟩⟩, fun r₁ hr₁ => ?_,
      fun r₁ hr₁ x => ?_⟩
    · obtain rfl : r = r₁ := some.inj (hr.symm.trans hr₁)
      rw [hmetric]
      refine ⟨⟨v.id, hex, hdist⟩, fun n d hexn hdn => ?_⟩
      obtain ⟨u, hu, rfl, rfl⟩ := (distance_iff h o).mp hdn
      exact hexit.least _ u.label ⟨u, hu, hexn, rfl⟩
    · obtain rfl : r = r₁ := some.inj (hr.symm.trans hr₁)
      rw [hmetric, ← List.mem_toFinset, hhops, hexit.label]
      constructor
      · rintro ⟨_, ⟨u, hu, hexu, heq'⟩, hx⟩
        obtain ⟨hd', rfl⟩ := Prod.mk.inj heq'
        exact ⟨u, hu, hexu, (distance_iff h o).mpr ⟨u, hu, rfl, hd'.symm⟩, hx⟩
      · rintro ⟨u, hu, hexu, hdu, hx⟩
        have hsame : u.dist = v.dist := (distance_visit h hu).unique hdu
        exact ⟨u.label, ⟨u, hu, hexu, by rw [hsame]⟩, hx⟩

end Beside

/-- **The attached default beside an advertised one.** On a Level-1-only system, with link metrics
below `2 ^ 24`: the default of a family keeps the metric and first hops it has with every attached
bit cleared exactly when the exits yield to the advertised defaults, and with no default advertised
it leads to the nearest exits. -/
theorem attached_default_iff (h : s.LinkMetricsBelow .level1 (2 ^ 24))
    (hlevel : s.levelCap.has .level2 = false) (o : SpfOrder) (aff : FlexAlgoAffinity) (now : Int)
    (hp : p = defaultV4 ∨ p = defaultV6) :
    (s.SameWithoutAttached o aff now p ↔ s.ExitsYield o aff now p) ∧
      ((¬ ∃ down m l, s.Advertised o aff now p down m l) → s.NearestExits o aff now p) := by
  refine ⟨?_, nearestExits_of_not_advertised h hlevel hp⟩
  rcases s.exits_best o aff now with hnone | ⟨d, l, hexit⟩
  · have hsame : s.SameWithoutAttached o aff now p :=
      map_reach_of_entry (entry_default_of_no_exit h hlevel hp hnone)
    refine ⟨fun _ => .inr fun v hv hex => ?_, fun _ => hsame⟩
    have hmem : (v.dist, v.label) ∈ s.exits o aff now :=
      ⟨v, hv, (isAttachedExit_iff h hv).mpr hex, rfl⟩
    rw [hnone] at hmem
    exact hmem.elim
  · have hadv := @bestOf_detached s o aff now p h hlevel hp
    cases hr' : (s.detached.computeSPF o .level1 0 aff now).lookup p with
    | some r' =>
      rw [hr'] at hadv
      exact (sameWithoutAttached_iff h hlevel hp hexit hr').trans (exitsYield_iff h hadv hexit).symm
    | none =>
      -- nothing is advertised, so an exit adds a default where there was none
      rw [hr'] at hadv
      have hempty : s.advertisedEntries o aff now p = ∅ := hadv
      have hnotAdv {down : Bool} {m : ℕ} {l' : Finset SystemID} :
          ¬ s.Advertised o aff now p down m l' := fun hm =>
        Set.eq_empty_iff_forall_notMem.mp hempty _ ⟨down, m, l', hm, rfl⟩
      constructor
      · intro hsame
        have hentry := entry_default h hlevel hp hexit
        unfold IsisServer.SameWithoutAttached at hsame
        rw [hr', map_none, map_eq_none_iff] at hsame
        rw [hr', hsame] at hentry
        cases hentry
      · rintro (⟨m, l', hm⟩ | hall)
        · exact absurd hm hnotAdv
        · obtain ⟨_, v, hv, hatt, -⟩ := hexit.attained
          obtain ⟨x, hx⟩ := exists_hop_of_exit hatt
          obtain ⟨m, l', hm, -⟩ :=
            hall v hv ((isAttachedExit_iff h hv).mp hatt) _ (distance_visit h hv) x hx
          exact absurd hm hnotAdv

end Wins

/-! ## A leaked default beside a nearer exit -/

/-- The LSP of an attached router. -/
def attachedAnnouncement (sys : SystemID) (tlvs : List TLV) : LspEntry :=
  let e := announcement .level1 0 (realNode sys) tlvs
  { e with lsp := { e.lsp with attDefault := true } }

/-- Router 2 is attached and `metric` away; router 3 is 10 away and has `offers`. -/
def exitServer (metric : UInt32) (offers : List TLV) : IsisServer :=
  levelOneServer (router 1) [p2pLink "eth0" metric (router 2), p2pLink "eth1" 10 (router 3)]
    (Map.ofList
      [(⟨realNode (router 1), 0⟩, announcement .level1 0 (realNode (router 1))
          [.extendedISReachability
            [⟨realNode (router 2), metric, []⟩, ⟨realNode (router 3), 10, []⟩]]),
       (⟨realNode (router 2), 0⟩, attachedAnnouncement (router 2)
          [.extendedISReachability [⟨realNode (router 1), metric, []⟩]]),
       (⟨realNode (router 3), 0⟩, announcement .level1 0 (realNode (router 3))
          (.extendedISReachability [⟨realNode (router 1), 10, []⟩] :: offers))])

/-- A default leaked into the area at metric 10. -/
def leakedDefault : List TLV := [.extendedIPReachability [⟨10, true, false, defaultV4, []⟩]]

/-- The exit as far away as the router with the leaked default. -/
def leakedDefaultServer : IsisServer := exitServer 10 leakedDefault

/-- **A leaked default is outranked**: the exit at 10 displaces the default advertised at 20. -/
theorem leaked_default_outranked :
    ((leakedDefaultServer.computeSPF (.scan fun _ _ => true) .level1 0 {} 0).lookup defaultV4).map
        reach = some (10, {router 2}) ∧
      ((leakedDefaultServer.detached.computeSPF (.scan fun _ _ => true) .level1 0 {} 0).lookup
        defaultV4).map reach = some (20, {router 3}) := by
  constructor <;> decide +kernel

/-- The exit at 10 does not yield to the leaked default, the exit at 30 does, and with no default
advertised the route leads to it. -/
theorem attached_default_iff_leakedDefault :
    leakedDefaultServer.LinkMetricsBelow .level1 (2 ^ 24) ∧
      leakedDefaultServer.levelCap.has .level2 = false ∧
      ¬ leakedDefaultServer.ExitsYield (.scan fun _ _ => true) {} 0 defaultV4 ∧
      (exitServer 30 leakedDefault).ExitsYield (.scan fun _ _ => true) {} 0 defaultV4 ∧
      (exitServer 30 []).NearestExits (.scan fun _ _ => true) {} 0 defaultV4 ∧
      (((exitServer 30 []).computeSPF (.scan fun _ _ => true) .level1 0 {} 0).lookup defaultV4).map
        reach = some (30, {router 2}) := by
  have hbelow : leakedDefaultServer.LinkMetricsBelow .level1 (2 ^ 24) :=
    linkMetricsBelow_of_entries rfl (by decide)
  refine ⟨hbelow, rfl, fun hyield => ?_, ?_, ?_, by decide +kernel⟩
  · have hsame :=
      (attached_default_iff hbelow rfl (.scan fun _ _ => true) {} 0 (.inl rfl)).1.mpr hyield
    unfold IsisServer.SameWithoutAttached at hsame
    revert hsame
    decide +kernel
  · refine (attached_default_iff (linkMetricsBelow_of_entries rfl (by decide)) rfl
      (.scan fun _ _ => true) {} 0 (.inl rfl)).1.mp ?_
    unfold IsisServer.SameWithoutAttached
    decide +kernel
  · refine (attached_default_iff (linkMetricsBelow_of_entries rfl (by decide)) rfl
      (.scan fun _ _ => true) {} 0 (.inl rfl)).2 ?_
    rintro ⟨down, m, l, v, -, -, -, d, -, node, hnode, q, hq, hpfx, -⟩
    have hnone : ∀ x ∈ ((exitServer 30 []).buildTopology .level1 0 {} 0).entries,
        ∀ q ∈ x.2.prefixes, q.pfx ≠ defaultV4 := by decide
    exact hnone ⟨v.id, node⟩ (AList.mem_lookup_iff.mp hnode) q hq hpfx

end Goisis.Server
