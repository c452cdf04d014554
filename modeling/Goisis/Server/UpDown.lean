import Goisis.Server.SameLinks
import Mathlib.Order.Lattice.Nat

/-!
# Leaked reachability and what travels up

A prefix leaked from Level 2 into an area carries the up/down bit, so that no other L1L2 system
sends it up again. `addRoute` ranks a marked advertisement behind every unmarked one and
`l1ExportSet` skips a route whose winner is marked. Still a marked advertisement has two ways to
reach the export set:

* the multi-topology flag is merged over every contribution, so a marked TLV 236 entry lifts it from
  a prefix the area itself advertises under MT #2 only;
* plain reachability displaces an SRv6 locator of the same node, so a marked entry hides an unmarked
  locator.

`LeaksInert` says that neither happens.

* `export_ignores_leaks_iff` — removing the marked advertisements leaves the export set as it was
  exactly when the marked ones are inert, and two databases in which they are export alike;
* `leaked_copy_exports` — the smallest database in which they are not.
-/

namespace Goisis.Server

open Lib Packet List

variable {α : Type} {q : SpfPrefix} {s : RoutingServer} {db : LSDB} {now : Int} {m : ℕ} {p : Prefix}

/-! ## Removing what is marked -/

/-- One TLV, unless nothing is left in it. -/
def unlessEmpty {α : Type} (mk : List α → TLV) (l : List α) : List TLV :=
  if l.isEmpty then [] else [mk l]

/-- A TLV without the advertisements marked as leaked down. -/
def unmarkedTLV : TLV → List TLV
  | .extendedIPReachability prefixes =>
    unlessEmpty .extendedIPReachability (prefixes.filter (!·.down))
  | .ipv6Reachability prefixes => unlessEmpty .ipv6Reachability (prefixes.filter (!·.down))
  | .mtIPv6Reachability mtid prefixes =>
    unlessEmpty (.mtIPv6Reachability mtid) (prefixes.filter (!·.down))
  | .srv6Locator mtid locators =>
    unlessEmpty (.srv6Locator mtid) (locators.filter fun l => !(l.flags &&& 0x80 != 0))
  | tlv => [tlv]

/-- An entry without them; its octets and checksum are not read by SPF and are dropped with them. -/
def LspEntry.unmarked (e : LspEntry) : LspEntry :=
  { e with raw := [], lsp := { e.lsp with checksum := 0, tlvs := e.lsp.tlvs.flatMap unmarkedTLV } }

/-- A database without them, its entries in the same order. -/
def LSDB.unmarked (db : LSDB) : LSDB := db.mapVal LspEntry.unmarked

/-- What a reader of TLVs finds is what it found before, less what is marked. -/
theorem flatMap_unmarked {f : TLV → List α} {keep : α → Bool}
    (h : ∀ tlv, (unmarkedTLV tlv).flatMap f = (f tlv).filter keep) (tlvs : List TLV) :
    (tlvs.flatMap unmarkedTLV).flatMap f = (tlvs.flatMap f).filter keep := by
  rw [flatMap_assoc, filter_flatMap]
  exact congrArg (fun g => flatMap g tlvs) (funext h)

theorem flatMap_unlessEmpty {β : Type} {mk : List α → TLV} {f : TLV → List β} {l : List α}
    (hnil : f (mk []) = []) : (unlessEmpty mk l).flatMap f = f (mk l) := by
  unfold unlessEmpty
  cases l with
  | nil => simp [hnil]
  | cons a l => simp

section Readers

variable (tlvs : List TLV)

theorem reachEntries_unmarked : reachEntries (tlvs.flatMap unmarkedTLV) = reachEntries tlvs := by
  have h : reachEntries (tlvs.flatMap unmarkedTLV) = (reachEntries tlvs).filter fun _ => true := by
    refine flatMap_unmarked (fun tlv => ?_) tlvs
    cases tlv <;> simp [unmarkedTLV, flatMap_unlessEmpty]
  rwa [filter_true] at h

theorem spfPrefixes_unmarked (prefixes : List PrefixReach) (mt : Bool) :
    spfPrefixes (prefixes.filter (!·.down)) mt = (spfPrefixes prefixes mt).filter (!·.down) := by
  unfold spfPrefixes
  rw [filter_map, filter_filter, filter_filter]
  simp only [Function.comp_def, Bool.and_comm]

theorem plainPrefixes_unmarked :
    plainPrefixes 0 (tlvs.flatMap unmarkedTLV) = (plainPrefixes 0 tlvs).filter (!·.down) := by
  unfold plainPrefixes
  refine flatMap_unmarked (fun tlv => ?_) tlvs
  cases tlv with
  | extendedIPReachability prefixes =>
    exact (flatMap_unlessEmpty rfl).trans (spfPrefixes_unmarked prefixes false)
  | ipv6Reachability prefixes =>
    exact (flatMap_unlessEmpty rfl).trans (spfPrefixes_unmarked prefixes false)
  | mtIPv6Reachability mtid prefixes =>
    refine (flatMap_unlessEmpty (by simp [spfPrefixes])).trans ?_
    simp only
    split
    · exact spfPrefixes_unmarked prefixes true
    · rfl
  | srv6Locator mtid locators => exact flatMap_unlessEmpty rfl
  | _ => rfl

theorem locatorPrefixes_unmarked :
    locatorPrefixes 0 (tlvs.flatMap unmarkedTLV) = (locatorPrefixes 0 tlvs).filter (!·.down) := by
  refine flatMap_unmarked (fun tlv => ?_) tlvs
  cases tlv with
  | srv6Locator mtid locators =>
    refine (flatMap_unlessEmpty rfl).trans ?_
    simp only [filter_map, filter_filter]
    simp only [Function.comp_def, Bool.and_comm]
  | extendedIPReachability prefixes => exact flatMap_unlessEmpty rfl
  | ipv6Reachability prefixes => exact flatMap_unlessEmpty rfl
  | mtIPv6Reachability mtid prefixes => exact flatMap_unlessEmpty rfl
  | _ => rfl

/-- The unmarked locators of a node that only its marked plain entries displace. -/
def hiddenLocators : List SpfPrefix :=
  (locatorPrefixes 0 tlvs).filter fun l => !l.down &&
    ((plainPrefixes 0 tlvs).map (·.pfx)).contains l.pfx &&
    !(((plainPrefixes 0 tlvs).filter (!·.down)).map (·.pfx)).contains l.pfx

/-- **The prefixes of a node without what is marked**: its unmarked ones and those that were
hidden. -/
theorem mem_nodePrefixes_unmarked :
    q ∈ nodePrefixes 0 (tlvs.flatMap unmarkedTLV) ↔
      q.down = false ∧ q ∈ nodePrefixes 0 tlvs ∨ q ∈ hiddenLocators tlvs := by
  have hsub : ((plainPrefixes 0 tlvs).filter (!·.down)).map (·.pfx) ⊆
      (plainPrefixes 0 tlvs).map (·.pfx) := map_subset _ (filter_subset_self _)
  unfold nodePrefixes hiddenLocators
  simp only [plainPrefixes_unmarked, locatorPrefixes_unmarked, mem_append, mem_filter,
    Bool.not_eq_true', Bool.and_eq_true, contains_eq_mem, decide_eq_true_eq,
    decide_eq_false_iff_not]
  by_cases hplain : q.pfx ∈ (plainPrefixes 0 tlvs).map (·.pfx)
  · grind
  · have hnot := fun h => hplain (hsub h)
    grind

end Readers

/-! ## The same area without it -/

/-- The server with another Level 1 database. -/
def RoutingServer.withLevel1 (s : RoutingServer) (db : LSDB) : RoutingServer :=
  { s with dbs := fun level => if level = .level1 then some db else s.dbs level }

section Area

variable {o : SpfOrder}

theorem nodeTLVs_unmarked (nid : NodeID) :
    nodeTLVs db.unmarked nid now = (nodeTLVs db nid now).flatMap unmarkedTLV := by
  unfold nodeTLVs LSDB.unmarked Map.mapVal
  rw [flatMap_assoc, filter_map, flatMap_map]
  rfl

/-- The node with the prefixes it has once what is marked is removed. -/
theorem lookup_buildTopology_unmarked (nid : NodeID) :
    ((s.withLevel1 db.unmarked).buildTopology .level1 0 {} now).lookup nid =
      (((s.withLevel1 db).buildTopology .level1 0 {} now).lookup nid).map fun node =>
        { node with prefixes := nodePrefixes 0 ((nodeTLVs db nid now).flatMap unmarkedTLV) } := by
  have hdb (db : LSDB) : (s.withLevel1 db).dbs .level1 = some db := rfl
  rw [lookup_buildTopology_eq (hdb db.unmarked), lookup_buildTopology_eq (hdb db), Option.map_map,
    show db.unmarked.lookup ⟨nid, 0⟩ = _ from Map.lookup_mapVal _ _ _]
  cases db.lookup ⟨nid, 0⟩ with
  | none => rfl
  | some e =>
    have hadm : IsisServer.admitted 0 now ⟨nid, 0⟩ e.unmarked = IsisServer.admitted 0 now ⟨nid, 0⟩
        e := rfl
    rw [Option.map_some, Option.filter_some, Option.filter_some, hadm]
    split
    · simp only [Option.map_some, Function.comp_apply, IsisServer.topologyNode,
        nodeTLVs_unmarked, nodeEdges, reachEntries_unmarked]
      rfl
    · rfl

/-- **Removing what is marked leaves the walk as it was.** -/
theorem spfDone_unmarked : (s.withLevel1 db.unmarked).spfDone o .level1 0 {} now =
    (s.withLevel1 db).spfDone o .level1 0 {} now := by
  refine spfVisits_sameLinks (fun nid => ?_) _
  rw [lookup_buildTopology_unmarked, Option.map_map]
  rfl

/-- A visited node whose prefixes are read: not this system, and with a first hop. -/
def IsisServer.Reaches (s : IsisServer) (o : SpfOrder) (now : Int) (v : SpfVisit) : Prop :=
  v ∈ s.spfDone o .level1 0 {} now ∧ v.id ≠ realNode s.systemID ∧ v.label ≠ ∅ ∧
    ((s.buildTopology .level1 0 {} now).lookup v.id).isSome = true

/-- A node that is reached has `q` for the prefix among what `read` finds in its LSPs, at total
metric `m` below the ceiling. -/
def IsisServer.Offers (s : IsisServer) (o : SpfOrder) (now : Int) (db : LSDB)
    (read : List TLV → List SpfPrefix) (p : Prefix) (q : SpfPrefix) (m : ℕ) : Prop :=
  ∃ v, s.Reaches o now v ∧ q ∈ read (nodeTLVs db v.id now) ∧ q.pfx = p ∧
    v.dist + q.metric.toNat = m ∧ m < maxPathMetric

theorem reaches_unmarked {v : SpfVisit} :
    (s.withLevel1 db.unmarked).Reaches o now v ↔ (s.withLevel1 db).Reaches o now v := by
  unfold IsisServer.Reaches
  rw [spfDone_unmarked, lookup_buildTopology_unmarked, Option.isSome_map]
  rfl

/-- What the area offers without what is marked. -/
theorem offers_unmarked :
    (s.withLevel1 db.unmarked).Offers o now db.unmarked (nodePrefixes 0) p q m ↔
      q.down = false ∧ (s.withLevel1 db).Offers o now db (nodePrefixes 0) p q m ∨
        (s.withLevel1 db).Offers o now db hiddenLocators p q m := by
  unfold IsisServer.Offers
  simp only [reaches_unmarked, nodeTLVs_unmarked, mem_nodePrefixes_unmarked]
  constructor
  · rintro ⟨v, hv, ⟨hdown, hq⟩ | hq, hrest⟩
    · exact .inl ⟨hdown, v, hv, hq, hrest⟩
    · exact .inr ⟨v, hv, hq, hrest⟩
  · rintro (⟨hdown, v, hv, hq, hrest⟩ | ⟨v, hv, hq, hrest⟩)
    · exact ⟨v, hv, .inl ⟨hdown, hq⟩, hrest⟩
    · exact ⟨v, hv, .inr hq, hrest⟩

/-- Contributions are offers, read one way or the other. -/
theorem exists_contribution_iff {o : Level → UInt8 → SpfOrder} (hboth : s.bothLevels = true)
    (P : Route → Prop) :
    (∃ c, (p, c) ∈ (s.withLevel1 db).contributions (o .level1 0) .level1 0 {} now ∧ P c) ↔
      ∃ v q m, (s.withLevel1 db).Reaches (o .level1 0) now v ∧
        q ∈ nodePrefixes 0 (nodeTLVs db v.id now) ∧ q.pfx = p ∧ v.dist + q.metric.toNat = m ∧
        m < maxPathMetric ∧ P ⟨UInt32.ofNat m, .level1, 0, q.down, q.mt, sortedHops v.label⟩ := by
  have hnode {v : SpfVisit} {node : SpfNode}
      (h : ((s.withLevel1 db).buildTopology .level1 0 {} now).lookup v.id = some node) :
      node.prefixes = nodePrefixes 0 (nodeTLVs db v.id now) := by
    obtain ⟨db', e, hdb, -, -, rfl⟩ := lookup_buildTopology.mp h
    cases hdb
    rfl
  constructor
  · rintro ⟨c, hc, hP⟩
    obtain ⟨v, hv, hc⟩ := (mem_contributions (s := s.withLevel1 db) hboth).mp hc
    obtain ⟨hself, hlabel, node, hlook, q, hq, hp, hlt, rfl⟩ := mem_nodeRoutes.mp hc
    rw [hnode hlook] at hq
    exact ⟨v, q, _, ⟨hv, hself, hlabel, by rw [hlook]; rfl⟩, hq, hp, rfl, hlt, hP⟩
  · rintro ⟨v, q, m, ⟨hv, hself, hlabel, hsome⟩, hq, hp, rfl, hlt, hP⟩
    obtain ⟨node, hlook⟩ := Option.isSome_iff_exists.mp hsome
    rw [← hnode hlook] at hq
    exact ⟨_, (mem_contributions (s := s.withLevel1 db) hboth).mpr
      ⟨v, hv, mem_nodeRoutes.mpr ⟨hself, hlabel, node, hlook, q, hq, hp, hlt, rfl⟩⟩, hP⟩

end Area

/-! ## When leaked reachability is inert -/

section Inert

variable {o : Level → UInt8 → SpfOrder}

/-- The metrics at which the area offers the prefix unmarked. -/
def RoutingServer.unmarkedOffers (s : RoutingServer) (o : Level → UInt8 → SpfOrder) (now : Int)
    (db : LSDB) (p : Prefix) : Set ℕ :=
  { m | ∃ q, q.down = false ∧ (s.withLevel1 db).Offers (o .level1 0) now db (nodePrefixes 0) p q m }

/-- Some advertisement of the prefix is not an MT #2 one. -/
def RoutingServer.OfferedPlain (s : RoutingServer) (o : Level → UInt8 → SpfOrder) (now : Int)
    (db : LSDB) (p : Prefix) : Prop :=
  ∃ q m, q.mt = false ∧ (s.withLevel1 db).Offers (o .level1 0) now db (nodePrefixes 0) p q m

/-- An intra-area contribution is an unmarked offer at its metric. -/
theorem exists_intraArea_iff (hboth : s.bothLevels = true) (P : ℕ → Prop) :
    (∃ c, (p, c) ∈ (s.withLevel1 db).contributions (o .level1 0) .level1 0 {} now ∧
        c.intraArea = true ∧ P c.metric.toNat) ↔
      ∃ k ∈ s.unmarkedOffers o now db p, P k := by
  rw [exists_contribution_iff hboth (fun c => c.intraArea = true ∧ P c.metric.toNat)]
  constructor
  · rintro ⟨v, q, m, hv, hq, hp, hm, hlt, hintra, hP⟩
    rw [toNat_ofNat_of_lt hlt] at hP
    exact ⟨m, ⟨q, by simpa [Route.intraArea] using hintra, v, hv, hq, hp, hm, hlt⟩, hP⟩
  · rintro ⟨m, ⟨q, hdown, v, hv, hq, hp, hm, hlt⟩, hP⟩
    refine ⟨v, q, m, hv, hq, hp, hm, hlt, by simpa [Route.intraArea] using hdown, ?_⟩
    rw [toNat_ofNat_of_lt hlt]
    exact hP

/-- **The exported metric** of a prefix: the least unmarked offer. -/
theorem lookup_exported_offers (hboth : s.bothLevels = true) {m : UInt32} :
    ((s.withLevel1 db).l1ExportSet ((s.withLevel1 db).merged o now)).lookup p = some m ↔
      s.carries p = true ∧ IsLeast (s.unmarkedOffers o now db p) m.toNat ∧
        s.OfferedPlain o now db p := by
  rw [lookup_exported (s := s.withLevel1 db) hboth]
  refine and_congr Iff.rfl (and_congr (and_congr ?_ ?_) ?_)
  · simp only [← UInt32.toNat_inj]
    rw [exists_intraArea_iff hboth (fun k => k = m.toNat)]
    simp
  · have hnot : (¬ ∃ c, (p, c) ∈ (s.withLevel1 db).contributions (o .level1 0) .level1 0 {} now ∧
        c.intraArea = true ∧ ¬ m.toNat ≤ c.metric.toNat) ↔
          ¬ ∃ k ∈ s.unmarkedOffers o now db p, ¬ m.toNat ≤ k :=
      not_congr (exists_intraArea_iff hboth fun k => ¬ m.toNat ≤ k)
    simp only [not_exists, not_and, not_not] at hnot
    exact hnot
  · rw [exists_contribution_iff hboth (fun c => c.mt = false)]
    constructor
    · rintro ⟨v, q, m, hv, hq, hp, hm, hlt, hmt⟩
      exact ⟨q, m, hmt, v, hv, hq, hp, hm, hlt⟩
    · rintro ⟨q, m, hmt, v, hv, hq, hp, hm, hlt⟩
      exact ⟨v, q, m, hv, hq, hp, hm, hlt, hmt⟩

/-- The metrics of unmarked locators that marked plain entries hide. -/
def RoutingServer.hiddenOffers (s : RoutingServer) (o : Level → UInt8 → SpfOrder) (now : Int)
    (db : LSDB) (p : Prefix) : Set ℕ :=
  { m | ∃ q, (s.withLevel1 db).Offers (o .level1 0) now db hiddenLocators p q m }

/-- Some unmarked advertisement of the prefix is not an MT #2 one. -/
def RoutingServer.UnmarkedPlain (s : RoutingServer) (o : Level → UInt8 → SpfOrder) (now : Int)
    (db : LSDB) (p : Prefix) : Prop :=
  ∃ q m, q.down = false ∧ q.mt = false ∧
    (s.withLevel1 db).Offers (o .level1 0) now db (nodePrefixes 0) p q m

/-- The marked advertisements of a prefix have no part in what the area sends up: a locator they
hide has an unmarked offer at no greater metric beside it, and where the prefix is offered unmarked,
an advertisement that is not an MT #2 one is to be had exactly when the unmarked ones, the hidden
included, have one. -/
@[mk_iff] structure RoutingServer.LeaksInert (s : RoutingServer) (o : Level → UInt8 → SpfOrder)
    (now : Int) (db : LSDB) (p : Prefix) : Prop where
  hidden : ∀ k ∈ s.hiddenOffers o now db p, ∃ k' ∈ s.unmarkedOffers o now db p, k' ≤ k
  topology : (s.unmarkedOffers o now db p).Nonempty →
    (s.OfferedPlain o now db p ↔ (s.hiddenOffers o now db p).Nonempty ∨ s.UnmarkedPlain o now db p)

theorem unmarked_of_mem_hiddenLocators {tlvs : List TLV} (hq : q ∈ hiddenLocators tlvs) :
    q.down = false ∧ q.mt = false := by
  obtain ⟨hq, hkeep⟩ := mem_filter.mp hq
  simp only [Bool.and_eq_true, Bool.not_eq_true'] at hkeep
  refine ⟨hkeep.1.1, ?_⟩
  obtain ⟨tlv, -, hq⟩ := mem_flatMap.mp hq
  cases tlv with
  | srv6Locator mtid locators =>
    obtain ⟨l, -, rfl⟩ := mem_map.mp hq
    rfl
  | _ => cases hq

theorem unmarked_of_hidden_offer
    (h : (s.withLevel1 db).Offers (o .level1 0) now db hiddenLocators p q m) :
    q.down = false ∧ q.mt = false := by
  obtain ⟨v, -, hmem, -⟩ := h
  exact unmarked_of_mem_hiddenLocators hmem

/-- Without what is marked, the unmarked offers are joined by the hidden ones. -/
theorem unmarkedOffers_unmarked : s.unmarkedOffers o now db.unmarked p =
    s.unmarkedOffers o now db p ∪ s.hiddenOffers o now db p := by
  ext m
  constructor
  · rintro ⟨q, hdown, hq⟩
    rcases offers_unmarked.mp hq with ⟨-, hq⟩ | hq
    · exact .inl ⟨q, hdown, hq⟩
    · exact .inr ⟨q, hq⟩
  · rintro (⟨q, hdown, hq⟩ | ⟨q, hq⟩)
    · exact ⟨q, hdown, offers_unmarked.mpr (.inl ⟨hdown, hq⟩)⟩
    · exact ⟨q, (unmarked_of_hidden_offer hq).1, offers_unmarked.mpr (.inr hq)⟩

theorem offeredPlain_unmarked : s.OfferedPlain o now db.unmarked p ↔
    (s.hiddenOffers o now db p).Nonempty ∨ s.UnmarkedPlain o now db p := by
  constructor
  · rintro ⟨q, m, hmt, hq⟩
    rcases offers_unmarked.mp hq with ⟨hdown, hq⟩ | hq
    · exact .inr ⟨q, m, hdown, hmt, hq⟩
    · exact .inl ⟨m, q, hq⟩
  · rintro (⟨m, q, hq⟩ | ⟨q, m, hdown, hmt, hq⟩)
    · exact ⟨q, m, (unmarked_of_hidden_offer hq).2, offers_unmarked.mpr (.inr hq)⟩
    · exact ⟨q, m, hmt, offers_unmarked.mpr (.inl ⟨hdown, hq⟩)⟩

theorem lt_of_mem_offers (h : m ∈ s.unmarkedOffers o now db p ∪ s.hiddenOffers o now db p) :
    m < maxPathMetric := by
  rcases h with ⟨q, -, v, -, -, -, -, hlt⟩ | ⟨q, v, -, -, -, -, hlt⟩
  · exact hlt
  · exact hlt

/-- Adding `H` to the candidates changes neither the least one nor whether it is taken. -/
theorem leastAlike_iff {U H : Set ℕ} {A A' : Prop} (hH : H.Nonempty → A') :
    (∀ k ∈ U ∪ H, IsLeast U k ∧ A ↔ IsLeast (U ∪ H) k ∧ A') ↔
      (∀ k ∈ H, ∃ k' ∈ U, k' ≤ k) ∧ (U.Nonempty → (A ↔ A')) := by
  constructor
  · intro hagree
    have hleast {B : Set ℕ} (hB : B.Nonempty) : IsLeast B (sInf B) :=
      ⟨Nat.sInf_mem hB, fun _ h => Nat.sInf_le h⟩
    refine ⟨fun k hk => ?_, fun hne => ⟨fun hA => ?_, fun hA' => ?_⟩⟩
    · have hmin := hleast (B := U ∪ H) ⟨k, .inr hk⟩
      exact ⟨_, ((hagree _ hmin.1).mpr ⟨hmin, hH ⟨k, hk⟩⟩).1.1, hmin.2 (.inr hk)⟩
    · have hmin := hleast hne
      exact ((hagree _ (.inl hmin.1)).mp ⟨hmin, hA⟩).2
    · have hmin := hleast (B := U ∪ H) (hne.mono Set.subset_union_left)
      exact ((hagree _ hmin.1).mpr ⟨hmin, hA'⟩).2
  · rintro ⟨hhidden, hiff⟩ k -
    constructor
    · rintro ⟨⟨hk, hle⟩, hA⟩
      refine ⟨⟨.inl hk, ?_⟩, (hiff ⟨k, hk⟩).mp hA⟩
      rintro k' (hk' | hk')
      · exact hle hk'
      · obtain ⟨u, hu, hle'⟩ := hhidden k' hk'
        exact Nat.le_trans (hle hu) hle'
    · rintro ⟨⟨hk, hle⟩, hA'⟩
      have hkU : k ∈ U := by
        rcases hk with hk | hk
        · exact hk
        · obtain ⟨u, hu, hle'⟩ := hhidden k hk
          rwa [← Nat.le_antisymm hle' (hle (.inl hu))]
      exact ⟨⟨hkU, fun k' hk' => hle (.inl hk')⟩, (hiff ⟨k, hkU⟩).mpr hA'⟩

/-- **A prefix is exported alike with and without what is marked** exactly when that is inert. -/
theorem exported_unmarked_iff (hboth : s.bothLevels = true) (hcarries : s.carries p = true) :
    ((s.withLevel1 db).l1ExportSet ((s.withLevel1 db).merged o now)).lookup p =
        ((s.withLevel1 db.unmarked).l1ExportSet
          ((s.withLevel1 db.unmarked).merged o now)).lookup p ↔
      s.LeaksInert o now db p := by
  have hwith {m : UInt32} : _ ↔ _ ∧ _ ∧ s.OfferedPlain o now db p :=
    lookup_exported_offers (m := m) hboth
  have hwithout {m : UInt32} : _ ↔ _ ∧ _ ∧ s.OfferedPlain o now db.unmarked p :=
    lookup_exported_offers (m := m) hboth
  simp only [unmarkedOffers_unmarked, offeredPlain_unmarked] at hwithout
  rw [s.leaksInert_iff, ← leastAlike_iff .inl]
  constructor
  · intro heq k hk
    have hl := hwith (m := UInt32.ofNat k)
    have hr := hwithout (m := UInt32.ofNat k)
    rw [toNat_ofNat_of_lt (lt_of_mem_offers hk)] at hl hr
    rw [heq] at hl
    simpa [hcarries] using hl.symm.trans hr
  · intro hagree
    ext m
    rw [hwith, hwithout]
    refine and_congr Iff.rfl ?_
    constructor
    · intro h
      exact (hagree _ (.inl h.1.1)).mp h
    · intro h
      exact (hagree _ h.1.1).mpr h

/-- **Leaked reachability and the export set.** Removing every marked advertisement from the area
leaves what this node sends up as it was exactly when the marked ones are inert, and any two areas
that differ in marked advertisements alone, inert in both, send up the same. -/
theorem export_ignores_leaks_iff (hboth : s.bothLevels = true) (db : LSDB)
    (o : Level → UInt8 → SpfOrder) (now : Int) :
    ((∀ p, ((s.withLevel1 db).updateRIB o now).l1Export.lookup p =
        ((s.withLevel1 db.unmarked).updateRIB o now).l1Export.lookup p) ↔
      ∀ p, s.carries p = true → s.LeaksInert o now db p) ∧
    ∀ db' : LSDB, db.unmarked = db'.unmarked → (∀ p, s.carries p = true → s.LeaksInert o now db p) →
      (∀ p, s.carries p = true → s.LeaksInert o now db' p) →
      ∀ p, ((s.withLevel1 db).updateRIB o now).l1Export.lookup p =
        ((s.withLevel1 db').updateRIB o now).l1Export.lookup p := by
  have hdb (db : LSDB) : (∀ p, ((s.withLevel1 db).updateRIB o now).l1Export.lookup p =
      ((s.withLevel1 db.unmarked).updateRIB o now).l1Export.lookup p) ↔
        ∀ p, s.carries p = true → s.LeaksInert o now db p := by
    simp only [lookup_l1Export_updateRIB]
    refine forall_congr' fun p => ?_
    by_cases hcarries : s.carries p = true
    · rw [exported_unmarked_iff hboth hcarries]
      simp [hcarries]
    -- a default or a prefix of this node's own is exported on neither side
    have hnone (db : LSDB) :
        ((s.withLevel1 db).l1ExportSet ((s.withLevel1 db).merged o now)).lookup p = none := by
      rw [Option.eq_none_iff_forall_ne_some]
      intro m hm
      exact hcarries ((lookup_exported_offers hboth).mp hm).1
    simp [hnone, hcarries]
  refine ⟨hdb db, fun db' hsame hinert hinert' p => ?_⟩
  rw [(hdb db).mpr hinert p, (hdb db').mpr hinert' p, hsame]

end Inert

/-! ## A leaked copy that is not inert -/

/-- `2001:db8::/32`. -/
def docNet6 : Prefix := ⟨.v6 (Octets.ofList 16 [0x20, 0x01, 0x0d, 0xb8]), 32⟩

/-- An L1L2 system with router 2 in its area. -/
def borderServer : RoutingServer where
  toIsisServer := { levelOneServer (router 1) [p2pLink "eth0" 10 (router 2)] ∅ with
    levelCap := ⟨true, true⟩
    dbs := fun _ => some ∅ }
  connected := []
  flexAlgos := []
  optionPrefixes := []
  locators := []
  l2LeakFilter := none
  rib := ∅
  flexAlgoComputed := ∅
  l1Export := ∅
  l2Leak := ∅

/-- The area of the two, in which router 2 advertises what is given. -/
def areaOf (tlvs : List TLV) : LSDB := announcedDB .level1 0
  [(realNode (router 1), [.extendedISReachability [⟨realNode (router 2), 10, []⟩]]),
   (realNode (router 2), .extendedISReachability [⟨realNode (router 1), 10, []⟩] :: tlvs)]

/-- Router 2 has the prefix under MT #2 and leaks another copy of it in TLV 236. -/
def leakedTopology : LSDB := areaOf
  [.mtIPv6Reachability mtidIPv6Unicast [⟨5, false, false, docNet6, []⟩],
   .ipv6Reachability [⟨5, true, false, docNet6, []⟩]]

/-- Router 2 has the prefix as a locator and leaks another copy of it in TLV 236. -/
def leakedOverLocator : LSDB := areaOf
  [.srv6Locator 0 [⟨5, 0, 0, docNet6, [], []⟩], .ipv6Reachability [⟨5, true, false, docNet6, []⟩]]

/-- The order of the ranges in the runs below. -/
def scanOrder : Level → UInt8 → SpfOrder := fun _ _ => .scan fun _ _ => true

/-- Router 2 has the prefix itself and leaks another copy of it at a metric of its own. -/
def leakedBehind (metric : UInt32) : LSDB := areaOf [.extendedIPReachability
  [⟨5, false, false, testNet, []⟩, ⟨metric, true, false, testNet, []⟩]]

/-- The leaked copy of an MT #2 prefix lifts the multi-topology flag, so it is not inert. Two that
are behind the prefix itself are, and the exports do not tell them apart. -/
theorem export_ignores_leaks_iff_border : borderServer.bothLevels = true ∧
    (¬ ∀ p, borderServer.carries p = true → borderServer.LeaksInert scanOrder 0 leakedTopology p) ∧
    (∀ p, borderServer.carries p = true → borderServer.LeaksInert scanOrder 0 (leakedBehind 50) p) ∧
    (∀ p, borderServer.carries p = true → borderServer.LeaksInert scanOrder 0 (leakedBehind 60) p) ∧
    ((borderServer.withLevel1 (leakedBehind 50)).updateRIB scanOrder 0).l1Export.lookup testNet =
      some 15 ∧
    ∀ p, ((borderServer.withLevel1 (leakedBehind 50)).updateRIB scanOrder 0).l1Export.lookup p =
      ((borderServer.withLevel1 (leakedBehind 60)).updateRIB scanOrder 0).l1Export.lookup p := by
  have hiff (db : LSDB) := export_ignores_leaks_iff (s := borderServer) rfl db scanOrder 0
  have h50 := (hiff (leakedBehind 50)).1.mp fun p =>
    congrArg (AList.lookup p) (AList.ext (by decide))
  have h60 := (hiff (leakedBehind 60)).1.mp fun p =>
    congrArg (AList.lookup p) (AList.ext (by decide))
  refine ⟨rfl, fun hinert => ?_, h50, h60, by decide,
    (hiff (leakedBehind 50)).2 (leakedBehind 60) (AList.ext (by decide)) h50 h60⟩
  exact absurd ((hiff leakedTopology).1.mpr hinert docNet6) (by decide)

/-- **A leaked copy decides what travels up**: with it the MT #2 prefix is exported and without it
not; and the locator is exported without it and not with it. -/
theorem leaked_copy_exports :
    leakedTopology.unmarked = leakedTopology.unmarked.unmarked ∧
      ((borderServer.withLevel1 leakedTopology).updateRIB scanOrder 0).l1Export.lookup docNet6 =
        some 15 ∧
      ((borderServer.withLevel1 leakedTopology.unmarked).updateRIB scanOrder 0).l1Export.lookup
        docNet6 = none ∧
      leakedOverLocator.unmarked = leakedOverLocator.unmarked.unmarked ∧
      ((borderServer.withLevel1 leakedOverLocator).updateRIB scanOrder 0).l1Export.lookup docNet6 =
        none ∧
      ((borderServer.withLevel1 leakedOverLocator.unmarked).updateRIB scanOrder 0).l1Export.lookup
        docNet6 = some 15 := by
  refine ⟨AList.ext ?_, ?_, ?_, AList.ext ?_, ?_, ?_⟩ <;> decide

end Goisis.Server
