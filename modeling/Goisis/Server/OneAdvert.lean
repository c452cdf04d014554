import Goisis.Server.OwnTLVs
import Mathlib.Data.List.Flatten

/-!
# One advertisement per prefix

Five sources feed the reachability TLVs of a node LSP: the option prefixes, the subnets of the
circuits, the algorithm 0 locators, and what an L1L2 node carries between the levels. The first two
are merged into one map (`originatedPrefixes`), the rest are appended. Nothing but the state keeps
them apart: `updateRIB` drops what this node advertises from the sets it carries, at the time it
runs, and no call compares a prefix with a locator.

The fragments a regeneration stores are read off its result: a fragment is stored when the entry
under its number is a live one of ours with the body dictated for it.

* `one_advertisement_iff` — apart sources are advertised once each, and only those where every
  fragment is stored;
* `locator_advertised_twice` — a prefix that is also a locator goes out at two metrics.
-/

namespace Goisis.Server

open Lib Packet NodeServer List

variable {s : NodeServer} {level : Level} {x : List TLV × Nat}

/-! ## What is stored -/

/-- The prefixes of the Extended IP and IPv6 Reachability entries of a TLV. -/
def reachPrefixes : TLV → List Prefix
  | .extendedIPReachability es => es.map (·.pfx.masked)
  | .ipv6Reachability es => es.map (·.pfx.masked)
  | _ => []

/-- The prefixes a TLV area advertises, as a receiver reads it. -/
def bodyPrefixes (body : Bytes) : List Prefix :=
  ((decodeTLVs body).toOption.getD []).flatMap reachPrefixes

/-- The TLV area of a live LSP of ours. -/
def LspEntry.ownBody (e : LspEntry) : Option Bytes :=
  if e.own && e.purgedAt.isNone then (serializeTLVs e.lsp.tlvs).toOption else none

namespace NodeServer

variable (s : NodeServer)

/-- The TLV area a regeneration stores for one fragment of the node LSP, if it stores it. -/
def storedFragment (level : Level) (now : Int) (jitter : Level → LSPID → Int) (x : List TLV × Nat) :
    Option Bytes :=
  ((s.regenerateLSPs false now jitter).entryAt level (s.ownID 0 (UInt8.ofNat x.2))).bind fun e =>
    e.ownBody.filter fun body => (serializeTLVs (s.keyedTLVs level x.1)).toOption == some body

/-- The fragments of the node LSP `regenerateLSPs(false, now)` stores. -/
def storedFragments (level : Level) (now : Int) (jitter : Level → LSPID → Int) : List Bytes :=
  (((s.syncEndXSIDs now).nodeFragments level).take 256).zipIdx.filterMap
    (s.storedFragment level now jitter)

/-- Together they carry at most one reachability entry for each prefix. -/
def AdvertisesOnce (level : Level) (now : Int) (jitter : Level → LSPID → Int) : Prop :=
  ((s.storedFragments level now jitter).flatMap bodyPrefixes).Nodup

instance (s : NodeServer) (level : Level) (now : Int) (jitter : Level → LSPID → Int) :
    Decidable (s.AdvertisesOnce level now jitter) :=
  inferInstanceAs (Decidable (Nodup _))

/-- Every fragment of the node LSP is stored. -/
def StoresAll (level : Level) (now : Int) (jitter : Level → LSPID → Int) : Prop :=
  (s.storedFragments level now jitter).length = ((s.syncEndXSIDs now).nodeFragments level).length

instance (s : NodeServer) (level : Level) (now : Int) (jitter : Level → LSPID → Int) :
    Decidable (s.StoresAll level now jitter) :=
  inferInstanceAs (Decidable (_ = _))

/-! ## The sources -/

/-- A prefix of our own that the export policy lets out. -/
def Announces (p : Prefix) : Prop :=
  ∃ m, s.originatedMetrics.lookup p = some m ∧ s.advertises p m = true

/-- The prefix of an algorithm 0 locator. -/
def Mirrors (p : Prefix) : Prop :=
  ∃ lc ∈ s.locators, lc.algo = 0 ∧ lc.pfx.masked = p

/-- A prefix this node carries into the level from the other one. -/
def CarriesInto (level : Level) (p : Prefix) : Prop :=
  (level = .level2 ∧ s.levelCap.has .level1 = true ∧
      ∃ m, s.l1Export.lookup p = some m ∧ s.advertises p (clampMetric m) = true) ∨
    (level = .level1 ∧ s.levelCap.has .level2 = true ∧ ∃ m, s.l2Leak.lookup p = some m)

/-- No prefix comes from two sources, and none from two locators. -/
structure SourcesApart (s : NodeServer) (level : Level) : Prop where
  locators : ((s.locators.filter (·.algo = 0)).map (·.pfx.masked)).Nodup
  mirrored : ∀ p, s.Announces p → ¬ s.Mirrors p
  carried : ∀ p, s.CarriesInto level p → ¬ s.Announces p ∧ ¬ s.Mirrors p

end NodeServer

/-! ## What the fragments carry -/

section Carried

variable {now : Int} {jitter : Level → LSPID → Int}

theorem reachPrefixes_onWire (t : TLV) : reachPrefixes t.onWire = reachPrefixes t := by
  cases t <;> rfl

theorem flatMap_reachPrefixes_chunks {E : Type} {mk : List E → TLV} {f : E → Prefix}
    (hmk : ∀ es, reachPrefixes (mk es) = es.map f) (entries : List E) :
    (tlvChunks mk entries).flatMap reachPrefixes = entries.map f := by
  simp only [tlvChunks, flatMap_map, hmk]
  rw [← map_flatMap, flatMap_id', flatten_chunks]

theorem flatMap_reachPrefixes_other {E : Type} {mk : List E → TLV}
    (hmk : ∀ es, reachPrefixes (mk es) = []) (entries : List E) :
    (tlvChunks mk entries).flatMap reachPrefixes = [] := by
  simp only [tlvChunks, flatMap_map, hmk]
  simp

/-- The fragments of the node LSP carry the two lists of `regenerateNodeLSP`. -/
theorem flatMap_reachPrefixes_nodeFragments (s : NodeServer) (level : Level) :
    (s.nodeFragments level).flatten.flatMap reachPrefixes =
      (s.reach4 level ++ s.reach6 level).map (·.pfx.masked) := by
  have hfixed : (s.fixedTLVs level).flatMap reachPrefixes = [] := by
    refine flatMap_eq_nil_iff.mpr fun t ht => ?_
    simp only [fixedTLVs, mem_append, mem_cons, not_mem_nil, or_false] at ht
    rcases ht with (((rfl | rfl) | ht) | ht) | ht
    · rfl
    · rfl
    · split at ht
      · exact absurd ht not_mem_nil
      · rw [mem_singleton.mp ht]
        rfl
    · split at ht
      · exact absurd ht not_mem_nil
      · rw [mem_singleton.mp ht]
        rfl
    · obtain ⟨addrs, rfl, -⟩ := mem_tlvChunks ht
      rfl
  unfold nodeFragments packLSPFragments
  rw [flatten_pack, flatMap_append, hfixed, nil_append]
  unfold variableTLVs
  rw [flatMap_append, flatMap_append, flatMap_append,
    flatMap_reachPrefixes_other fun _ => rfl, flatMap_reachPrefixes_chunks fun _ => rfl,
    flatMap_reachPrefixes_chunks fun _ => rfl, flatMap_reachPrefixes_other fun _ => rfl,
    nil_append, append_nil, map_append]

/-- A stored fragment advertises what is dictated for it. -/
theorem bodyPrefixes_of_stored (hs : s.Reachable) {body : Bytes}
    (hx : x.1 ∈ (s.syncEndXSIDs now).nodeFragments level)
    (h : s.storedFragment level now jitter x = some body) :
    bodyPrefixes body = x.1.flatMap reachPrefixes := by
  obtain ⟨e, -, he⟩ := Option.bind_eq_some_iff.mp h
  obtain ⟨-, hbody⟩ := Option.filter_eq_some_iff.mp he
  have hser : serializeTLVs (s.keyedTLVs level x.1) = .ok body := by
    cases hk : serializeTLVs (s.keyedTLVs level x.1) with
    | error err =>
      rw [hk] at hbody
      cases hbody
    | ok b =>
      rw [hk] at hbody
      rw [Option.some.inj (beq_iff_eq.mp hbody)]
  have hwf : (s.syncEndXSIDs now).WellFormed := hs.wellFormed.congr rfl
  have hsend : ∀ t ∈ x.1, t.Sendable := by
    intro t ht
    rcases mem_of_mem_packLSPFragments hx ht with ht | ht
    · exact sendable_fixedTLVs t ht
    · exact sendable_variableTLVs hwf (hs.sidsOnWire.sync now) t ht
  have hdecode := decodeTLVs_onWire (sendable_keyedTLVs (b := s.toIsisServer) hsend) hser
  have hplain : (s.keyedTLVs level x.1).flatMap reachPrefixes = x.1.flatMap reachPrefixes := by
    unfold IsisServer.keyedTLVs
    split
    · rw [flatMap_append]
      exact append_nil _
    · rfl
  unfold bodyPrefixes
  rw [hdecode, ← hplain]
  simp only [Except.toOption, Option.getD_some, flatMap_map, reachPrefixes_onWire]

theorem flatMap_zipIdx (l : List (List TLV)) :
    l.zipIdx.flatMap (fun x => x.1.flatMap reachPrefixes) = l.flatten.flatMap reachPrefixes := by
  rw [← flatMap_map Prod.fst fun tlvs : List TLV => tlvs.flatMap reachPrefixes, zipIdx_map_fst,
    ← flatMap_id', flatMap_assoc]

/-- What a fragment contributes, if it is stored at all, is what is dictated for it. -/
theorem toList_stored (hs : s.Reachable)
    (hx : x ∈ (((s.syncEndXSIDs now).nodeFragments level).take 256).zipIdx) :
    ((s.storedFragment level now jitter x).toList.flatMap bodyPrefixes).Sublist
        (x.1.flatMap reachPrefixes) ∧
      ((s.storedFragment level now jitter x).isSome = true →
        (s.storedFragment level now jitter x).toList.flatMap bodyPrefixes =
          x.1.flatMap reachPrefixes) := by
  have hmem : x.1 ∈ (s.syncEndXSIDs now).nodeFragments level :=
    mem_of_mem_take (fst_mem_of_mem_zipIdx hx)
  cases hb : s.storedFragment level now jitter x with
  | none => exact ⟨nil_sublist _, fun h => by cases h⟩
  | some body =>
    have hbody := bodyPrefixes_of_stored hs hmem hb
    simp only [Option.toList_some, flatMap_cons, flatMap_nil, append_nil, hbody]
    exact ⟨.refl _, fun _ => trivial⟩

theorem flatMap_stored (s : NodeServer) (level : Level) (now : Int) (jitter : Level → LSPID → Int) :
    (s.storedFragments level now jitter).flatMap bodyPrefixes =
      (((s.syncEndXSIDs now).nodeFragments level).take 256).zipIdx.flatMap fun x =>
        (s.storedFragment level now jitter x).toList.flatMap bodyPrefixes := by
  unfold storedFragments
  rw [filterMap_eq_flatMap_toList, flatMap_assoc]

theorem reach_syncEndXSIDs (s : NodeServer) (level : Level) (now : Int) :
    ((s.syncEndXSIDs now).nodeFragments level).flatten.flatMap reachPrefixes =
      (s.reach4 level ++ s.reach6 level).map (·.pfx.masked) :=
  flatMap_reachPrefixes_nodeFragments (s.syncEndXSIDs now) level

/-- The stored fragments carry part of the two lists. -/
theorem stored_sublist (hs : s.Reachable) (level : Level) (now : Int)
    (jitter : Level → LSPID → Int) :
    ((s.storedFragments level now jitter).flatMap bodyPrefixes).Sublist
      ((s.reach4 level ++ s.reach6 level).map (·.pfx.masked)) := by
  rw [flatMap_stored, ← reach_syncEndXSIDs s level now]
  refine (Sublist.flatMap_right _ fun x hx => (toList_stored hs hx).1).trans ?_
  rw [flatMap_zipIdx]
  exact (take_sublist _ _).flatten.flatMap _

/-- They carry all of them if none is left out. -/
theorem stored_eq (hs : s.Reachable) (hall : s.StoresAll level now jitter) :
    (s.storedFragments level now jitter).flatMap bodyPrefixes =
      (s.reach4 level ++ s.reach6 level).map (·.pfx.masked) := by
  have hle := length_filterMap_le (s.storedFragment level now jitter)
    (((s.syncEndXSIDs now).nodeFragments level).take 256).zipIdx
  rw [length_zipIdx, length_take] at hle
  have hall : ((((s.syncEndXSIDs now).nodeFragments level).take 256).zipIdx.filterMap
      (s.storedFragment level now jitter)).length =
        ((s.syncEndXSIDs now).nodeFragments level).length := hall
  have htake : ((s.syncEndXSIDs now).nodeFragments level).take 256 =
      (s.syncEndXSIDs now).nodeFragments level := take_of_length_le (by omega)
  have hsome : ∀ x ∈ (((s.syncEndXSIDs now).nodeFragments level).take 256).zipIdx,
      (s.storedFragment level now jitter x).isSome = true := by
    refine filterMap_length_eq_length.mp (hall.trans ?_)
    rw [length_zipIdx, htake]
  rw [flatMap_stored, ← reach_syncEndXSIDs s level now]
  rw [flatMap_congr fun x hx => (toList_stored hs hx).2 (hsome x hx), flatMap_zipIdx, htake]

end Carried

/-! ## Sources that are apart -/

section Apart

variable {p : Prefix}

/-- The three lists the advertisements come from. -/
theorem reach_perm (s : NodeServer) (level : Level) : (s.reach4 level ++ s.reach6 level).Perm
    (s.ownReach ++ s.mirroredReach ++ (s.exportedReach level ++ s.leakedReach level)) := by
  have hown := filter_append_perm (fun e : PrefixReach => e.pfx.addr.is4) s.ownReach
  have hcarried := filter_append_perm (fun e : PrefixReach => e.pfx.addr.is4)
    (s.exportedReach level ++ s.leakedReach level)
  refine Perm.trans ?_ ((hown.append_right s.mirroredReach).append hcarried)
  unfold reach4 reach6
  rw [append_assoc s.ownReach, filter_append]
  refine perm_iff_count.mpr fun e => ?_
  simp only [count_append]
  omega

theorem mem_ownReach : p ∈ s.ownReach.map (·.pfx) ↔ s.Announces p := by
  simp only [ownReach, originatedPrefixes, mem_map, mem_filter]
  constructor
  · rintro ⟨_, ⟨_, ⟨⟨x, hx, rfl⟩, hadv⟩, rfl⟩, rfl⟩
    exact ⟨x.2, (Map.mem_sorted prefixLE).mp hx, hadv⟩
  · rintro ⟨m, hm, hadv⟩
    exact ⟨_, ⟨⟨p, m⟩, ⟨⟨(p, m), (Map.mem_sorted prefixLE).mpr hm, rfl⟩, hadv⟩, rfl⟩, rfl⟩

theorem mem_mirroredReach : p ∈ s.mirroredReach.map (·.pfx) ↔ s.Mirrors p := by
  simp only [mirroredReach, mem_map, mem_filter, decide_eq_true_eq]
  constructor
  · rintro ⟨_, ⟨lc, ⟨hlc, halgo⟩, rfl⟩, rfl⟩
    exact ⟨lc, hlc, halgo, rfl⟩
  · rintro ⟨lc, hlc, halgo, rfl⟩
    exact ⟨_, ⟨lc, ⟨hlc, halgo⟩, rfl⟩, rfl⟩

theorem mem_carriedReach : p ∈ (s.exportedReach level ++ s.leakedReach level).map (·.pfx) ↔
    s.CarriesInto level p := by
  simp only [exportedReach, leakedReach, NodeServer.CarriesInto, map_append, mem_append]
  refine or_congr ?_ ?_
  · split
    · rename_i h
      simp only [mem_map, mem_filter]
      constructor
      · rintro ⟨_, ⟨x, ⟨hx, hadv⟩, rfl⟩, rfl⟩
        exact ⟨h.1, h.2, x.2, (Map.mem_sorted prefixLE).mp hx, hadv⟩
      · rintro ⟨-, -, m, hm, hadv⟩
        exact ⟨_, ⟨(p, m), ⟨(Map.mem_sorted prefixLE).mpr hm, hadv⟩, rfl⟩, rfl⟩
    · rename_i h
      exact iff_of_false not_mem_nil fun hc => h ⟨hc.1, hc.2.1⟩
  · split
    · rename_i h
      simp only [mem_map]
      constructor
      · rintro ⟨_, ⟨x, hx, rfl⟩, rfl⟩
        exact ⟨h.1, h.2, x.2, (Map.mem_sorted prefixLE).mp hx⟩
      · rintro ⟨-, -, m, hm⟩
        exact ⟨_, ⟨(p, m), (Map.mem_sorted prefixLE).mpr hm, rfl⟩, rfl⟩
    · rename_i h
      exact iff_of_false not_mem_nil fun hc => h ⟨hc.1, hc.2.1⟩

theorem nodup_ownReach (s : NodeServer) : (s.ownReach.map (·.pfx)).Nodup := by
  have hkeys : (s.originatedPrefixes.map (·.pfx)).Nodup := by
    unfold originatedPrefixes
    rw [List.map_map]
    exact Map.nodup_sorted prefixLE s.originatedMetrics
  unfold ownReach
  rw [List.map_map]
  exact hkeys.sublist (filter_sublist.map _)

theorem nodup_carriedReach (s : NodeServer) (level : Level) :
    ((s.exportedReach level ++ s.leakedReach level).map (·.pfx)).Nodup := by
  unfold exportedReach leakedReach
  cases level with
  | level1 =>
    rw [if_neg (by simp), nil_append]
    split
    · rw [List.map_map]
      exact Map.nodup_sorted prefixLE s.l2Leak
    · exact nodup_nil
  | level2 =>
    rw [if_neg (c := Level.level2 = Level.level1 ∧ _) (by simp), append_nil]
    split
    · rw [List.map_map]
      exact (Map.nodup_sorted prefixLE s.l1Export).sublist (filter_sublist.map _)
    · exact nodup_nil

/-- The sources are apart exactly when no prefix is on two of the lists, or twice on one. -/
theorem sourcesApart_iff : s.SourcesApart level ↔
    ((s.ownReach ++ s.mirroredReach ++ (s.exportedReach level ++ s.leakedReach level)).map
      (·.pfx)).Nodup := by
  rw [map_append, map_append, nodup_append, nodup_append]
  have hmirrored : (s.mirroredReach.map (·.pfx)).Nodup ↔
      ((s.locators.filter (·.algo = 0)).map (·.pfx.masked)).Nodup := by
    unfold mirroredReach
    rw [List.map_map]
    rfl
  constructor
  · rintro ⟨hloc, hmir, hcar⟩
    refine ⟨⟨nodup_ownReach s, hmirrored.mpr hloc, fun p hp q hq hpq => ?_⟩,
      nodup_carriedReach s level, fun p hp q hq hpq => ?_⟩
    · subst hpq
      exact hmir p (mem_ownReach.mp hp) (mem_mirroredReach.mp hq)
    · subst hpq
      obtain ⟨hnot, hnot'⟩ := hcar p (mem_carriedReach.mp hq)
      rcases mem_append.mp hp with hp | hp
      · exact hnot (mem_ownReach.mp hp)
      · exact hnot' (mem_mirroredReach.mp hp)
  · rintro ⟨⟨-, hloc, hmir⟩, -, hcar⟩
    refine ⟨hmirrored.mp hloc, fun p hp hq => ?_, fun p hp => ⟨fun hq => ?_, fun hq => ?_⟩⟩
    · exact hmir p (mem_ownReach.mpr hp) p (mem_mirroredReach.mpr hq) rfl
    · exact hcar p (mem_append_left _ (mem_ownReach.mpr hq)) p (mem_carriedReach.mpr hp) rfl
    · exact hcar p (mem_append_right _ (mem_mirroredReach.mpr hq)) p (mem_carriedReach.mpr hp) rfl

theorem nodup_reach_iff (hs : s.Reachable) :
    ((s.reach4 level ++ s.reach6 level).map (·.pfx.masked)).Nodup ↔ s.SourcesApart level := by
  have hmasked : (s.reach4 level ++ s.reach6 level).map (·.pfx.masked) =
      (s.reach4 level ++ s.reach6 level).map (·.pfx) := by
    refine map_congr_left fun e he => ?_
    rcases mem_append.mp he with he | he
    · exact (plain_reach4 hs.wellFormed e he).masked
    · exact (plain_reach6 hs.wellFormed e he).masked
  rw [hmasked, sourcesApart_iff]
  exact ((reach_perm s level).map _).nodup_iff

end Apart

/-! ## The criterion -/

/-- **Sources that are apart are advertised once**, whatever the regeneration stores; where it
stores every fragment, no others are. -/
theorem one_advertisement_iff {s : NodeServer} (hs : s.Reachable) (level : Level) (now : Int)
    (jitter : Level → LSPID → Int) :
    (s.SourcesApart level → s.AdvertisesOnce level now jitter) ∧ (s.StoresAll level now jitter →
        (s.AdvertisesOnce level now jitter ↔ s.SourcesApart level)) := by
  have hsound : s.SourcesApart level → s.AdvertisesOnce level now jitter := fun h =>
    ((nodup_reach_iff hs).mpr h).sublist (stored_sublist hs level now jitter)
  refine ⟨hsound, fun hall => ⟨fun h => ?_, hsound⟩⟩
  unfold NodeServer.AdvertisesOnce at h
  rw [stored_eq hs hall] at h
  exact (nodup_reach_iff hs).mp h

/-- `2001:db8::/64`. -/
def sharedPrefix : Prefix := ⟨.v6 (Octets.ofList 16 [0x20, 0x01, 0x0d, 0xb8]), 64⟩

/-- A Level 1 node that advertises a prefix at metric 10 and has its locators. -/
def advertising (locators : List SRv6LocatorConfig) : NodeOptions where
  hmac := fun _ _ _ => []
  systemID := octets6 0 0 0 0 0 1
  areaAddrs := [[0x49]]
  circuits := [ethernet "eth0" true 10]
  prefixes := [⟨sharedPrefix, 10⟩]
  locators := locators

/-- The node started from the options stores every fragment and advertises every prefix once, or
does not, with the reachability entries it is about. -/
def startAdvertises (o : NodeOptions) (once : Bool) (reach : List (Prefix × UInt32)) : Bool :=
  match newNodeServer o with
  | .error _ => false
  | .ok s => decide (s.StoresAll .level1 0 fun _ _ => 0) &&
      decide (s.AdvertisesOnce .level1 0 fun _ _ => 0) == once &&
      (s.reach6 .level1).map (fun e => (e.pfx, e.metric)) == reach

theorem exists_of_startAdvertises {o : NodeOptions} {once : Bool} {reach : List (Prefix × UInt32)}
    (h : startAdvertises o once reach = true) : ∃ s : NodeServer, s.Reachable ∧
      s.StoresAll .level1 0 (fun _ _ => 0) ∧
      (s.AdvertisesOnce .level1 0 (fun _ _ => 0) ↔ once = true) ∧
      (s.reach6 .level1).map (fun e => (e.pfx, e.metric)) = reach := by
  unfold startAdvertises at h
  cases hs : newNodeServer o with
  | error e =>
    rw [hs] at h
    cases h
  | ok s =>
    rw [hs] at h
    simp only [Bool.and_eq_true, decide_eq_true_eq, beq_iff_eq] at h
    obtain ⟨⟨hall, honce⟩, hreach⟩ := h
    exact ⟨s, ⟨o, s, [], hs, rfl⟩, hall, by rw [← honce, decide_eq_true_eq], hreach⟩

/-- The criterion at a prefix without locators. -/
theorem one_advertisement_plain : ∃ s : NodeServer, s.Reachable ∧
    s.StoresAll .level1 0 (fun _ _ => 0) ∧ s.AdvertisesOnce .level1 0 (fun _ _ => 0) ∧
      s.SourcesApart .level1 := by
  have hstart : startAdvertises (advertising []) true [(sharedPrefix, 10)] =
      true := by decide +kernel
  obtain ⟨s, hs, hall, honce, -⟩ := exists_of_startAdvertises hstart
  have honce := honce.mpr rfl
  exact ⟨s, hs, hall, honce, ((one_advertisement_iff hs .level1 0 _).2 hall).mp honce⟩

/-- **A prefix that is also a locator goes out at two metrics**: started with both, the node stores
one node LSP that advertises it at the configured metric and at 0. -/
theorem locator_advertised_twice : ∃ s : NodeServer, s.Reachable ∧
    s.StoresAll .level1 0 (fun _ _ => 0) ∧ ¬ s.AdvertisesOnce .level1 0 (fun _ _ => 0) ∧
      (s.reach6 .level1).map (fun e => (e.pfx, e.metric)) =
      [(sharedPrefix, 10), (sharedPrefix, 0)] := by
  have hstart : startAdvertises (advertising [⟨sharedPrefix, 0⟩]) false
      [(sharedPrefix, 10), (sharedPrefix, 0)] = true := by decide +kernel
  obtain ⟨s, hs, hall, honce, hreach⟩ := exists_of_startAdvertises hstart
  exact ⟨s, hs, hall, fun h => Bool.false_ne_true (honce.mp h), hreach⟩

end Goisis.Server
