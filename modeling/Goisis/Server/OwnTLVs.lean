import Goisis.Server.NodeRun

/-!
# The TLVs this node puts on the wire

What a node says about itself reads back from its serialization: every TLV regeneration dictates is
in the form its decoder gives, but for two things a receiver cannot see. An interface address loses
its zone, and a router ID that is not an IPv4 address is 0.0.0.0 (`TLV.onWire`).

* `sendable_fixedTLVs`, `sendable_variableTLVs` — every TLV of our node LSP is canonical on the
  wire, if it serializes at all;
* `decodeTLVs_onWire` — a TLV area of such TLVs decodes to them.
-/

namespace Goisis.Packet

open Lib List Addr

/-! ## What a receiver sees -/

/-- A TLV as a receiver sees it. -/
def TLV.onWire : TLV → TLV
  | .ipv6InterfaceAddresses addrs => .ipv6InterfaceAddresses (addrs.map (·.withoutZone))
  | .routerCapability rid flags subs =>
    .routerCapability (if rid.is4 then rid else .v4 (Octets.zero 4)) flags subs
  | t => t

theorem TLV.serialize_onWire (t : TLV) : t.onWire.serialize = t.serialize := by
  cases t with
  | ipv6InterfaceAddresses addrs =>
    have hzone : ∀ a : Addr, encodeAddr6 a.withoutZone = encodeAddr6 a := by
      intro a
      cases a <;> rfl
    simp only [TLV.onWire, TLV.serialize, writeAll_map, hzone]
  | routerCapability rid flags subs => cases rid <;> rfl
  | _ => rfl

theorem serializeTLVs_onWire (tlvs : List TLV) :
    serializeTLVs (tlvs.map TLV.onWire) = serializeTLVs tlvs := by
  unfold serializeTLVs
  rw [writeAll_map]
  simp only [TLV.serialize_onWire]

/-- What serializes as a whole serializes item by item. -/
theorem ok_of_writeAll {ε α : Type} {enc : α → Except ε Bytes} {as : List α} {b : Bytes}
    (h : writeAll enc as = .ok b) : ∀ a ∈ as, ∃ e, enc a = .ok e := by
  induction as generalizing b with
  | nil => exact fun a ha => absurd ha not_mem_nil
  | cons a as ih =>
    obtain ⟨e, es, he, hes, -⟩ := writeAll_cons.mp h
    intro x hx
    rcases mem_cons.mp hx with rfl | hx
    · exact ⟨e, he⟩
    · exact ih hes x hx

/-- The TLV is canonical as a receiver sees it, if it can be put on the wire. -/
def TLV.Sendable (t : TLV) : Prop := ∀ b, t.serialize = .ok b → t.onWire.Canonical

/-- **What can be put on the wire is what a receiver decodes.** -/
theorem decodeTLVs_onWire {tlvs : List TLV} {b : Bytes} (hc : ∀ t ∈ tlvs, t.Sendable)
    (h : serializeTLVs tlvs = .ok b) : decodeTLVs b = .ok (tlvs.map TLV.onWire) := by
  refine decodeTLVs_serialize (fun t ht => ?_) ((serializeTLVs_onWire tlvs).trans h)
  obtain ⟨t, hmem, rfl⟩ := mem_map.mp ht
  obtain ⟨e, he⟩ := ok_of_writeAll h t hmem
  exact hc t hmem e he

/-- A reachability entry as this node originates it. -/
structure PrefixReach.Plain (e : PrefixReach) : Prop where
  masked : e.pfx.masked = e.pfx
  external : e.external = false
  subTLVs : e.subTLVs = []

theorem PrefixReach.Plain.canonical {e : PrefixReach} (h : e.Plain) (v6 : Bool) :
    e.Canonical v6 := by
  obtain ⟨metric, down, external, p, subs⟩ := e
  obtain ⟨h, rfl, rfl⟩ := h
  refine ⟨fun _ => rfl, ⟨withoutZone_of_masked h, ?_⟩, fun s hs => absurd hs not_mem_nil⟩
  obtain ⟨addr, bits⟩ := p
  unfold Prefix.masked at h
  unfold Prefix.ZeroPadded
  split at h
  · have haddr : addr.mask bits.toNat = addr := congrArg Prefix.addr h
    rw [← haddr]
    cases addr with
    | zero => simp [mask, octets]
    | v4 o => simpa [mask, octets, length_maskOctets] using drop_maskOctets bits.toNat o.val
    | v6 o => simpa [mask, octets, length_maskOctets] using drop_maskOctets bits.toNat o.val
    | v6Zone o zone =>
      simpa [mask, octets, length_maskOctets] using drop_maskOctets bits.toNat o.val
  · cases h
    simp [octets]

end Goisis.Packet

namespace Goisis.Server

open Lib Packet NodeServer List

/-! ## SIDs -/

/-- Every allocated SID is an IPv6 address without a zone. -/
def NodeServer.SidsOnWire (s : NodeServer) : Prop :=
  ∀ k e, s.endXSIDs.lookup k = some e → e.sid.Wire6

section Sids

variable {s t : NodeServer}

theorem wire6_assignSID {sids : Map EndXKey AllocatedSID}
    (hs : ∀ k e, sids.lookup k = some e → e.sid.Wire6) (w : WantedSID) :
    ∀ k e, (assignSID sids w).lookup k = some e → e.sid.Wire6 := by
  unfold assignSID
  split
  · exact hs
  rename_i e he
  intro k e' hk
  rw [Map.lookup_insert_ite] at hk
  split at hk
  · cases hk
    rcases Option.or_eq_some_iff.mp he with he | ⟨-, he⟩
    · exact hs w.key e he
    · obtain ⟨fn, -, rfl⟩ := Option.map_eq_some_iff.mp he
      exact ⟨rfl, rfl⟩
  · exact hs k e' hk

theorem NodeServer.SidsOnWire.congr (hs : s.SidsOnWire) (h : t.endXSIDs = s.endXSIDs) :
    t.SidsOnWire := by
  unfold NodeServer.SidsOnWire
  rw [h]
  exact hs

theorem NodeServer.SidsOnWire.sync (hs : s.SidsOnWire) (now : Int) :
    (s.syncEndXSIDs now).SidsOnWire := by
  refine foldlRecOn (motive := fun sids : Map EndXKey AllocatedSID =>
    ∀ k e, sids.lookup k = some e → e.sid.Wire6) (s.wantedSIDs now) _ ?_ fun sids h w _ =>
      wire6_assignSID h w
  intro k e hk
  rw [lookup_releaseSIDs] at hk
  split at hk
  · exact hs k e hk
  · cases hk

theorem NodeServer.SidsOnWire.quiet (hs : s.SidsOnWire) (h : s.Quiet t) : t.SidsOnWire := by
  induction h with
  | refl => exact hs
  | tail _ hstep ih =>
    cases hstep with
    | base b _ => exact ih
    | upkeep t hstep =>
      cases hstep with
      | sync now => exact ih.sync now
      | work | overload | generated => exact ih

/-- **Every SID is fit for the wire**, in every state of every run. -/
theorem NodeServer.Reachable.sidsOnWire (h : s.Reachable) : s.SidsOnWire := by
  refine (h.induction (P := fun s => s.WellFormed ∧ s.SidsOnWire) (fun o s₀ h₀ => ?_)
    fun s now ev hs => ⟨wellFormed_exec hs.1 now ev, ?_⟩).2
  · refine ⟨wellFormed_newNodeServer h₀, ?_⟩
    obtain ⟨-, -, heq⟩ := newNodeServer_base h₀
    rw [heq]
    intro k e hk
    cases hk
  · obtain ⟨hs, hsids⟩ := hs
    cases hev : ev.installs with
    | false => exact hsids.quiet (quiet_exec hs.names now hev)
    | true =>
      cases ev with
      | start | rx | linkState | setOverload | clearAdjacency | housekeeping | drain => cases hev
      | setAddresses cn v4 v6 connected =>
        unfold NodeEvent.exec setCircuitAddresses
        simp only
        split
        · exact hsids
        · split
          · exact hsids
          · exact hsids
      | addCircuit cfg jitter =>
        unfold NodeEvent.exec NodeServer.addCircuit
        simp only
        split
        · refine NodeServer.SidsOnWire.quiet ?_ upkeep_regenerateLSPs.quiet
          exact hsids.congr rfl
        · exact hsids
      | deleteCircuit name scan jitter =>
        cases hc : s.circuitNamed name with
        | none =>
          unfold NodeEvent.exec
          simp only [deleteCircuit_of_none hc]
          exact hsids
        | some c =>
          obtain ⟨b, -, hupkeep⟩ := upkeep_deleteCircuit hc now scan jitter
          refine NodeServer.SidsOnWire.quiet ?_ hupkeep.quiet
          exact hsids.congr rfl
      | configure call =>
        unfold NodeEvent.exec configure
        simp only
        split
        · exact hsids
        · exact hsids
      | recompute o =>
        unfold NodeEvent.exec
        simp only
        split
        · exact hsids
        · exact hsids

end Sids

/-! ## What is dictated -/

/-- A chunk holds entries of the list it was cut from. -/
theorem mem_tlvChunks {E : Type} {mk : List E → TLV} {entries : List E} {t : TLV}
    (h : t ∈ tlvChunks mk entries) : ∃ es, t = mk es ∧ ∀ e ∈ es, e ∈ entries := by
  obtain ⟨es, hes, rfl⟩ := mem_map.mp h
  refine ⟨es, rfl, fun e he => ?_⟩
  rw [← flatten_chunks (fun es => (mk es).serialize.isOk) entries]
  exact mem_flatten.mpr ⟨es, hes, he⟩

theorem canonical_appendISReach {id : NodeID} {metric : UInt32} {attrs subs : List SubTLV}
    (hattrs : ∀ x ∈ attrs, x.Canonical .isReachability)
    (hsubs : ∀ x ∈ subs, x.Canonical .isReachability) :
    ∀ n ∈ appendISReach id metric attrs subs, n.Canonical := by
  intro n hn x hx
  obtain ⟨taken, htaken, rfl⟩ := mem_map.mp hn
  rcases mem_append.mp hx with hx | hx
  · exact hattrs x hx
  refine hsubs x ?_
  have hmem := mem_flatten.mpr ⟨taken, htaken, hx⟩
  rwa [flatten_pack, nil_append] at hmem

theorem canonical_aslaSubTLVs (cfg : CircuitConfig) :
    ∀ x ∈ cfg.aslaSubTLVs, x.Canonical .isReachability := by
  unfold CircuitConfig.aslaSubTLVs
  split
  · exact fun x hx => absurd hx not_mem_nil
  intro x hx
  rw [mem_singleton.mp hx]
  refine ⟨rfl, fun attr hattr => ?_⟩
  rw [mem_singleton.mp hattr]
  trivial

section Dictated

variable {s : NodeServer} {level : Level}

theorem canonical_endXSubTLV (hsids : s.SidsOnWire) {lc : SRv6LocatorConfig} {c : Circuit}
    {adj : Adjacency} {x : EndXSID} (h : s.endXSubTLV lc c adj = some x) : x.Canonical := by
  obtain ⟨e, he, rfl⟩ := Option.map_eq_some_iff.mp h
  exact ⟨hsids _ e he, fun u hu => absurd hu not_mem_nil⟩

theorem canonical_isReach (hsids : s.SidsOnWire) : ∀ n ∈ s.isReach level, n.Canonical := by
  intro n hn
  obtain ⟨c, -, hn⟩ := mem_flatMap.mp hn
  unfold circuitReach at hn
  split at hn
  · split at hn
    · exact absurd hn not_mem_nil
    · split at hn
      · refine canonical_appendISReach (canonical_aslaSubTLVs c.cfg) (fun x hx => ?_) n hn
        obtain ⟨y, hy, rfl⟩ := mem_map.mp hx
        obtain ⟨lc, -, hy⟩ := mem_filterMap.mp hy
        exact ⟨rfl, canonical_endXSubTLV hsids hy⟩
      · exact absurd hn not_mem_nil
  · split at hn
    · exact absurd hn not_mem_nil
    · split at hn
      · exact absurd hn not_mem_nil
      · refine canonical_appendISReach (canonical_aslaSubTLVs c.cfg) (fun x hx => ?_) n hn
        obtain ⟨adj, -, hx⟩ := mem_flatMap.mp hx
        obtain ⟨y, hy, rfl⟩ := mem_map.mp hx
        obtain ⟨lc, -, hy⟩ := mem_filterMap.mp hy
        exact ⟨rfl, canonical_endXSubTLV hsids hy⟩

/-- A locator that serializes is canonical: its End SID is the masked prefix. -/
theorem canonical_locatorEntry {lc : SRv6LocatorConfig} {b : Bytes}
    (h : lc.locatorEntry.serialize = .ok b) : lc.locatorEntry.Canonical := by
  have h6 : lc.pfx.masked.addr.is6 = true := by
    unfold SRv6Locator.serialize at h
    split at h
    · cases h
    · rename_i h6
      simpa [SRv6LocatorConfig.locatorEntry] using h6
  have hzone := withoutZone_of_masked lc.pfx.masked_masked
  refine ⟨lc.pfx.masked_masked, fun e he => ?_, fun u hu => absurd hu not_mem_nil⟩
  rw [mem_singleton.mp he]
  exact ⟨⟨h6, hzone⟩, fun u hu => absurd hu not_mem_nil⟩

theorem canonical_routerCapabilitySubTLVs :
    ∀ x ∈ s.routerCapabilitySubTLVs level, x.Canonical .routerCapability := by
  intro x hx
  rcases mem_append.mp hx with hx | hx
  · split at hx
    · exact absurd hx not_mem_nil
    · rw [mem_singleton.mp hx]
      exact rfl
  · split at hx
    · exact absurd hx not_mem_nil
    · rcases mem_cons.mp hx with rfl | hx
      · exact rfl
      · obtain ⟨fa, -, rfl⟩ := mem_map.mp hx
        exact rfl

theorem sendable_fixedTLVs : ∀ t ∈ s.fixedTLVs level, t.Sendable := by
  intro t ht b hb
  simp only [fixedTLVs, mem_append, mem_cons, not_mem_nil, or_false] at ht
  rcases ht with (((rfl | rfl) | ht) | ht) | ht
  · trivial
  · trivial
  · split at ht
    · exact absurd ht not_mem_nil
    · rw [mem_singleton.mp ht]
      trivial
  · split at ht
    · exact absurd ht not_mem_nil
    · rw [mem_singleton.mp ht]
      refine ⟨?_, canonical_routerCapabilitySubTLVs⟩
      split
      · assumption
      · rfl
  · obtain ⟨addrs, rfl, -⟩ := mem_tlvChunks ht
    intro a ha
    obtain ⟨a, -, rfl⟩ := mem_map.mp ha
    cases a <;> rfl

/-- The prefix is one an option or a call named, or a subnet of a circuit. -/
def NodeServer.Originates (s : NodeServer) (p : Prefix) : Prop :=
  p ∈ s.optionPrefixes.keys ∨ ∃ c ∈ s.circuits, p ∈ s.prefixesOf c.cfg.name

/-- Nothing else is originated. -/
theorem originates_of_lookup {p : Prefix} {m : UInt32} (h : s.originatedMetrics.lookup p = some m) :
    s.Originates p := by
  suffices hall : ∀ p m, s.originatedMetrics.lookup p = some m → s.Originates p from hall p m h
  refine foldlRecOn (motive := fun met : Map Prefix UInt32 =>
    ∀ p m, met.lookup p = some m → s.Originates p)
    s.optionPrefixes.entries _ ?_ fun met hmet e he p m hp => ?_
  · refine foldlRecOn (motive := fun met : Map Prefix UInt32 =>
      ∀ p m, met.lookup p = some m → s.Originates p)
      s.circuits _ (fun p m hp => ?_) fun met hmet c hc => ?_
    · cases hp
    · refine foldlRecOn (motive := fun met : Map Prefix UInt32 =>
        ∀ p m, met.lookup p = some m → s.Originates p)
        (s.prefixesOf c.cfg.name) _ hmet fun met hmet q hq p m hp => ?_
      by_cases hpq : p = q
      · exact .inr ⟨c, hc, hpq ▸ hq⟩
      refine hmet p m ?_
      unfold offerPrefix at hp
      split at hp
      · rwa [Map.lookup_insert_ite, if_neg hpq] at hp
      · split at hp
        · rwa [Map.lookup_insert_ite, if_neg hpq] at hp
        · exact hp
  · rw [Map.lookup_insert_ite] at hp
    split at hp
    · rename_i hpe
      exact .inl (hpe ▸ mem_map_of_mem he)
    · exact hmet p m hp

section

variable (hs : s.WellFormed)

include hs

/-- The prefixes the node originates are masked. -/
theorem masked_originatedMetrics {p : Prefix} {m : UInt32}
    (h : s.originatedMetrics.lookup p = some m) : p.masked = p := by
  rcases originates_of_lookup h with h | ⟨c, -, h⟩
  · exact hs.optionPrefixes p h
  · exact hs.subnets c.cfg.name p h

theorem plain_ownReach : ∀ e ∈ s.ownReach, e.Plain := by
  intro e he
  obtain ⟨p, hp, rfl⟩ := mem_map.mp he
  obtain ⟨x, hx, rfl⟩ := mem_map.mp (mem_of_mem_filter hp)
  exact ⟨masked_originatedMetrics hs ((Map.mem_sorted prefixLE).mp hx), rfl, rfl⟩

theorem plain_exportedReach : ∀ e ∈ s.exportedReach level, e.Plain := by
  unfold exportedReach
  split
  · intro e he
    obtain ⟨x, hx, rfl⟩ := mem_map.mp he
    have hkey := (Map.mem_sorted prefixLE).mp (mem_of_mem_filter hx)
    exact ⟨hs.exported x.1 (Map.mem_keys_iff.mpr (by rw [hkey]; rfl)), rfl, rfl⟩
  · exact fun e he => absurd he not_mem_nil

theorem plain_leakedReach : ∀ e ∈ s.leakedReach level, e.Plain := by
  unfold leakedReach
  split
  · intro e he
    obtain ⟨x, hx, rfl⟩ := mem_map.mp he
    have hkey := (Map.mem_sorted prefixLE).mp hx
    exact ⟨hs.leaked x.1 (Map.mem_keys_iff.mpr (by rw [hkey]; rfl)), rfl, rfl⟩
  · exact fun e he => absurd he not_mem_nil

theorem plain_reach4 : ∀ e ∈ s.reach4 level, e.Plain := by
  intro e he
  have he := mem_of_mem_filter he
  simp only [mem_append] at he
  rcases he with (he | he) | he
  · exact plain_ownReach hs e he
  · exact plain_exportedReach hs e he
  · exact plain_leakedReach hs e he

theorem plain_reach6 : ∀ e ∈ s.reach6 level, e.Plain := by
  intro e he
  simp only [reach6, mem_append] at he
  rcases he with (he | he) | he
  · exact plain_ownReach hs e (mem_of_mem_filter he)
  · obtain ⟨lc, -, rfl⟩ := mem_map.mp he
    exact ⟨lc.pfx.masked_masked, rfl, rfl⟩
  · rcases mem_append.mp (mem_of_mem_filter he) with he | he
    · exact plain_exportedReach hs e he
    · exact plain_leakedReach hs e he

theorem sendable_variableTLVs (hsids : s.SidsOnWire) : ∀ t ∈ s.variableTLVs level, t.Sendable := by
  intro t ht b hb
  simp only [variableTLVs, mem_append] at ht
  rcases ht with ((ht | ht) | ht) | ht
  · obtain ⟨es, rfl, hes⟩ := mem_tlvChunks ht
    exact fun n hn => canonical_isReach hsids n (hes n hn)
  · obtain ⟨es, rfl, hes⟩ := mem_tlvChunks ht
    exact fun e he => (plain_reach4 hs e (hes e he)).canonical false
  · obtain ⟨es, rfl, hes⟩ := mem_tlvChunks ht
    exact fun e he => (plain_reach6 hs e (hes e he)).canonical true
  · obtain ⟨es, rfl, hes⟩ := mem_tlvChunks ht
    refine ⟨by decide, fun l hl => ?_⟩
    obtain ⟨lc, -, rfl⟩ := mem_map.mp (hes l hl)
    obtain ⟨area, harea, -⟩ := bind_eq_ok.mp hb
    obtain ⟨e, he⟩ := ok_of_writeAll harea _ hl
    exact canonical_locatorEntry he

end

/-- A fragment holds TLVs it was packed from. -/
theorem mem_of_mem_packLSPFragments {fixed vars frag : List TLV} {budget : Int} {t : TLV}
    (hfrag : frag ∈ packLSPFragments fixed vars budget) (ht : t ∈ frag) : t ∈ fixed ∨ t ∈ vars := by
  have hmem := mem_flatten.mpr ⟨frag, hfrag, ht⟩
  rw [packLSPFragments, flatten_pack] at hmem
  exact mem_append.mp hmem

/-- The authentication placeholder `originate` adds can be read back as well. -/
theorem sendable_keyedTLVs {b : IsisServer} {tlvs : List TLV} (h : ∀ t ∈ tlvs, t.Sendable) :
    ∀ t ∈ b.keyedTLVs level tlvs, t.Sendable := by
  unfold IsisServer.keyedTLVs
  split
  · intro t ht
    rcases mem_append.mp ht with ht | ht
    · exact h t ht
    · rw [mem_singleton.mp ht]
      exact fun _ _ => trivial
  · exact h

end Dictated

end Goisis.Server
