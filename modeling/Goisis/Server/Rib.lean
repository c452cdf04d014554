import Goisis.Server.Spf

/-!
# The routing table

Model of `updateRIB` (`pkg/server/rib.go`): the computations of every level and algorithm, the
choice among their routes to one prefix (`betterRoute`), the resolution of first hops to interface
and gateway (`resolveNextHops`), and the prefixes carried between the levels.

`RoutingServer` adds the fields this reads and writes to `IsisServer`. A set that only serves as
`map[K]bool` is the list of its keys. Logging, metrics and the writes to the forwarding plane
(`programFIB`) leave the table as it is and are not part of the model.

* `lookup_merged_some`, `lookup_merged_of_only` — what the merged table holds for a prefix;
* `lookup_rib` — what becomes of it in the routing table;
* `mem_resolveNextHops` — a next hop comes from one first hop.
-/

namespace Goisis.Server

open Lib Packet List

variable {p : Prefix}

/-! ## `net/netip` -/

/-- `Prefix.Contains(ip)`: never for an address with a zone. -/
def containsAddr (p : Prefix) (a : Addr) : Bool :=
  p.isValid && a.withoutZone == a && a.bitLen != 0 && p.addr.bitLen == a.bitLen &&
    p.addr.mask p.bits.toNat == a.mask p.bits.toNat

/-- The sixteen octets of an IPv4-mapped address. -/
def mapped4 (o : Bytes) : Bool := o.take 12 = replicate 10 0 ++ [0xff, 0xff]

/-- `Addr.IsLinkLocalUnicast`; an IPv4-mapped address is unmapped first. -/
def isLinkLocalUnicast (a : Addr) : Bool :=
  match a.withoutZone with
  | .v4 o => at8 o.val 0 == 169 && at8 o.val 1 == 254
  | .v6 o =>
    if mapped4 o.val then at8 o.val 12 == 169 && at8 o.val 13 == 254
    else at8 o.val 0 == 0xfe && at8 o.val 1 &&& 0xc0 == 0x80
  | _ => false

/-- Four octets in dotted decimal. -/
def dottedText (o : Bytes) : String := ".".intercalate (o.map fun b => toString b.toNat)

/-- The eight 16-bit groups of an IPv6 address. -/
def groups16 (o : Bytes) : List Nat := (range 8).map fun i => (u16At o (2 * i)).toNat

/-- The first longest run of zero groups, if it is at least two long: its start and length. -/
def longestZeroRun (gs : List Nat) : Option (Nat × Nat) :=
  (range gs.length).foldl (fun best i =>
    let l := ((gs.drop i).takeWhile (· == 0)).length
    match best with
    | none => if 2 ≤ l then some (i, l) else none
    | some (_, m) => if m < l then some (i, l) else best) none

/-- Sixteen octets as an IPv6 address is written. -/
def text6 (o : Bytes) : String :=
  if mapped4 o then "::ffff:" ++ dottedText (o.drop 12)
  else
    let gs := groups16 o
    let hex (l : List Nat) : String :=
      ":".intercalate (l.map fun g => String.ofList (Nat.toDigits 16 g))
    match longestZeroRun gs with
    | none => hex gs
    | some (i, l) => hex (gs.take i) ++ "::" ++ hex (gs.drop (i + l))

/-- `Addr.String()`. -/
def addrText : Addr → String
  | .zero => "invalid IP"
  | .v4 o => dottedText o.val
  | .v6 o => text6 o.val
  | .v6Zone o zone => text6 o.val ++ "%" ++ zone

/-! ## The state -/

/-- `NextHopInfo`. -/
structure NextHopInfo where
  interface : String
  gateway : Addr
deriving DecidableEq, Repr

/-- `RouteInfo`. -/
structure RouteInfo where
  pfx : Prefix
  metric : UInt32
  level : Level
  preference : UInt8
  algorithm : UInt8
  nextHops : List NextHopInfo
deriving DecidableEq, Repr

/-- The server with the fields `updateRIB` works on. Of a Flexible Algorithm's configuration only
its number is read here, of a locator's only its prefix. -/
structure RoutingServer extends IsisServer where
  connected : List Prefix
  flexAlgos : List UInt8
  optionPrefixes : List Prefix
  locators : List Prefix
  l2LeakFilter : Option (Prefix → UInt32 → Bool)
  rib : Map Prefix RouteInfo
  flexAlgoComputed : Finset (Level × UInt8)
  l1Export : Map Prefix UInt32
  l2Leak : Map Prefix UInt32

/-! ## Next hops -/

/-- `NLPIDIPv4`. -/
def nlpidIPv4 : UInt8 := 0xcc

/-- `NLPIDIPv6`. -/
def nlpidIPv6 : UInt8 := 0x8e

/-- `routesFamily(nlpids, v4)`. -/
def routesFamily (nlpids : Bytes) (v4 : Bool) : Bool :=
  if nlpids.length = 0 then true else nlpids.contains (if v4 then nlpidIPv4 else nlpidIPv6)

/-- `pickGateway(addrs, v4, connected)`. -/
def pickGateway (addrs : List Addr) (v4 : Bool) (connected : List Prefix) : Addr :=
  let corroborated (a : Addr) : Bool :=
    if v4 then connected.any fun p => p.addr.is4 && containsAddr p a else isLinkLocalUnicast a
  match addrs.find? corroborated with
  | some a => a
  | none => addrs.headD .zero

/-- The order of the resolved next hops: by interface, then by the gateway's text. -/
def nextHopLE (a b : NextHopInfo) : Prop :=
  a.interface < b.interface ∨
    a.interface = b.interface ∧ addrText a.gateway ≤ addrText b.gateway

instance : DecidableRel nextHopLE := fun _ _ => inferInstanceAs (Decidable (_ ∨ _ ∧ _))

/-- `betterRoute(candidate, incumbent)`. -/
def betterRoute (candidate incumbent : Route) : Bool :=
  if preferenceClass candidate ≠ preferenceClass incumbent then
    preferenceClass candidate < preferenceClass incumbent
  else candidate.algo < incumbent.algo

/-- One pass of the merging loop over the routes of a computation. -/
def mergeComputed (merged computed : Map Prefix Route) : Map Prefix Route :=
  computed.entries.foldl (fun merged e =>
    match merged.lookup e.1 with
    | some cur => if betterRoute e.2 cur then merged.insert e.1 e.2 else merged
    | none => merged.insert e.1 e.2) merged

namespace RoutingServer

variable (s : RoutingServer)

/-- What one first hop resolves to. -/
def nextHopVia (p : Prefix) (h : SystemID) : Option NextHopInfo :=
  match s.findAdjacency h with
  | none => none
  | some (adj, c) =>
    let v4 := p.addr.is4
    if !routesFamily adj.nlpids v4 then none
    else
      let gw := pickGateway (if v4 then adj.neighborIPv4 else adj.neighborIPv6) v4 s.connected
      if !gw.isValid then none else some ⟨c.cfg.name, gw⟩

/-- `resolveNextHops(prefix, hops)`: the key by which the source drops repetitions determines the
pair, since no address renders with a bar. -/
def resolveNextHops (p : Prefix) (hops : List SystemID) : List NextHopInfo :=
  (hops.filterMap (s.nextHopVia p)).dedup.insertionSort nextHopLE

/-! ## Computations -/

/-- `routingAlgos()`. -/
def routingAlgos : List UInt8 :=
  (0 :: s.flexAlgos).dedup.insertionSort (· ≤ ·)

/-- The affinity rules of an algorithm at a level; `none` when it is not computed: no definition, a
metric type other than IGP, or a constraint that is not evaluated. -/
def algoRules (level : Level) (now : Int) (algo : UInt8) : Option FlexAlgoAffinity :=
  if algo = 0 then some {}
  else
    match (s.flexAlgoState level now).lookup algo with
    | none => none
    | some d => if d.metricType ≠ flexAlgoMetricIGP then none else flexAlgoAffinityOf d

/-- The computations `updateRIB` makes. -/
def computations (now : Int) : List (Level × UInt8 × FlexAlgoAffinity) :=
  (Level.all.filter fun level => (s.dbs level).isSome).flatMap fun level =>
    s.routingAlgos.filterMap fun algo =>
      (s.algoRules level now algo).map fun aff => (level, algo, aff)

/-- The merged route set; `o` is the order of each computation. -/
def merged (s : RoutingServer) (o : Level → UInt8 → SpfOrder) (now : Int) : Map Prefix Route :=
  (s.computations now).foldl (fun merged c =>
    mergeComputed merged (s.computeSPF (o c.1 c.2.1) c.1 c.2.1 c.2.2 now)) ∅

/-- A merged route as it goes into the table. -/
def routeInfo (p : Prefix) (r : Route) : Option RouteInfo :=
  if s.connected.contains p.masked then none
  else
    let nhs := s.resolveNextHops p r.nextHops
    if nhs.length = 0 then none
    else some ⟨p, r.metric, r.level, preferenceClass r, r.algo, nhs⟩

/-! ## Between the levels -/

/-- `ownAdvertised()`. -/
def ownAdvertised : List Prefix :=
  s.optionPrefixes ++ s.connected ++ s.locators.map (·.masked)

/-- `l1ExportSet(merged)`. -/
def l1ExportSet (merged : Map Prefix Route) : Map Prefix UInt32 :=
  if !s.levelCap.has .level1 || !s.levelCap.has .level2 then ∅
  else merged.filterMap fun p r =>
    if r.level ≠ .level1 ∨ r.algo ≠ 0 then none
    else if r.down then none
    else if r.mt then none
    else if p = defaultV4 ∨ p = defaultV6 then none
    else if s.ownAdvertised.contains p then none
    else some r.metric

/-- `l2LeakSet(merged, l2)`. -/
def l2LeakSet (merged l2 : Map Prefix Route) : Map Prefix UInt32 :=
  match s.l2LeakFilter with
  | none => ∅
  | some leakable =>
    if !s.levelCap.has .level1 || !s.levelCap.has .level2 then ∅
    else l2.filterMap fun p r =>
      if r.mt then none
      else if p = defaultV4 ∨ p = defaultV6 then none
      else if s.ownAdvertised.contains p then none
      else if (merged.lookup p).any fun cur => cur.level == .level1 && cur.algo == 0 then none
      else if !leakable p r.metric then none
      else some r.metric

/-- The Level 2 routes of algorithm 0, the candidates for leaking. -/
def l2Reach (o : Level → UInt8 → SpfOrder) (now : Int) : Map Prefix Route :=
  if (s.dbs .level2).isSome then s.computeSPF (o .level2 0) .level2 0 {} now else ∅

/-- `updateRIB(now)`. -/
def updateRIB (o : Level → UInt8 → SpfOrder) (now : Int) : RoutingServer :=
  let merged := s.merged o now
  let computed :=
    (((s.computations now).filter fun c => c.2.1 ≠ 0).map fun c => (c.1, c.2.1)).toFinset
  let s := { s with
    flexAlgoComputed := computed
    lspGenPending := s.lspGenPending || computed ≠ s.flexAlgoComputed }
  let s := { s with rib := merged.filterMap s.routeInfo }
  let exported := s.l1ExportSet merged
  let s := { s with
    l1Export := if exported.equal s.l1Export then s.l1Export else exported
    lspGenPending := s.lspGenPending || !exported.equal s.l1Export }
  let leak := s.l2LeakSet merged (s.l2Reach o now)
  { s with
    l2Leak := if leak.equal s.l2Leak then s.l2Leak else leak
    lspGenPending := s.lspGenPending || !leak.equal s.l2Leak }

end RoutingServer

/-! ## Reading the table -/

/-- The route the merging loop keeps of two. -/
def keptRoute (cur : Option Route) (r : Route) : Route :=
  match cur with
  | none => r
  | some cur => if betterRoute r cur then r else cur

theorem keyedLoop_merge : KeyedLoop (fun (merged : Map Prefix Route) (e : (_ : Prefix) × Route) =>
    match merged.lookup e.1 with
    | some cur => if betterRoute e.2 cur then merged.insert e.1 e.2 else merged
    | none => merged.insert e.1 e.2) (·.1) (fun m p => m.lookup p)
    (fun e cur => some (keptRoute cur e.2)) fun _ => True where
  keeps _ _ _ := trivial
  self m e _ := by
    cases hcur : m.lookup e.1 with
    | none => simp only [Map.lookup_insert_ite, if_true, keptRoute]
    | some cur =>
      simp only [keptRoute]
      split
      · rw [Map.lookup_insert_ite, if_pos rfl]
      · exact hcur
  other m e k _ hk := by
    cases m.lookup e.1 with
    | none => exact (Map.lookup_insert_ite _ _ _ _).trans (if_neg hk)
    | some cur =>
      simp only
      split
      · exact (Map.lookup_insert_ite _ _ _ _).trans (if_neg hk)
      · rfl

theorem lookup_mergeComputed (merged computed : Map Prefix Route) (p : Prefix) :
    (mergeComputed merged computed).lookup p =
      match computed.lookup p with
      | none => merged.lookup p
      | some r => some (keptRoute (merged.lookup p) r) := by
  cases hp : computed.lookup p with
  | none =>
    refine keyedLoop_merge.read_of_forall_ne trivial fun e he heq => ?_
    have hmem := AList.mem_lookup_iff.mpr he
    rw [heq, hp] at hmem
    cases hmem
  | some r =>
    exact keyedLoop_merge.read_of_mem (e := ⟨p, r⟩) trivial computed.nodupKeys
      (AList.mem_lookup_iff.mp hp)

variable {r : Route}

theorem lookup_mergeComputed_some {merged computed : Map Prefix Route}
    (h : (mergeComputed merged computed).lookup p = some r) :
    merged.lookup p = some r ∨ computed.lookup p = some r := by
  rw [lookup_mergeComputed] at h
  cases hc : computed.lookup p with
  | none =>
    rw [hc] at h
    exact .inl h
  | some r' =>
    rw [hc] at h
    have hkept : keptRoute (merged.lookup p) r' = r := Option.some.inj h
    cases hm : merged.lookup p with
    | none =>
      rw [hm] at hkept
      exact .inr (congrArg some hkept)
    | some cur =>
      rw [hm] at hkept
      simp only [keptRoute] at hkept
      split at hkept
      · exact .inr (congrArg some hkept)
      · exact .inl (congrArg some hkept)

/-- A route of merged tables is the route of one of them. -/
theorem lookup_foldl_mergeComputed_some {α : Type} {f : α → Map Prefix Route} {l : List α}
    (h : (l.foldl (fun merged x => mergeComputed merged (f x)) ∅).lookup p = some r) :
    ∃ x ∈ l, (f x).lookup p = some r := by
  induction l using reverseRecOn with
  | nil => cases h
  | append_singleton l x ih =>
    rw [foldl_concat] at h
    rcases lookup_mergeComputed_some h with hm | hc
    · obtain ⟨y, hy, hr⟩ := ih hm
      exact ⟨y, mem_append_left _ hy, hr⟩
    · exact ⟨x, mem_append_right _ mem_cons_self, hc⟩

variable {ri : RouteInfo}

section Table

variable {s : RoutingServer} {o : Level → UInt8 → SpfOrder} {now : Int}

theorem mem_computations {c : Level × UInt8 × FlexAlgoAffinity} :
    c ∈ s.computations now ↔ (s.dbs c.1).isSome = true ∧ c.2.1 ∈ s.routingAlgos ∧
      s.algoRules c.1 now c.2.1 = some c.2.2 := by
  obtain ⟨l, a, aff⟩ := c
  simp only [RoutingServer.computations, mem_flatMap, mem_filter, mem_filterMap,
    Option.map_eq_some_iff]
  constructor
  · rintro ⟨l', ⟨-, hdb⟩, a', ha, aff', haff, heq⟩
    cases heq
    exact ⟨hdb, ha, haff⟩
  · rintro ⟨hdb, ha, haff⟩
    exact ⟨l, ⟨l.mem_all, hdb⟩, a, ha, aff, haff, rfl⟩

/-- Algorithm 0 is computed at every level with a database, without affinity rules. -/
theorem mem_computations_zero {level : Level} {aff : FlexAlgoAffinity} :
    (level, 0, aff) ∈ s.computations now ↔ (s.dbs level).isSome = true ∧ aff = {} := by
  rw [mem_computations]
  constructor
  · rintro ⟨hdb, -, haff⟩
    exact ⟨hdb, (Option.some.inj haff).symm⟩
  · rintro ⟨hdb, rfl⟩
    exact ⟨hdb, by simp [RoutingServer.routingAlgos], rfl⟩

/-- A merged route is the route of one of the computations. -/
theorem lookup_merged_some (h : (s.merged o now).lookup p = some r) :
    ∃ c ∈ s.computations now, (s.computeSPF (o c.1 c.2.1) c.1 c.2.1 c.2.2 now).lookup p = some r :=
  lookup_foldl_mergeComputed_some h

/-- If only one computation has a route to `p`, that is the merged route. -/
theorem lookup_merged_of_only {c : Level × UInt8 × FlexAlgoAffinity} (hc : c ∈ s.computations now)
    (hr : (s.computeSPF (o c.1 c.2.1) c.1 c.2.1 c.2.2 now).lookup p = some r)
    (hother : ∀ c' ∈ s.computations now, c' ≠ c →
      (s.computeSPF (o c'.1 c'.2.1) c'.1 c'.2.1 c'.2.2 now).lookup p = none) :
    (s.merged o now).lookup p = some r := by
  unfold RoutingServer.merged
  generalize s.computations now = cs at hc hother
  have hfold : ∀ m : Map Prefix Route, m.lookup p = some r ∨ (m.lookup p = none ∧ c ∈ cs) →
      (cs.foldl (fun merged c =>
        mergeComputed merged (s.computeSPF (o c.1 c.2.1) c.1 c.2.1 c.2.2 now)) m).lookup p =
          some r := by
    clear hc
    induction cs with
    | nil =>
      rintro m (hm | ⟨-, hmem⟩)
      · exact hm
      · cases hmem
    | cons d cs ih =>
      intro m hm
      refine ih (fun c' hc' => hother c' (mem_cons_of_mem _ hc')) _ ?_
      rw [lookup_mergeComputed]
      by_cases hd : d = c
      · subst hd
        rw [hr]
        refine .inl (congrArg some ?_)
        rcases hm with hm | ⟨hm, -⟩
        · simp [hm, keptRoute]
        · simp [hm, keptRoute]
      · rw [hother d mem_cons_self hd]
        refine hm.imp_right fun h => ⟨h.1, ?_⟩
        rcases mem_cons.mp h.2 with heq | hmem
        · exact absurd heq.symm hd
        · exact hmem
  exact hfold ∅ (.inr ⟨rfl, hc⟩)

/-- **What the table holds for a prefix.** -/
theorem lookup_rib :
    (s.updateRIB o now).rib.lookup p = ((s.merged o now).lookup p).bind (s.routeInfo p) :=
  Map.lookup_filterMap _ _ p

theorem routeInfo_some (h : s.routeInfo p r = some ri) :
    s.connected.contains p.masked = false ∧ ri.metric = r.metric ∧ ri.level = r.level ∧
      ri.algorithm = r.algo ∧ ri.nextHops = s.resolveNextHops p r.nextHops := by
  unfold RoutingServer.routeInfo at h
  split at h
  · cases h
  rename_i hconn
  simp only at h
  split at h
  · cases h
  · cases h
    exact ⟨by simpa using hconn, rfl, rfl, rfl, rfl⟩

theorem routeInfo_pfx (h : s.routeInfo p r = some ri) : ri.pfx = p := by
  unfold RoutingServer.routeInfo at h
  split at h
  · cases h
  simp only at h
  split at h
  · cases h
  · cases h
    rfl

theorem routeInfo_eq_some (hconn : s.connected.contains p.masked = false)
    (hhops : s.resolveNextHops p r.nextHops ≠ []) : s.routeInfo p r =
      some ⟨p, r.metric, r.level, preferenceClass r, r.algo, s.resolveNextHops p r.nextHops⟩ := by
  unfold RoutingServer.routeInfo
  simp only [hconn, Bool.false_eq_true, if_false, length_eq_zero_iff, if_neg hhops]

/-- **A next hop comes from one first hop.** -/
theorem mem_resolveNextHops {hops : List SystemID} {nh : NextHopInfo} :
    nh ∈ s.resolveNextHops p hops ↔ ∃ h ∈ hops, s.nextHopVia p h = some nh := by
  unfold RoutingServer.resolveNextHops
  rw [mem_insertionSort, mem_dedup, mem_filterMap]

end Table

end Goisis.Server
