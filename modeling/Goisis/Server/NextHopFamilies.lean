import Goisis.Server.NextHops
import Goisis.Server.UpDown

/-!
# Neighbours that route a family on some circuits only

`resolveNextHops` asks `findAdjacency` for the adjacency to a first hop and then looks at what that
adjacency routes (`routesFamily`) and which addresses it lists (`pickGateway`). The question is put
once, and the answer is the first adjacency that is up, in the order of circuits and levels. A
neighbour on two circuits, the first of which does not carry the family, leaves the route without a
next hop.

* `Carries` — an adjacency over which traffic of the prefix's family can leave;
* `next_hops_complete_iff` — the adjacency states in which, whatever the databases hold, every route
  with a first hop over such an adjacency resolves to one: exactly those in which the first Up
  adjacency of every neighbour serves for all the others;
* `second_circuit_ignored` — two links to one neighbour, IPv6 on the second only.
-/

namespace Goisis.Server

open Lib Packet

variable {s : RoutingServer} {h : SystemID} {a : Adjacency} {c : Circuit} {level : Level}
  {p : Prefix}

/-! ## Adjacencies that carry a family -/

/-- The addresses of the family an adjacency lists. -/
def Adjacency.addresses (a : Adjacency) (v4 : Bool) : List Addr :=
  if v4 then a.neighborIPv4 else a.neighborIPv6

/-- The adjacency of the circuit to `h`, up at the level and not suppressed. -/
def Circuit.HasUsable (c : Circuit) (level : Level) (h : SystemID) (a : Adjacency) : Prop :=
  if c.cfg.p2p then
    c.p2pAdj = some a ∧ a.state = .up ∧ a.levels.has level = true ∧ a.systemID = h ∧
      a.suppressed = false
  else (c.adjs level).bind (·.lookup h) = some a ∧ a.state = .up ∧ a.suppressed = false

/-- The Up adjacencies of the circuit to `h`, in the order of its levels. -/
def Circuit.upsTo (c : Circuit) (h : SystemID) : List Adjacency :=
  (if c.cfg.p2p then c.p2pAdj.toList.filter (·.systemID = h)
    else c.cfg.levels.filterMap fun level => (c.adjs level).bind (·.lookup h)).filter
    (·.state = .up)

section Carries

variable (s : RoutingServer) (level : Level) (p : Prefix)

/-- The adjacency of `c` to `h` is usable, routes the family of `p` and lists an address of it. -/
structure RoutingServer.Carries (h : SystemID) (c : Circuit) (a : Adjacency) : Prop where
  mem : c ∈ s.circuits
  usable : c.HasUsable level h a
  routes : routesFamily a.nlpids p.addr.is4 = true
  listed : a.addresses p.addr.is4 ≠ []

/-- Some first hop can be reached so. -/
def RoutingServer.Carried (hops : List SystemID) : Prop :=
  ∃ h ∈ hops, ∃ c a, s.Carries level p h c a

/-- The next hop leads over such an adjacency: its circuit, and an address the adjacency lists. -/
def RoutingServer.Through (hops : List SystemID) (nh : NextHopInfo) : Prop :=
  ∃ h ∈ hops, ∃ c a, s.Carries level p h c a ∧ nh.interface = c.cfg.name ∧
    nh.gateway ∈ a.addresses p.addr.is4

/-- The gateway `resolveNextHops` takes from an adjacency. -/
def RoutingServer.gatewayOf (a : Adjacency) : Addr :=
  pickGateway (a.addresses p.addr.is4) p.addr.is4 s.connected

/-- `a` on `c` is the first Up adjacency to `h`: no circuit before has one. -/
def RoutingServer.FirstUp (h : SystemID) (a : Adjacency) (c : Circuit) : Prop :=
  ∃ pre post, s.circuits = pre ++ c :: post ∧ (∀ c' ∈ pre, c'.upsTo h = []) ∧
    (c.upsTo h).head? = some a

/-- The first Up adjacency to `h` routes the family of `p`, and the gateway picked from it is listed
by an adjacency to `h` that carries the family, on a circuit of that name. -/
def RoutingServer.FirstUpServes (h : SystemID) : Prop :=
  ∃ a c, s.FirstUp h a c ∧ routesFamily a.nlpids p.addr.is4 = true ∧
    (s.gatewayOf p a).isValid = true ∧ ∃ c' a', s.Carries level p h c' a' ∧
      c.cfg.name = c'.cfg.name ∧ s.gatewayOf p a ∈ a'.addresses p.addr.is4

end Carries

/-- **Next-hop completeness**: a merged route, not connected, with a first hop over an adjacency
that carries its family is in the table with a next hop through such an adjacency. -/
def RoutingServer.NextHopsComplete (s : RoutingServer) (o : Level → UInt8 → SpfOrder) (now : Int) :
    Prop :=
  ∀ p r, (s.merged o now).lookup p = some r → s.connected.contains p = false →
    s.Carried r.level p r.nextHops →
    ∃ ri, (s.updateRIB o now).rib.lookup p = some ri ∧
      ∃ nh ∈ ri.nextHops, s.Through r.level p r.nextHops nh

/-! ## The first Up adjacency -/

/-- `findAdjacency` takes the first of the Up adjacencies. -/
theorem findAdjacency_eq :
    s.findAdjacency h = s.circuits.findSome? fun c => (c.upsTo h).head?.map (·, c) := by
  unfold IsisServer.findAdjacency
  congr 1
  funext c
  unfold Circuit.upsTo
  split
  · cases c.p2pAdj with
    | none => rfl
    | some a =>
      by_cases hup : a.state = .up <;> by_cases hsys : a.systemID = h <;> simp [hup, hsys]
  · generalize c.cfg.levels = levels
    induction levels with
    | nil => rfl
    | cons level levels ih =>
      cases hadj : (c.adjs level).bind (·.lookup h) with
      | none => simp [hadj, ih]
      | some a => by_cases hup : a.state = .up <;> simp [hadj, hup, ih]

theorem findAdjacency_eq_some : s.findAdjacency h = some (a, c) ↔ s.FirstUp h a c := by
  simp only [findAdjacency_eq, List.findSome?_eq_some_iff, Option.map_eq_some_iff, Prod.mk.injEq,
    Option.map_eq_none_iff, List.head?_eq_none_iff]
  constructor
  · rintro ⟨pre, c', post, hcs, ⟨a', ha, rfl, rfl⟩, hpre⟩
    exact ⟨pre, post, hcs, hpre, ha⟩
  · rintro ⟨pre, post, hcs, hpre, ha⟩
    exact ⟨pre, c, post, hcs, ⟨a, ha, rfl, rfl⟩, hpre⟩

theorem nextHopVia_eq_some {nh : NextHopInfo} : s.nextHopVia p h = some nh ↔
    ∃ a c, s.FirstUp h a c ∧ routesFamily a.nlpids p.addr.is4 = true ∧
      (s.gatewayOf p a).isValid = true ∧ nh = ⟨c.cfg.name, s.gatewayOf p a⟩ := by
  simp only [← findAdjacency_eq_some]
  unfold RoutingServer.nextHopVia
  cases hfind : s.findAdjacency h with
  | none => simp
  | some found =>
    obtain ⟨a, c⟩ := found
    have hgw : pickGateway (if p.addr.is4 then a.neighborIPv4 else a.neighborIPv6) p.addr.is4
        s.connected = s.gatewayOf p a := rfl
    simp only [hgw]
    cases hfam : routesFamily a.nlpids p.addr.is4 with
    | false => simp [hfam]
    | true =>
      cases hvalid : (s.gatewayOf p a).isValid with
      | false => simp [hvalid]
      | true =>
        constructor
        · intro heq
          exact ⟨a, c, rfl, hfam, hvalid, (Option.some.inj heq).symm⟩
        · rintro ⟨a', c', heq, -, -, rfl⟩
          cases heq
          rfl

/-- `FirstUpServes` is resolving to a next hop through the neighbour. -/
theorem firstUpServes_iff : s.FirstUpServes level p h ↔
    ∃ nh, s.nextHopVia p h = some nh ∧ s.Through level p [h] nh := by
  simp only [nextHopVia_eq_some, RoutingServer.FirstUpServes, RoutingServer.Through,
    List.mem_singleton, exists_eq_left]
  constructor
  · rintro ⟨a, c, hup, hfam, hvalid, hthrough⟩
    exact ⟨_, ⟨a, c, hup, hfam, hvalid, rfl⟩, hthrough⟩
  · rintro ⟨_, ⟨a, c, hup, hfam, hvalid, rfl⟩, hthrough⟩
    exact ⟨a, c, hup, hfam, hvalid, hthrough⟩

theorem Circuit.HasUsable.usable (hu : c.HasUsable level h a) : c.usable level h = true := by
  unfold Circuit.HasUsable at hu
  unfold Circuit.usable
  split at hu
  · obtain ⟨hadj, hup, hlevel, hsys, hsup⟩ := hu
    simp [Circuit.p2pUsable, *]
  · obtain ⟨hadj, hup, hsup⟩ := hu
    simp [Circuit.lanUsable, *]

/-! ## Completeness -/

section Complete

variable {o : Level → UInt8 → SpfOrder} {now : Int}

/-- Which adjacencies carry a family does not depend on the databases. -/
theorem carries_withDbs (dbs : Level → Option LSDB) (c : Circuit) (a : Adjacency) :
    (s.withDbs dbs).Carries level p h c a ↔ s.Carries level p h c a :=
  ⟨fun hc => ⟨hc.mem, hc.usable, hc.routes, hc.listed⟩,
    fun hc => ⟨hc.mem, hc.usable, hc.routes, hc.listed⟩⟩

/-- Completeness over a line. -/
theorem firstUpServes_of_complete (hcomplete : ∀ dbs o now,
      (∀ l, (dbs l).isSome = (s.dbs l).isSome) → (s.withDbs dbs).NextHopsComplete o now)
    (hdb : (s.dbs level).isSome = true) (hne : h ≠ s.systemID) (hp : p.masked = p)
    (hconn : s.connected.contains p = false) (hcarries : s.Carries level p h c a) :
    s.FirstUpServes level p h := by
  have hfirst : s.CanBeFirstHop level h := ⟨hne, .inl ⟨c, hcarries.mem, hcarries.usable.usable⟩⟩
  obtain ⟨line, n, hline, hn⟩ := hfirst.exists_line
  obtain ⟨r, hr, hcomp, hhops⟩ := @lookup_merged_line s level 0 [⟨n, 1, []⟩] line p
    (fun _ _ => .scan fun _ _ => true) h ⟨n, 1, []⟩ hline (by simp) List.mem_cons_self hn
  rw [hp] at hr hcomp
  have hlevel := (computeSPF_level_algo hcomp).1
  -- the route over the line has `h` as its only first hop, so it must resolve through it
  obtain ⟨ri, hri, nh, hnh, x, hx, c', a', hcarries', hthrough⟩ :=
    hcomplete _ _ 0 (isSome_lineDbs hdb) p r hr hconn
      ⟨h, (hhops h).mpr rfl, c, a, (carries_withDbs _ c a).mpr (hlevel ▸ hcarries)⟩
  obtain ⟨-, -, -, -, -, y, hy, hvia⟩ := rib_provenance hr hri hnh
  rw [(hhops x).mp hx, hlevel, carries_withDbs] at hcarries'
  rw [(hhops y).mp hy] at hvia
  exact firstUpServes_iff.mpr ⟨nh, hvia, h, List.mem_singleton.mpr rfl, c', a', hcarries', hthrough⟩

end Complete

/-- **Which adjacency states make next hops complete.** Whatever the databases of its levels hold,
every route with a first hop over an adjacency that carries its family has a next hop through such
an adjacency, if and only if for every neighbour with an adjacency that carries a family at a level
the first Up adjacency to it serves there. -/
theorem next_hops_complete_iff (s : RoutingServer) :
    (∀ dbs o now, (∀ l, (dbs l).isSome = (s.dbs l).isSome) →
        (s.withDbs dbs).NextHopsComplete o now) ↔
      ∀ level h p, (s.dbs level).isSome = true → h ≠ s.systemID → p.masked = p →
        s.connected.contains p = false → (∃ c a, s.Carries level p h c a) →
        s.FirstUpServes level p h := by
  constructor
  · rintro hcomplete level h p hdb hne hp hconn ⟨c, a, hcarries⟩
    exact firstUpServes_of_complete hcomplete hdb hne hp hconn hcarries
  · intro hcond dbs o now hdbs p r hr hconn ⟨h, hh, c, a, hcarries⟩
    obtain ⟨⟨l, algo, aff⟩, hc, hcomp⟩ := lookup_merged_some hr
    obtain ⟨rfl, rfl⟩ := computeSPF_level_algo hcomp
    have hdb : (s.dbs r.level).isSome = true := by
      rw [← hdbs]
      exact (mem_computations.mp hc).1
    have hp := masked_of_lookup_computeSPF hcomp
    obtain ⟨nh, hvia, x, hx, c', a', hcarries', hthrough⟩ := firstUpServes_iff.mp <|
      hcond r.level h p hdb (canBeFirstHop_of_mem hcomp hh).1 hp hconn
        ⟨c, a, (carries_withDbs dbs c a).mp hcarries⟩
    obtain ⟨ri, hri, -, -, hnh⟩ := exists_rib_of_merged hr hp hconn hh hvia
    rw [List.mem_singleton] at hx
    subst hx
    exact ⟨ri, hri, nh, hnh, x, hh, c', a', (carries_withDbs dbs c' a').mpr hcarries', hthrough⟩

/-! ## Two links to one neighbour -/

/-- `fe80::2`. -/
def linkLocal2 : Addr :=
  .v6 (Octets.ofList 16 [0xfe, 0x80, 0, 0, 0, 0, 0, 0, 0, 0, 0, 0, 0, 0, 0, 2])

/-- A point-to-point circuit whose adjacency lists the given addresses and protocols. -/
def familyLink (name : String) (v4 v6 : List Addr) (nlpids : Bytes) : Circuit :=
  { newCircuit (ethernet name true 10) 1 1 with
    p2pAdj := some { systemID := router 2, snpa := Octets.zero 6, state := .up,
                     levels := ⟨true, false⟩, neighborIPv4 := v4, neighborIPv6 := v6,
                     nlpids := nlpids } }

/-- Router 2 routes IPv4 over the first link and IPv6 over the second, and advertises an IPv6
prefix. -/
def dualLinkServer : RoutingServer :=
  routingServer <| levelOneServer (router 1) [familyLink "eth0" [testGateway] [] [nlpidIPv4],
     familyLink "eth1" [] [linkLocal2] [nlpidIPv4, nlpidIPv6]]
    (announcedDB .level1 0
      [(realNode (router 1), [.extendedISReachability [⟨realNode (router 2), 10, []⟩]]),
       (realNode (router 2), [.extendedISReachability [⟨realNode (router 1), 10, []⟩],
          .ipv6Reachability [⟨5, false, false, docNet6, []⟩]])])

/-- **The second circuit is never asked**: the route to the IPv6 prefix has router 2 as its first
hop, which the second link carries, and the table has no entry. -/
theorem second_circuit_ignored :
    ((dualLinkServer.merged scanOrder 0).lookup docNet6).map (fun r => (r.level, r.nextHops)) =
        some (.level1, [router 2]) ∧
      dualLinkServer.connected.contains docNet6 = false ∧
      dualLinkServer.Carried .level1 docNet6 [router 2] ∧
      (dualLinkServer.updateRIB scanOrder 0).rib.lookup docNet6 = none := by
  refine ⟨by decide +kernel, rfl, ?_, by decide +kernel⟩
  refine ⟨router 2, List.mem_cons_self, _, _,
    ⟨List.mem_cons_of_mem _ List.mem_cons_self, ⟨rfl, rfl, rfl, rfl, rfl⟩, by decide, ?_⟩⟩
  show [linkLocal2] ≠ []
  exact List.cons_ne_nil _ _

end Goisis.Server
