import Goisis.Lib.Codec
import Goisis.Server.Config

/-!
# The whole node

`NodeServer` adds to `IsisServer` what origination and the routing table read and write: the
configuration the node advertises, the connected subnets of its circuits, the End.X SIDs, and the
sets `updateRIB` computes. Construction (`NewIsisServer`) validates the options and builds on
`newIsisServer`; `updateRIB` runs on the view `routing`.

`connected` is derived: the source rebuilds it from the circuits' subnets and the option set every
time one of them changes (`setCircuitPrefixes`).

* `newNodeServer_base` — the server under a new node is one `newIsisServer` builds.
-/

namespace Goisis.Server

open Lib Packet List NodeOptions

variable {o : NodeOptions}

/-! ## The state -/

/-- `endXKey`: a locator, the circuit and the neighbour on it. -/
structure EndXKey where
  locator : Prefix
  circuit : String
  neighbor : SystemID
deriving DecidableEq, Repr

/-- `endXSID`. -/
structure AllocatedSID where
  sid : Addr
  function : Nat
  nexthop : Addr
deriving DecidableEq, Repr

/-- `IsisServer` with the fields origination and the routing table use. The value of
`optionPrefixes` is the metric; the prefix of the source's record is the key. `nextLSPGen` is `none`
while it is the zero time. -/
structure NodeServer extends IsisServer where
  areaAddrs : List Bytes
  hostname : Bytes
  locators : List SRv6LocatorConfig
  flexAlgos : List FlexAlgoConfig
  advertiseFilter : Option AdvertiseFilter
  l2LeakFilter : Option AdvertiseFilter
  optionPrefixes : Map Prefix UInt32
  optionConnected : List Prefix
  circuitPrefixes : Map String (List Prefix)
  endXSIDs : Map EndXKey AllocatedSID
  rib : Map Prefix RouteInfo
  flexAlgoComputed : Finset (Level × UInt8)
  l1Export : Map Prefix UInt32
  l2Leak : Map Prefix UInt32
  nextLSPGen : Option Int

/-- `sortedSet(addrs)`. -/
def sortedSet (addrs : List Addr) : List Addr := (addrs.insertionSort addrLE).dedup

/-- `maskedSet(prefixes)`. `slices.SortFunc` is stable up to 12 elements only; above that, prefixes
with one address may come in another order than here. -/
def maskedSet (prefixes : List Prefix) : List Prefix :=
  (prefixes.foldl (fun out p => if out.contains p.masked then out else out ++ [p.masked])
    []).insertionSort fun a b => addrLE a.masked.addr b.masked.addr

namespace NodeServer

/-- `s.circuitPrefixes[name]`. -/
def prefixesOf (s : NodeServer) (name : String) : List Prefix :=
  (s.circuitPrefixes.lookup name).getD []

/-- `s.connected`. -/
def connected (s : NodeServer) : List Prefix :=
  s.optionConnected ++ s.circuitPrefixes.entries.flatMap (·.2)

/-- What the routing table is computed from and in. -/
def routing (s : NodeServer) : RoutingServer where
  toIsisServer := s.toIsisServer
  connected := s.connected
  flexAlgos := s.flexAlgos.map (·.algo)
  optionPrefixes := s.optionPrefixes.keys
  locators := s.locators.map (·.pfx)
  l2LeakFilter := s.l2LeakFilter
  rib := s.rib
  flexAlgoComputed := s.flexAlgoComputed
  l1Export := s.l1Export
  l2Leak := s.l2Leak

/-- `updateRIB(now)`. -/
def updateRIB (s : NodeServer) (o : Level → UInt8 → SpfOrder) (now : Int) : NodeServer :=
  let r := s.routing.updateRIB o now
  { s with
    toIsisServer := r.toIsisServer
    rib := r.rib
    flexAlgoComputed := r.flexAlgoComputed
    l1Export := r.l1Export
    l2Leak := r.l2Leak }

end NodeServer

/-- The map part of `setCircuitPrefixes(name, masked)`. -/
def setCircuitPrefixes (m : Map String (List Prefix)) (name : String) (masked : List Prefix) :
    Map String (List Prefix) :=
  if masked.isEmpty then m.erase name else m.insert name masked

/-! ## Construction -/

/-- The options of the server underneath: circuits with their defaults, resolved keys. -/
def NodeOptions.base (o : NodeOptions) : Options where
  hmac := o.hmac
  systemID := o.systemID
  circuits := o.circuits.map (·.withDefaults)
  areaAuth := o.areaAuth.spec
  domainAuth := o.domainAuth.spec
  lsdbEntryLimit := o.lsdbEntryLimit
  lspMTU := o.lspMTU
  overloadUntil := o.overloadUntil

/-- The node around a constructed server. -/
def NodeOptions.node (o : NodeOptions) (s : IsisServer) : NodeServer where
  toIsisServer := s
  areaAddrs := o.areaAddrs
  hostname := o.hostname
  locators := o.locators
  flexAlgos := o.flexAlgos
  advertiseFilter := o.advertiseFilter
  l2LeakFilter := o.l2LeakFilter
  optionPrefixes := Map.ofList (o.prefixes.map fun p => (p.pfx.masked, p.metric))
  optionConnected := o.connected.map (·.masked)
  circuitPrefixes := o.circuits.foldl
    (fun m cfg => setCircuitPrefixes m cfg.name (maskedSet cfg.connectedPrefixes)) ∅
  endXSIDs := ∅
  rib := ∅
  flexAlgoComputed := ∅
  l1Export := ∅
  l2Leak := ∅
  nextLSPGen := none

/-- `NewIsisServer(opts…)`. -/
def newNodeServer (o : NodeOptions) : Except ConfigError NodeServer := do
  o.validate
  match (IsisServer.blank o.base).installCircuits o.base.circuits with
  | none => .error .noPseudonode
  | some s =>
    let s := s.setLSPBufferSize
    if s.lspBufferSize < 512 then .error (.lspMTU s.lspBufferSize) else .ok (o.node s)

theorem name_of_validate {c : CircuitConfig} (h : c.validate = .ok ()) : c.name ≠ "" := by
  intro hname
  simp only [CircuitConfig.validate, hname, if_true] at h
  cases h

theorem checkCircuits_ok {seen : List String} {cs : List CircuitConfig}
    (h : checkCircuits seen cs = .ok ()) :
    (∀ c ∈ cs, c.validate = .ok ()) ∧ (cs.map (·.name)).Nodup ∧ ∀ c ∈ cs, c.name ∉ seen := by
  induction cs generalizing seen with
  | nil => exact ⟨by simp, nodup_nil, by simp⟩
  | cons c cs ih =>
    obtain ⟨⟨⟩, hc, h⟩ := bind_eq_ok.mp h
    by_cases hseen : seen.contains c.name = true
    · rw [if_pos hseen] at h
      cases h
    rw [if_neg hseen] at h
    obtain ⟨hall, hnodup, hfresh⟩ := ih h
    refine ⟨by simpa using ⟨hc, hall⟩, ?_, ?_⟩
    · rw [map_cons, nodup_cons]
      refine ⟨fun hmem => ?_, hnodup⟩
      obtain ⟨c', hc', hname⟩ := mem_map.mp hmem
      exact hfresh c' hc' (hname ▸ mem_cons_self)
    · intro c' hc'
      rcases mem_cons.mp hc' with rfl | hc'
      · simpa using hseen
      · exact fun hmem => hfresh c' hc' (mem_cons_of_mem _ hmem)

/-- Options that validate have at most 255 circuits, each valid, named apart. -/
theorem NodeOptions.validate_circuits (h : o.validate = .ok ()) :
    o.circuits.length ≤ 255 ∧ (∀ c ∈ o.circuits, c.validate = .ok ()) ∧
      (o.circuits.map (·.name)).Nodup := by
  obtain ⟨⟨⟩, -, h⟩ := bind_eq_ok.mp h
  obtain ⟨⟨⟩, -, h⟩ := bind_eq_ok.mp h
  obtain ⟨⟨⟩, -, h⟩ := bind_eq_ok.mp h
  obtain ⟨⟨⟩, -, h⟩ := bind_eq_ok.mp h
  obtain ⟨⟨⟩, -, h⟩ := bind_eq_ok.mp h
  split at h
  · cases h
  rename_i hlen
  obtain ⟨hall, hnodup, -⟩ := checkCircuits_ok h
  exact ⟨Nat.le_of_not_gt hlen, hall, hnodup⟩

theorem NodeOptions.circuitsValid_base (h : o.validate = .ok ()) : o.base.circuitsValid = true := by
  obtain ⟨hlen, hall, hnodup⟩ := validate_circuits h
  have hnames : o.base.circuits.map (·.name) = o.circuits.map (·.name) := by
    rw [base, List.map_map]
    rfl
  have hdefaults : ∀ c ∈ o.base.circuits, c.name ≠ "" ∧ (c.level1 || c.level2) = true := by
    intro c hc
    obtain ⟨c, hmem, rfl⟩ := mem_map.mp hc
    refine ⟨name_of_validate (hall c hmem), ?_⟩
    simp only [CircuitConfig.withDefaults]
    cases c.level1 <;> cases c.level2 <;> rfl
  unfold Options.circuitsValid
  rw [hnames]
  simpa [base, hlen, hnodup] using hdefaults

/-- **The server under a new node is one `newIsisServer` builds**, from options that validate. -/
theorem newNodeServer_base {s : NodeServer} (h : newNodeServer o = .ok s) :
    o.validate = .ok () ∧ newIsisServer o.base = some s.toIsisServer ∧
      s = o.node s.toIsisServer := by
  obtain ⟨⟨⟩, hvalid, h⟩ := bind_eq_ok.mp h
  refine ⟨hvalid, ?_⟩
  unfold newIsisServer
  rw [circuitsValid_base hvalid]
  cases hi : (IsisServer.blank o.base).installCircuits o.base.circuits with
  | none =>
    rw [hi] at h
    cases h
  | some b =>
    simp only [hi] at h
    by_cases hsize : b.setLSPBufferSize.lspBufferSize < 512
    · rw [if_pos hsize] at h
      cases h
    rw [if_neg hsize] at h
    cases h
    exact ⟨if_neg hsize, rfl⟩

end Goisis.Server
