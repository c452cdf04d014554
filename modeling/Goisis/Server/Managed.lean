import Goisis.Lib.Keyed
import Goisis.Server.Node

/-!
# The configuration a node runs

`Managed` is the part of the node the runtime configuration calls read and write: locators,
Flexible Algorithms, the prefixes named by option, the circuits with their pseudonode octets, and
the connected subnets on record.

It is read one value at a time: the algorithms a locator is listed for (`listed`), the definition of
an algorithm (`flexAlgo`), the metric of a prefix, the configuration of a circuit (`circuit`). Two
nodes are configured alike (`Alike`) when all of these agree, up to the order they were made in
(`alike_iff`).

* `Managed.WellKept` — names and algorithms are distinct, and the subnets on record are those of the
  circuits;
* `managed_newNodeServer` — a start runs what its options describe, on circuits wide enough for an
  LSP.
-/

namespace Goisis.Server

open Lib Packet List NodeOptions

variable {o : NodeOptions}

/-! ## The state -/

/-- A circuit as the configuration calls see it. -/
structure RunningCircuit where
  cfg : CircuitConfig
  pseudonodeID : UInt8
deriving DecidableEq, Repr

/-- What the runtime configuration calls read and write of the node. -/
structure Managed where
  locators : List SRv6LocatorConfig
  flexAlgos : List FlexAlgoConfig
  optionPrefixes : Map Prefix UInt32
  circuits : List RunningCircuit
  pseudonodeCursor : Nat
  circuitPrefixes : Map String (List Prefix)

/-- The configuration part of a node. -/
def NodeServer.managed (s : NodeServer) : Managed where
  locators := s.locators
  flexAlgos := s.flexAlgos
  optionPrefixes := s.optionPrefixes
  circuits := s.circuits.map fun c => ⟨c.cfg, c.pseudonodeID⟩
  pseudonodeCursor := s.pseudonodeCursor
  circuitPrefixes := s.circuitPrefixes

/-! ## Connected subnets as sets -/

theorem foldl_masked_eq {l out : List Prefix} (hmask : ∀ p ∈ l, p.masked = p)
    (hnodup : (out ++ l).Nodup) :
    l.foldl (fun out p => if out.contains p.masked then out else out ++ [p.masked]) out =
      out ++ l := by
  induction l generalizing out with
  | nil => simp
  | cons p l ih =>
    have hp : p.masked = p := hmask p mem_cons_self
    have hnew : ¬ out.contains p = true := by
      rw [contains_iff_mem]
      exact fun hmem => (nodup_append.mp hnodup).2.2 p hmem p mem_cons_self rfl
    rw [foldl_cons, hp, if_neg hnew,
      ih (fun q hq => hmask q (mem_cons_of_mem _ hq)) (by simpa using hnodup)]
    simp

theorem foldl_masked_keeps {l out : List Prefix} (hmask : ∀ p ∈ out, p.masked = p)
    (hnodup : out.Nodup) :
    let r := l.foldl (fun out p => if out.contains p.masked then out else out ++ [p.masked]) out
    (∀ p ∈ r, p.masked = p) ∧ r.Nodup := by
  induction l generalizing out with
  | nil => exact ⟨hmask, hnodup⟩
  | cons p l ih =>
    rw [foldl_cons]
    by_cases hp : out.contains p.masked = true
    · rw [if_pos hp]
      exact ih hmask hnodup
    rw [if_neg hp]
    refine ih ?_ ?_
    · intro q hq
      rcases mem_append.mp hq with hq | hq
      · exact hmask q hq
      · rw [mem_singleton.mp hq, Prefix.masked_masked]
    · rw [nodup_append_comm, singleton_append, nodup_cons]
      exact ⟨fun hmem => hp (contains_iff_mem.mpr hmem), hnodup⟩

/-- A set of subnets is its own masked set. -/
theorem maskedSet_maskedSet (l : List Prefix) : maskedSet (maskedSet l) = maskedSet l := by
  have hnil : ∀ p ∈ ([] : List Prefix), p.masked = p := by simp
  have hfold := foldl_masked_keeps (l := l) hnil nodup_nil
  have hperm := perm_insertionSort (fun a b : Prefix => addrLE a.masked.addr b.masked.addr)
    (l.foldl (fun out p => if out.contains p.masked then out else out ++ [p.masked]) [])
  have hmask : ∀ p ∈ maskedSet l, p.masked = p := fun p hp => hfold.1 p (hperm.mem_iff.mp hp)
  have hnodup : (maskedSet l).Nodup := hperm.nodup_iff.mpr hfold.2
  have hsorted : (maskedSet l).Pairwise fun a b => addrLE a.masked.addr b.masked.addr := by
    have : IsTrans Prefix fun a b => addrLE a.masked.addr b.masked.addr :=
      ⟨fun _ _ _ h h' => IsTrans.trans _ _ _ h h'⟩
    have : Std.Total fun a b : Prefix => addrLE a.masked.addr b.masked.addr :=
      ⟨fun a b => Std.Total.total a.masked.addr b.masked.addr⟩
    exact pairwise_insertionSort _ _
  rw [maskedSet, foldl_masked_eq hmask (by simpa using hnodup), nil_append]
  exact hsorted.insertionSort_eq

namespace Managed

variable (m : Managed)

variable {m' : Managed}

/-! ## The values it holds -/

/-- `s.circuitPrefixes[name]`. -/
def prefixesOf (name : String) : List Prefix := (m.circuitPrefixes.lookup name).getD []

/-- The algorithms the locators of a prefix are bound to, in order. -/
def listed (p : Prefix) : List UInt8 :=
  listing (fun lc : SRv6LocatorConfig => lc.pfx.masked) (·.algo) m.locators p

/-- The definition of an algorithm. -/
def flexAlgo (algo : UInt8) : Option FlexAlgoConfig := m.flexAlgos.find? fun fa => fa.algo = algo

/-- `circuitNamed(name)`, as its configuration. -/
def circuit (name : String) : Option CircuitConfig :=
  (m.circuits.find? fun c => c.cfg.name = name).map (·.cfg)

/-- A circuit has the prefix connected. -/
def Connected (p : Prefix) : Prop := ∃ c ∈ m.circuits, p ∈ m.prefixesOf c.cfg.name

/-- Algorithms and circuit names are distinct, and the subnets on record are those the circuits came
with. -/
structure WellKept : Prop where
  flexAlgos : (m.flexAlgos.map (·.algo)).Nodup
  circuits : (m.circuits.map (·.cfg.name)).Nodup
  subnets : ∀ name, m.prefixesOf name =
    ((m.circuit name).map fun cfg => maskedSet cfg.connectedPrefixes).getD []

variable {m}

theorem prefixesOf_set (name name' : String) (l : List Prefix) (ps : Map String (List Prefix)) :
    ((setCircuitPrefixes ps name l).lookup name').getD [] =
      if name' = name then l else (ps.lookup name').getD [] := by
  unfold setCircuitPrefixes
  by_cases hl : l.isEmpty = true
  · rw [if_pos hl, Map.lookup_erase_ite]
    by_cases hn : name' = name
    · rw [if_pos hn, if_pos hn, List.isEmpty_iff.mp hl]
      rfl
    · rw [if_neg hn, if_neg hn]
  · rw [if_neg hl, Map.lookup_insert_ite]
    by_cases hn : name' = name
    · rw [if_pos hn, if_pos hn]
      rfl
    · rw [if_neg hn, if_neg hn]

theorem circuit_eq_none {name : String} :
    m.circuit name = none ↔ name ∉ m.circuits.map (·.cfg.name) := by
  rw [circuit, Option.map_eq_none_iff, find?_key_eq_none]

theorem listed_congr (h : m.locators = m'.locators) (p : Prefix) : m.listed p = m'.listed p := by
  rw [listed, h, listed]

theorem flexAlgo_congr (h : m.flexAlgos = m'.flexAlgos) (algo : UInt8) :
    m.flexAlgo algo = m'.flexAlgo algo := by rw [flexAlgo, h, flexAlgo]

theorem circuit_congr (h : m.circuits = m'.circuits) (name : String) :
    m.circuit name = m'.circuit name := by rw [circuit, h, circuit]

/-- What is on record about circuits does not depend on the rest. -/
theorem WellKept.of_eq (h : m.WellKept) (hflex : (m'.flexAlgos.map (·.algo)).Nodup)
    (hcs : m'.circuits = m.circuits) (hps : m'.circuitPrefixes = m.circuitPrefixes) :
    m'.WellKept where
  flexAlgos := hflex
  circuits := hcs ▸ h.circuits
  subnets name := by
    rw [circuit_congr hcs, prefixesOf, hps]
    exact h.subnets name

theorem WellKept.connected_iff (h : m.WellKept) {p : Prefix} :
    m.Connected p ↔ ∃ name cfg, m.circuit name = some cfg ∧
      p ∈ maskedSet cfg.connectedPrefixes := by
  constructor
  · rintro ⟨c, hc, hp⟩
    have hcfg : m.circuit c.cfg.name = some c.cfg := by
      rw [circuit, find?_key_of_mem h.circuits hc]
      rfl
    rw [h.subnets, hcfg] at hp
    exact ⟨c.cfg.name, c.cfg, hcfg, hp⟩
  · rintro ⟨name, cfg, hcfg, hp⟩
    obtain ⟨c, hc, rfl⟩ := Option.map_eq_some_iff.mp hcfg
    obtain ⟨hmem, rfl⟩ := find?_key_eq_some hc
    refine ⟨c, hmem, ?_⟩
    rw [h.subnets, hcfg]
    exact hp

/-! ## The same configuration -/

/-- The same configuration, up to the order it was made in. Pseudonode octets are not compared. -/
structure Alike (m m' : Managed) : Prop where
  locators : (m.locators.map fun lc => (lc.pfx.masked, lc.algo)).Perm
    (m'.locators.map fun lc => (lc.pfx.masked, lc.algo))
  flexAlgos : m.flexAlgos.Perm m'.flexAlgos
  prefixes : ∀ p, m.optionPrefixes.lookup p = m'.optionPrefixes.lookup p
  circuits : (m.circuits.map (·.cfg)).Perm (m'.circuits.map (·.cfg))
  connected : ∀ name, m.prefixesOf name = m'.prefixesOf name

theorem find?_cfgs (name : String) :
    (m.circuits.map (·.cfg)).find? (fun cfg => cfg.name = name) = m.circuit name := by
  rw [find?_map]
  rfl

/-- Nodes are configured alike when every value they hold is the same, locators up to order. -/
theorem alike_iff (hm : m.WellKept) (hm' : m'.WellKept) :
    m.Alike m' ↔ (∀ p, (m.listed p).Perm (m'.listed p)) ∧
      (∀ algo, m.flexAlgo algo = m'.flexAlgo algo) ∧
      (∀ p, m.optionPrefixes.lookup p = m'.optionPrefixes.lookup p) ∧
      ∀ name, m.circuit name = m'.circuit name := by
  have hcfgs : ((m.circuits.map (·.cfg)).map (·.name)).Nodup := by
    rw [List.map_map]
    exact hm.circuits
  have hcfgs' : ((m'.circuits.map (·.cfg)).map (·.name)).Nodup := by
    rw [List.map_map]
    exact hm'.circuits
  constructor
  · intro h
    refine ⟨perm_pairs_iff.mp h.locators, find?_eq_of_perm hm.flexAlgos h.flexAlgos, h.prefixes,
      fun name => ?_⟩
    rw [← find?_cfgs, ← find?_cfgs]
    exact find?_eq_of_perm hcfgs h.circuits name
  · rintro ⟨hloc, hflex, hpfx, hcirc⟩
    refine ⟨perm_pairs_iff.mpr hloc, perm_of_find?_eq hm.flexAlgos hm'.flexAlgos hflex,
      hpfx, ?_, ?_⟩
    · refine perm_of_find?_eq hcfgs hcfgs' fun name => ?_
      rw [find?_cfgs, find?_cfgs]
      exact hcirc name
    · intro name
      rw [hm.subnets, hm'.subnets, hcirc]

end Managed

/-! ## What options describe -/

/-- The configuration the options describe, before any pseudonode octet is handed out. -/
def NodeOptions.managed (o : NodeOptions) : Managed where
  locators := o.locators
  flexAlgos := o.flexAlgos
  optionPrefixes := Map.ofList (o.prefixes.map fun p => (p.pfx.masked, p.metric))
  circuits := o.circuits.map fun c => ⟨c.withDefaults, 0⟩
  pseudonodeCursor := 0
  circuitPrefixes := o.circuits.foldl
    (fun m cfg => setCircuitPrefixes m cfg.name (maskedSet cfg.connectedPrefixes)) ∅

theorem prefixesOf_foldl {cs : List CircuitConfig} (hcs : (cs.map (·.name)).Nodup)
    (ps : Map String (List Prefix)) (name : String) :
    ((cs.foldl (fun m cfg => setCircuitPrefixes m cfg.name (maskedSet cfg.connectedPrefixes))
      ps).lookup name).getD [] =
    ((cs.find? fun c => c.name = name).map fun c => maskedSet c.connectedPrefixes).getD
      ((ps.lookup name).getD []) := by
  induction cs generalizing ps with
  | nil => rfl
  | cons c cs ih =>
    rw [map_cons, nodup_cons] at hcs
    rw [foldl_cons, ih hcs.2, Managed.prefixesOf_set]
    by_cases hc : c.name = name
    · subst hc
      rw [find?_key_eq_none.mpr hcs.1, find?_cons_of_pos (by simp), if_pos rfl]
      rfl
    · rw [find?_cons_of_neg (by simpa using hc), if_neg (Ne.symm hc)]

theorem checkFlexAlgos_ok {participated : List UInt8} {fas : List FlexAlgoConfig}
    (h : checkFlexAlgos participated fas = .ok ()) :
    (∀ fa ∈ fas, ¬ fa.algo < 128 ∧ fa.algo ∉ participated) ∧ (fas.map (·.algo)).Nodup := by
  induction fas generalizing participated with
  | nil => exact ⟨by simp, nodup_nil⟩
  | cons fa fas ih =>
    rw [checkFlexAlgos] at h
    by_cases hlow : fa.algo < 128
    · rw [if_pos hlow] at h
      cases h
    rw [if_neg hlow] at h
    by_cases hdup : participated.contains fa.algo = true
    · rw [if_pos hdup] at h
      cases h
    rw [if_neg hdup] at h
    obtain ⟨hall, hnodup⟩ := ih h
    refine ⟨?_, ?_⟩
    · intro fa' hfa'
      rcases mem_cons.mp hfa' with rfl | hfa'
      · exact ⟨hlow, by simpa using hdup⟩
      · exact ⟨(hall fa' hfa').1, fun hmem => (hall fa' hfa').2 (mem_cons_of_mem _ hmem)⟩
    · rw [map_cons, nodup_cons]
      refine ⟨fun hmem => ?_, hnodup⟩
      obtain ⟨fa', hfa', heq⟩ := mem_map.mp hmem
      exact (hall fa' hfa').2 (heq ▸ mem_cons_self)

theorem forM_ok {α ε : Type} {f : α → Except ε Unit} {l : List α} (h : l.forM f = .ok ()) :
    ∀ a ∈ l, f a = .ok () := by
  induction l with
  | nil => simp
  | cons a l ih =>
    obtain ⟨⟨⟩, ha, hl⟩ := bind_eq_ok.mp h
    intro b hb
    rcases mem_cons.mp hb with rfl | hb
    · exact ha
    · exact ih hl b hb

/-- What `options.validate` lets through. -/
structure NodeOptions.Valid (o : NodeOptions) : Prop where
  prefixes : ∀ p ∈ o.prefixes, checkAdvertisedPrefix p = .ok ()
  flexAlgos : ∀ fa ∈ o.flexAlgos, ¬ fa.algo < 128
  flexAlgosNodup : (o.flexAlgos.map (·.algo)).Nodup
  locators : ∀ lc ∈ o.locators, checkLocator (o.flexAlgos.map (·.algo)) lc = .ok ()
  circuitsLength : o.circuits.length ≤ 255
  circuits : ∀ c ∈ o.circuits, c.validate = .ok ()
  circuitsNodup : (o.circuits.map (·.name)).Nodup

theorem NodeOptions.valid_of_validate (h : o.validate = .ok ()) : o.Valid := by
  obtain ⟨hlen, hall, hnodup⟩ := validate_circuits h
  obtain ⟨⟨⟩, -, h⟩ := bind_eq_ok.mp h
  obtain ⟨⟨⟩, -, h⟩ := bind_eq_ok.mp h
  obtain ⟨⟨⟩, hpfx, h⟩ := bind_eq_ok.mp h
  obtain ⟨⟨⟩, hflex, h⟩ := bind_eq_ok.mp h
  obtain ⟨⟨⟩, hloc, -⟩ := bind_eq_ok.mp h
  obtain ⟨hrange, hdistinct⟩ := checkFlexAlgos_ok hflex
  exact ⟨forM_ok hpfx, fun fa hfa => (hrange fa hfa).1, hdistinct, forM_ok hloc, hlen, hall, hnodup⟩

theorem NodeOptions.circuit_managed (o : NodeOptions) (name : String) :
    o.managed.circuit name = (o.circuits.find? fun c => c.name = name).map (·.withDefaults) := by
  change ((o.circuits.map fun c => RunningCircuit.mk c.withDefaults 0).find?
    fun c => c.cfg.name = name).map _ = _
  rw [find?_map, Option.map_map]
  rfl

theorem NodeOptions.Valid.wellKept (h : o.Valid) : o.managed.WellKept where
  flexAlgos := h.flexAlgosNodup
  circuits := by
    change ((o.circuits.map fun c => RunningCircuit.mk c.withDefaults 0).map (·.cfg.name)).Nodup
    rw [List.map_map]
    exact h.circuitsNodup
  subnets name := by
    refine (prefixesOf_foldl h.circuitsNodup ∅ name).trans ?_
    rw [circuit_managed, Option.map_map]
    rfl

/-! ## What a start produces -/

theorem IsisServer.cfgs_installCircuits {cfgs : List CircuitConfig} {a b : IsisServer}
    (h : a.installCircuits cfgs = some b) :
    b.circuits.map (·.cfg) = a.circuits.map (·.cfg) ++ cfgs := by
  induction cfgs generalizing a with
  | nil =>
    cases h
    simp
  | cons cfg cfgs ih =>
    unfold installCircuits at h
    cases hi : a.installCircuit cfg with
    | none => rw [hi] at h; cases h
    | some a' =>
      rw [hi] at h
      rw [ih h]
      unfold installCircuit at hi
      split at hi
      · cases hi
      · cases hi
        simp [newCircuit]

theorem foldl_min_le {cs : List Circuit} {b : Int} :
    cs.foldl (fun b c => min b (c.cfg.mtu - 3)) b ≤ b ∧
      ∀ c ∈ cs, cs.foldl (fun b c => min b (c.cfg.mtu - 3)) b ≤ c.cfg.mtu - 3 := by
  induction cs generalizing b with
  | nil => exact ⟨le_refl _, by simp⟩
  | cons c cs ih =>
    obtain ⟨hb, hcs⟩ := ih (b := min b (c.cfg.mtu - 3))
    refine ⟨hb.trans (min_le_left _ _), fun c' hc' => ?_⟩
    rcases mem_cons.mp hc' with rfl | hc'
    · exact hb.trans (min_le_right _ _)
    · exact hcs c' hc'

/-- **A start runs what its options describe**: the circuits in order with their defaults, on
interfaces wide enough for an LSP. -/
theorem managed_newNodeServer {s : NodeServer} (h : newNodeServer o = .ok s) :
    o.Valid ∧ s.managed.locators = o.locators ∧ s.managed.flexAlgos = o.flexAlgos ∧
      s.managed.optionPrefixes = o.managed.optionPrefixes ∧
      s.managed.circuits.map (·.cfg) = o.circuits.map (·.withDefaults) ∧
      s.managed.circuitPrefixes = o.managed.circuitPrefixes ∧
      ∀ c ∈ o.circuits, 512 ≤ c.mtu - 3 := by
  obtain ⟨⟨⟩, hvalid, h⟩ := bind_eq_ok.mp h
  refine ⟨valid_of_validate hvalid, ?_⟩
  cases hi : (IsisServer.blank o.base).installCircuits o.base.circuits with
  | none =>
    rw [hi] at h
    cases h
  | some b =>
    simp only [hi] at h
    by_cases hsize : b.setLSPBufferSize.lspBufferSize < 512
    · rw [if_pos hsize] at h
      cases h
    rw [if_neg hsize] at h
    cases h
    have hcfgs : b.circuits.map (·.cfg) = o.circuits.map (·.withDefaults) :=
      IsisServer.cfgs_installCircuits hi
    refine ⟨rfl, rfl, rfl, ?_, rfl, ?_⟩
    · change (b.circuits.map fun c => RunningCircuit.mk c.cfg c.pseudonodeID).map (·.cfg) = _
      rw [List.map_map]
      exact hcfgs
    · intro c hc
      have hmem : c.withDefaults ∈ b.circuits.map (·.cfg) := hcfgs ▸ mem_map_of_mem hc
      obtain ⟨c', hc', heq⟩ := mem_map.mp hmem
      have hle : b.setLSPBufferSize.lspBufferSize ≤ c'.cfg.mtu - 3 := foldl_min_le.2 c' hc'
      rw [heq] at hle
      exact (not_lt.mp hsize).trans hle

end Goisis.Server
