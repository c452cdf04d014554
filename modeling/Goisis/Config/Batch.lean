import Goisis.Config.Reload

/-!
# What an undisturbed batch does

The calls of a reload fall into groups that concern different values: the dropped circuits, the
locators with their algorithms, the prefixes, the circuits added or rebuilt. When nothing fails
outside the server, each group rewrites its own values once, from what the node held before
(`run_dropped` to `run_addCircuits`), and `apply_eq` puts them together.

The node the batch is applied to is arbitrary within `Settled`: every definition both files share is
in place, and every circuit that runs is one the files give it. A node started on the old file is
such a node, and so is one a failed reload left behind.
-/

namespace Goisis.ConfigFile

open Lib Packet Server List Managed Changes Option

variable {host : Host} {old next : Config} {o o' : NodeOptions} {m : Managed} {cc : CircuitConfig}
  {cfg : Server.CircuitConfig} {name : String} {algo : UInt8} {ch : Changes}

/-- Nothing fails outside the server. -/
def never : Attempt → Bool := fun _ => false

theorem issueUnless_never (a : Attempt) (m : Managed) (r : Except MutateError Managed) :
    issueUnless (never a) m r = ((m.issue r).1, (m.issue r).2.map .server) := rfl

section Phases

variable (df : Diffed host old next o o' ch)

include df

/-! ## The dropped circuits -/

/-- The dropped circuits go, and nothing is refused. -/
theorem run_dropped (hm : m.WellKept) :
    ∃ r, runBatch (ch.run host never)
      (ch.dropped.map .deleteCircuit) m = r ∧ r.2 = [] ∧ r.1.WellKept ∧
      (∃ cs ps, r.1 = { m with circuits := cs, circuitPrefixes := ps }) ∧
      ∀ name, r.1.circuit name = if name ∈ ch.dropped then none else m.circuit name := by
  have hb : KeyedBatch (fun name => ch.run host never (.deleteCircuit name))
      ch.dropped id circuit (fun _ _ => none) (fun _ _ => True)
      (fun s => s.WellKept ∧ ∃ cs ps, s = { m with circuits := cs, circuitPrefixes := ps }) := by
    refine ⟨fun name _ s hs => ⟨(issue_deleteCircuit name hs.1).1, ?_⟩,
      fun name _ s hs => (issue_deleteCircuit name hs.1).2.1, fun name _ s hs => ?_⟩
    · obtain ⟨-, cs, ps, rfl⟩ := hs
      obtain ⟨cs', ps', hframe⟩ := issue_deleteCircuit_frame (m :=
        { m with circuits := cs, circuitPrefixes := ps }) name
      exact ⟨cs', ps', hframe⟩
    · have hnone := (issue_deleteCircuit name hs.1).2.2
      exact iff_of_true (map_eq_none_iff.mpr hnone) trivial
  obtain ⟨hfine, hkeep, hread⟩ := hb.run_keys (nodup_dropped df) ⟨hm, _, _, rfl⟩
  exact ⟨_, rfl, hfine.mpr fun _ _ => trivial, hkeep.1, hkeep.2, hread⟩

/-! ## Locators and their algorithms -/

open scoped Classical in
/-- What the withdrawals leave of the algorithms a prefix is listed for. -/
noncomputable def leftOver (o o' : NodeOptions) (m : Managed) (p : Prefix) : List UInt8 :=
  if Withdrawn o o' p then (m.listed p).tail else m.listed p

open scoped Classical in
/-- The withdrawals take the first locator each of a prefix, and none is refused. -/
theorem run_deleteLocators (m : Managed) :
    ∃ r, runBatch (ch.run host never)
      (ch.deleteLocators.map .deleteLocator) m = r ∧ r.2 = [] ∧
      (∃ l, r.1 = { m with locators := l }) ∧ ∀ p, r.1.listed p = leftOver o o' m p := by
  have hb : KeyedBatch (fun p => ch.run host never (.deleteLocator p))
      ch.deleteLocators id listed (fun _ l => l.tail) (fun _ _ => True)
      (fun s => ∃ l, s = { m with locators := l }) := by
    refine ⟨fun p _ s hs => ?_, fun p hp s _ p' => ?_, fun p _ s _ => ?_⟩
    · obtain ⟨l, rfl⟩ := hs
      exact issue_deleteLocator_frame (m := { m with locators := l }) p
    · have hlisted := (issue_deleteLocator (m := s) p).1 p'
      rwa [masked_deleteLocators df hp] at hlisted
    · exact iff_of_true (map_eq_none_iff.mpr (issue_deleteLocator p).2) trivial
  obtain ⟨hfine, hkeep, hread⟩ := hb.run_keys (nodup_deletes df).1 ⟨_, rfl⟩
  refine ⟨_, rfl, hfine.mpr fun _ _ => trivial, hkeep, fun p => (hread p).trans ?_⟩
  exact if_congr (mem_deleteLocators df) rfl rfl

open scoped Classical in
/-- A redefined algorithm goes unless a locator is still bound to it, which is a refusal. -/
theorem run_deleteFlexAlgos (hm : (m.flexAlgos.map (·.algo)).Nodup) :
    ∃ r, runBatch (ch.run host never)
      (ch.deleteFlexAlgos.map .deleteFlexAlgo) m = r ∧
      (r.2 = [] ↔ ∀ algo, Redefined o o' algo → m.flexAlgo algo = none ∨ ¬ m.Bound algo) ∧
      (∃ l, r.1 = { m with flexAlgos := l }) ∧ (r.1.flexAlgos.map (·.algo)).Nodup ∧
      ∀ algo, r.1.flexAlgo algo =
        if Redefined o o' algo ∧ ¬ m.Bound algo then none else m.flexAlgo algo := by
  have hb : KeyedBatch (fun algo => ch.run host never (.deleteFlexAlgo algo))
      ch.deleteFlexAlgos id flexAlgo
      (fun algo d => if m.Bound algo then d else none) (fun algo d => d = none ∨ ¬ m.Bound algo)
      (fun s => (s.flexAlgos.map (·.algo)).Nodup ∧ ∃ l, s = { m with flexAlgos := l }) := by
    refine ⟨fun algo _ s hs => ⟨(issue_deleteFlexAlgo algo hs.1).1, ?_⟩,
      fun algo _ s hs algo' => ?_, fun algo _ s hs => ?_⟩
    · obtain ⟨-, l, rfl⟩ := hs
      exact issue_deleteFlexAlgo_frame (m := { m with flexAlgos := l }) algo
    · obtain ⟨hnodup, l, rfl⟩ := hs
      exact (issue_deleteFlexAlgo algo hnodup).2.1 algo'
    · obtain ⟨hnodup, l, rfl⟩ := hs
      exact map_eq_none_iff.trans (issue_deleteFlexAlgo algo hnodup).2.2
  obtain ⟨hfine, hkeep, hread⟩ := hb.run_keys (nodup_deletes df).2.1 ⟨hm, _, rfl⟩
  refine ⟨_, rfl, hfine.trans ?_, hkeep.2, hkeep.1, fun algo => (hread algo).trans ?_⟩
  · exact forall_congr' fun algo => by rw [mem_deleteFlexAlgos df]
  · simp only [mem_deleteFlexAlgos df, ite_and, ite_not]

open scoped Classical in
/-- A new definition is put in place unless the algorithm still has another, which is a refusal. -/
theorem run_addFlexAlgos (hm : (m.flexAlgos.map (·.algo)).Nodup) :
    ∃ r, runBatch (ch.run host never)
      (ch.addFlexAlgos.map .addFlexAlgo) m = r ∧
      (r.2 = [] ↔ ∀ algo, Introduced o o' algo →
        m.flexAlgo algo = none ∨ m.flexAlgo algo = o'.managed.flexAlgo algo) ∧
      (∃ l, r.1 = { m with flexAlgos := l }) ∧ (r.1.flexAlgos.map (·.algo)).Nodup ∧
      ∀ algo, r.1.flexAlgo algo =
        if Introduced o o' algo then (m.flexAlgo algo).or (o'.managed.flexAlgo algo)
        else m.flexAlgo algo := by
  have hrange : ∀ d ∈ ch.addFlexAlgos, ¬ d.algo < 128 := fun d hd =>
    (valid_of_options df.after).flexAlgos d
      ((flexAlgo_managed (valid_of_options df.after)).mp ((mem_addFlexAlgos df).mp hd).1).1
  have hb : KeyedBatch (fun d => ch.run host never (.addFlexAlgo d))
      ch.addFlexAlgos (·.algo) flexAlgo (fun d cur => cur.or (some d))
      (fun d cur => cur = none ∨ cur = some d)
      (fun s => (s.flexAlgos.map (·.algo)).Nodup ∧ ∃ l, s = { m with flexAlgos := l }) := by
    refine ⟨fun d hd s hs => ⟨(issue_addFlexAlgo (hrange d hd) hs.1).1, ?_⟩,
      fun d hd s hs => (issue_addFlexAlgo (hrange d hd) hs.1).2.1, fun d hd s hs => ?_⟩
    · obtain ⟨-, l, rfl⟩ := hs
      exact issue_addFlexAlgo_frame (m := { m with flexAlgos := l }) d
    · exact map_eq_none_iff.trans (issue_addFlexAlgo (hrange d hd) hs.1).2.2
  obtain ⟨hfine, hkeep, hin, hout⟩ := hb.run_map (nodup_addFlexAlgos df) ⟨hm, _, rfl⟩
  have hof : ∀ {algo}, Introduced o o' algo → ∃ d ∈ ch.addFlexAlgos,
      d.algo = algo ∧ o'.managed.flexAlgo algo = some d := by
    rintro algo ⟨d, hd, hne⟩
    have halgo := ((flexAlgo_managed (valid_of_options df.after)).mp hd).2
    subst halgo
    exact ⟨d, (mem_addFlexAlgos df).mpr ⟨hd, hne⟩, rfl, hd⟩
  refine ⟨_, rfl, hfine.trans ?_, hkeep.2, hkeep.1, fun algo => ?_⟩
  · constructor
    · intro h algo halgo
      obtain ⟨d, hd, rfl, hd'⟩ := hof halgo
      rw [hd']
      exact h d hd
    · intro h d hd
      obtain ⟨hd', hne⟩ := (mem_addFlexAlgos df).mp hd
      rw [← hd']
      exact h d.algo ⟨d, hd', hne⟩
  · by_cases halgo : Introduced o o' algo
    · obtain ⟨d, hd, rfl, hd'⟩ := hof halgo
      rw [if_pos halgo, hd']
      exact hin d hd
    · rw [if_neg halgo]
      refine hout algo fun d hd heq => halgo ?_
      exact (mem_algos_addFlexAlgos df).mp (heq ▸ mem_map_of_mem hd)

/-- A locator is announced where its prefix has none, and refused where the first one is bound to
another algorithm. -/
theorem run_addLocators
    (hadmits : ∀ p algo, Announced o o' p algo → algo = 0 ∨ m.flexAlgo algo ≠ none) :
    ∃ r, runBatch (ch.run host never)
      (ch.addLocators.map .addLocator) m = r ∧ (r.2 = [] ↔ ∀ p algo, Announced o o' p algo →
        m.listed p = [] ∨ (m.listed p).head? = some algo) ∧
      (∃ l, r.1 = { m with locators := l }) ∧
      (∀ p algo, Announced o o' p algo →
        r.1.listed p = if m.listed p = [] then [algo] else m.listed p) ∧
      ∀ p, (∀ algo, ¬ Announced o o' p algo) → r.1.listed p = m.listed p := by
  have hadm : ∀ lc ∈ ch.addLocators, ∀ l, ({ m with locators := l } : Managed).Admits lc := by
    intro lc hlc l
    have hann := (mem_addLocators df).mp hlc
    refine ⟨(locator_of_listed df.after (mem_of_getLast? hann.1)).1, ?_⟩
    simpa [participatesInAlgo, flexAlgo, find?_eq_none] using hadmits _ _ hann
  have hb : KeyedBatch (fun lc => ch.run host never (.addLocator lc))
      ch.addLocators (·.pfx) listed
      (fun lc l => if l = [] then [lc.algo] else l)
      (fun lc l => l = [] ∨ l.head? = some lc.algo)
      (fun s => ∃ l, s = { m with locators := l }) := by
    refine ⟨fun lc _ s hs => ?_, fun lc hlc s hs p => ?_, fun lc hlc s hs => ?_⟩
    · obtain ⟨l, rfl⟩ := hs
      exact issue_addLocator_frame (m := { m with locators := l }) lc
    · obtain ⟨l, rfl⟩ := hs
      have hlisted := (issue_addLocator (hadm lc hlc l)).1 p
      rwa [masked_addLocators df hlc] at hlisted
    · obtain ⟨l, rfl⟩ := hs
      have hrefused := (issue_addLocator (hadm lc hlc l)).2
      rw [masked_addLocators df hlc] at hrefused
      exact map_eq_none_iff.trans hrefused
  obtain ⟨hfine, hkeep, hin, hout⟩ := hb.run_map (nodup_addLocators df) ⟨_, rfl⟩
  refine ⟨_, rfl, hfine.trans ⟨?_, ?_⟩, hkeep, fun p algo hann => ?_, fun p hnot => ?_⟩
  · exact fun h p algo hann => h ⟨p, algo⟩ ((mem_addLocators df).mpr hann)
  · exact fun h lc hlc => h lc.pfx lc.algo ((mem_addLocators df).mp hlc)
  · exact hin ⟨p, algo⟩ ((mem_addLocators df).mpr hann)
  · exact hout p fun lc hlc heq => hnot lc.algo (heq ▸ (mem_addLocators df).mp hlc)

/-! ## Prefixes -/

/-- A dropped or changed prefix goes; where it is gone already, one a circuit has connected is a
refusal. -/
theorem run_deletePrefixes (m : Managed) :
    ∃ r, runBatch (ch.run host never)
      (ch.deletePrefixes.map .deletePrefix) m = r ∧ (r.2 = [] ↔ ∀ p ∈ ch.deletePrefixes,
        m.optionPrefixes.lookup p ≠ none ∨ ¬ m.Connected p) ∧
      (∃ l, r.1 = { m with optionPrefixes := l }) ∧
      ∀ p, r.1.optionPrefixes.lookup p =
        if p ∈ ch.deletePrefixes then none else m.optionPrefixes.lookup p := by
  have hmasked : ∀ p ∈ ch.deletePrefixes, p.masked = p := fun p hp => by
    obtain ⟨metric, hnamed, -⟩ := (mem_deletePrefixes df).mp hp
    exact (check_of_named df.before hnamed).1
  have hb : KeyedBatch (fun p => ch.run host never (.deletePrefix p))
      ch.deletePrefixes id (fun s p => s.optionPrefixes.lookup p)
      (fun _ _ => none) (fun p cur => cur ≠ none ∨ ¬ m.Connected p)
      (fun s => ∃ l, s = { m with optionPrefixes := l }) := by
    refine ⟨fun p _ s hs => ?_, fun p hp s _ p' => ?_, fun p hp s hs => ?_⟩
    · obtain ⟨l, rfl⟩ := hs
      exact issue_deletePrefix_frame (m := { m with optionPrefixes := l }) p
    · have hlookup := (issue_deletePrefix (m := s) p).1 p'
      rwa [hmasked p hp] at hlookup
    · obtain ⟨l, rfl⟩ := hs
      have hrefused := (issue_deletePrefix (m := { m with optionPrefixes := l }) p).2
      rw [hmasked p hp] at hrefused
      exact map_eq_none_iff.trans hrefused
  obtain ⟨hfine, hkeep, hread⟩ := hb.run_keys (nodup_deletes df).2.2 ⟨_, rfl⟩
  exact ⟨_, rfl, hfine, hkeep, hread⟩

open scoped Classical in
/-- A new prefix is named unless it already is at another metric, which is a refusal. -/
theorem run_addPrefixes (m : Managed) :
    ∃ r, runBatch (ch.run host never)
      (ch.addPrefixes.map .addPrefix) m = r ∧ (r.2 = [] ↔ ∀ p ∈ ch.addPrefixes,
        m.optionPrefixes.lookup p.pfx = none ∨ m.optionPrefixes.lookup p.pfx = some p.metric) ∧
      (∃ l, r.1 = { m with optionPrefixes := l }) ∧
      ∀ p, r.1.optionPrefixes.lookup p =
        if p ∈ ch.addPrefixes.map (·.pfx) then
          (m.optionPrefixes.lookup p).or (o'.managed.optionPrefixes.lookup p)
        else m.optionPrefixes.lookup p := by
  have hcheck : ∀ p ∈ ch.addPrefixes,
      p.pfx.masked = p.pfx ∧ checkAdvertisedPrefix p = .ok () := fun p hp =>
    check_of_named df.after ((mem_addPrefixes df).mp hp).1
  have hb : KeyedBatch (fun p => ch.run host never (.addPrefix p))
      ch.addPrefixes (·.pfx) (fun s p => s.optionPrefixes.lookup p)
      (fun p cur => cur.or (some p.metric)) (fun p cur => cur = none ∨ cur = some p.metric)
      (fun s => ∃ l, s = { m with optionPrefixes := l }) := by
    refine ⟨fun p _ s hs => ?_, fun p hp s _ p' => ?_, fun p hp s _ => ?_⟩
    · obtain ⟨l, rfl⟩ := hs
      exact issue_addPrefix_frame (m := { m with optionPrefixes := l }) p
    · have hlookup := (issue_addPrefix (m := s) (hcheck p hp).2).1 p'
      rwa [(hcheck p hp).1] at hlookup
    · have hrefused := (issue_addPrefix (m := s) (hcheck p hp).2).2
      rw [(hcheck p hp).1] at hrefused
      exact map_eq_none_iff.trans hrefused
  obtain ⟨hfine, hkeep, hin, hout⟩ := hb.run_map (nodup_addPrefixes df) ⟨_, rfl⟩
  refine ⟨_, rfl, hfine, hkeep, fun p => ?_⟩
  by_cases hp : p ∈ ch.addPrefixes.map (·.pfx)
  · rw [if_pos hp]
    obtain ⟨q, hq, rfl⟩ := mem_map.mp hp
    rw [((mem_addPrefixes df).mp hq).1]
    exact hin q hq
  · rw [if_neg hp]
    exact hout p fun q hq heq => hp (heq ▸ mem_map_of_mem hq)

end Phases

/-! ## Circuits -/

/-- A circuit with what its interface answers. -/
structure OnInterface (host : Host) (name : String) (cfg : Server.CircuitConfig) : Prop where
  mtu : cfg.mtu = host.mtu name
  localSNPA : cfg.localSNPA = host.localSNPA name
  ipv4Addrs : cfg.ipv4Addrs = host.ipv4Addrs name
  ipv6Addrs : cfg.ipv6Addrs = host.ipv6Addrs name
  connectedPrefixes : cfg.connectedPrefixes = host.connectedPrefixes name

/-- The interface's MTU admits an LSP of the minimum size. -/
def Wide (host : Host) (name : String) : Prop := 512 ≤ host.mtu name - 3

theorem onInterface_of_circuit (h : cc.circuit host = .ok cfg) :
    OnInterface host cc.interface cfg.withDefaults := by
  obtain ⟨-, hmtu, h4, h6, hconn, hsnpa⟩ := circuit_eq_ok h
  exact ⟨hmtu, hsnpa, h4, h6, hconn⟩

/-- Every circuit that runs is one the new file names, on an interface wide enough, and in the
file's shape or about to be rebuilt. -/
structure Running (host : Host) (next : Config) (o' : NodeOptions) (ch : Changes) (m : Managed) :
    Prop where
  wellKept : m.WellKept
  named : ∀ {name cfg}, m.circuit name = some cfg → name ∈ next.circuits.map (·.interface)
  onInterface : ∀ {name cfg}, m.circuit name = some cfg → OnInterface host name cfg ∧ Wide host name
  shaped : ∀ {name cfg}, m.circuit name = some cfg →
    o'.managed.circuit name = some cfg ∨ ch.rebuilds name = true

section Circuits

variable (df : Diffed host old next o o' ch)
include df

/-- A circuit of the file that does not run finds a pseudonode octet. -/
theorem Running.room (h : Running host next o' ch m)
    (hname : name ∈ next.circuits.map (·.interface)) (hnew : m.circuit name = none) :
    m.circuits.length < 255 := by
  have hsub : name :: m.circuits.map (·.cfg.name) ⊆ next.circuits.map (·.interface) := by
    intro n hn
    rcases mem_cons.mp hn with rfl | hn
    · exact hname
    obtain ⟨c, hc, rfl⟩ := mem_map.mp hn
    have hcfg : m.circuit c.cfg.name = some c.cfg := by
      rw [circuit, find?_key_of_mem h.wellKept.circuits hc]
      rfl
    exact h.named hcfg
  have hnodup : (name :: m.circuits.map (·.cfg.name)).Nodup :=
    nodup_cons.mpr ⟨circuit_eq_none.mp hnew, h.wellKept.circuits⟩
  have hle := (hnodup.subperm hsub).length_le
  have hmax := (valid_of_options df.after).circuitsLength
  have hlen : o'.circuits.length = next.circuits.length := by
    simpa using congrArg length (names_options df.after)
  rw [length_cons, length_map, length_map] at hle
  omega

/-- Adding a circuit of the file to a node that does not run it. -/
theorem Running.add_absent (h : Running host next o' ch m) (hcc : cc ∈ next.circuits)
    (hok : cc.circuit host = .ok cfg) (hv : cfg.validate = .ok ())
    (hcfg : o'.managed.circuit cc.interface = some cfg.withDefaults)
    (hwide : Wide host cc.interface) (hnew : m.circuit cc.interface = none) (again : Bool) :
    ∃ cursor, add host never cc again m = .ok (m.takeIn cfg.withDefaults cursor) ∧
      Running host next o' ch (m.takeIn cfg.withDefaults cursor) ∧
      ∀ name, (m.takeIn cfg.withDefaults cursor).circuit name =
        if name = cc.interface then some cfg.withDefaults else m.circuit name := by
  have hname : cfg.name = cc.interface := (circuit_eq_ok hok).1
  have hmem : cc.interface ∈ next.circuits.map (·.interface) := mem_map_of_mem hcc
  have hmtu : 512 ≤ cfg.mtu - 3 := by
    rw [(circuit_eq_ok hok).2.1]
    exact hwide
  obtain ⟨cursor, hadd⟩ := addCircuit_absent hv (hname ▸ hnew) hmtu (h.room df hmem hnew)
  have hcircuit : ∀ name, (m.takeIn cfg.withDefaults cursor).circuit name =
      if name = cc.interface then some cfg.withDefaults else m.circuit name := by
    intro name
    rw [circuit_takeIn]
    change (m.circuit name).or (if name = cfg.name then _ else _) = _
    rw [hname]
    by_cases hn : name = cc.interface
    · rw [if_pos hn, if_pos hn, hn, hnew]
      rfl
    · rw [if_neg hn, if_neg hn, or_none]
  have hof : ∀ {name cfg'}, (m.takeIn cfg.withDefaults cursor).circuit name = some cfg' →
      name = cc.interface ∧ cfg.withDefaults = cfg' ∨ m.circuit name = some cfg' := by
    intro name cfg' h'
    rw [hcircuit, ite_eq_iff, some.injEq] at h'
    exact h'.imp_right And.right
  refine ⟨cursor, ?_, ⟨?_, ?_, ?_, ?_⟩, hcircuit⟩
  · simp only [add, hok, never, Bool.or_self, Bool.false_eq_true, if_false, hadd]
  · exact h.wellKept.takeIn (hname ▸ hnew) cursor
  · intro name cfg' h'
    rcases hof h' with ⟨rfl, -⟩ | h'
    · exact hmem
    · exact h.named h'
  · intro name cfg' h'
    rcases hof h' with ⟨rfl, rfl⟩ | h'
    · exact ⟨onInterface_of_circuit hok, hwide⟩
    · exact h.onInterface h'
  · intro name cfg' h'
    rcases hof h' with ⟨rfl, rfl⟩ | h'
    · exact .inl hcfg
    · exact h.shaped h'

omit df in
/-- A circuit that runs already answers an addition with whether it is the one asked for. -/
theorem Running.add_present (h : Running host next o' ch m) {cur : Server.CircuitConfig}
    (hok : cc.circuit host = .ok cfg) (hv : cfg.validate = .ok ())
    (hcur : m.circuit cc.interface = some cur) (again : Bool) :
    ∃ e, add host never cc again m = .error e ∧
      (e.alreadyInState = true ↔ cur = cfg.withDefaults) := by
  have hname : cfg.name = cc.interface := (circuit_eq_ok hok).1
  obtain ⟨e, hadd, he⟩ := addCircuit_present hv (hname.symm ▸ hcur)
  refine ⟨.server e, ?_, he.trans ?_⟩
  · simp only [add, hok, never, Bool.or_self, Bool.false_eq_true, if_false, hadd]
  · have hsubnets : m.prefixesOf cfg.name = maskedSet cur.connectedPrefixes := by
      rw [h.wellKept.subnets, hname, hcur]
      rfl
    have hcanon : ({ cur with connectedPrefixes := m.prefixesOf cfg.name } :
        Server.CircuitConfig).canonical = cur.canonical := by
      simp only [CircuitConfig.canonical, hsubnets, maskedSet_maskedSet]
    rw [hcanon]
    obtain ⟨hcurOn, -⟩ := h.onInterface hcur
    have hcfgOn := onInterface_of_circuit hok
    constructor
    · intro heq
      exact CircuitConfig.eq_of_canonical heq (hcurOn.mtu.trans hcfgOn.mtu.symm)
        (hcurOn.localSNPA.trans hcfgOn.localSNPA.symm)
        (hcurOn.ipv4Addrs.trans hcfgOn.ipv4Addrs.symm)
          (hcurOn.ipv6Addrs.trans hcfgOn.ipv6Addrs.symm)
        (hcurOn.connectedPrefixes.trans hcfgOn.connectedPrefixes.symm)
    · exact fun heq => heq ▸ rfl

omit df in
theorem Running.deleteCircuit (h : Running host next o' ch m) (name : String) :
    Running host next o' ch (m.issue (m.deleteCircuit name)).1 := by
  obtain ⟨hkept, hcircuit, -⟩ := issue_deleteCircuit name h.wellKept
  have hof : ∀ {name' cfg}, (m.issue (m.deleteCircuit name)).1.circuit name' = some cfg →
      m.circuit name' = some cfg := by
    intro name' cfg h'
    rw [hcircuit, ite_none_left_eq_some] at h'
    exact h'.2
  exact ⟨hkept, fun h' => h.named (hof h'), fun h' => h.onInterface (hof h'),
    fun h' => h.shaped (hof h')⟩

/-- The part of the node `addCircuit` writes. -/
def SameButCircuits (m m' : Managed) : Prop :=
  m'.locators = m.locators ∧ m'.flexAlgos = m.flexAlgos ∧ m'.optionPrefixes = m.optionPrefixes

omit df in
theorem SameButCircuits.trans {m₁ m₂ m₃ : Managed} (h : SameButCircuits m₁ m₂)
    (h' : SameButCircuits m₂ m₃) : SameButCircuits m₁ m₃ :=
  ⟨h'.1.trans h.1, h'.2.1.trans h.2.1, h'.2.2.trans h.2.2⟩

omit df in
theorem sameButCircuits_deleteCircuit (name : String) :
    SameButCircuits m (m.issue (m.deleteCircuit name)).1 := by
  obtain ⟨cs, ps, hframe⟩ := issue_deleteCircuit_frame (m := m) name
  rw [hframe]
  exact ⟨rfl, rfl, rfl⟩

open scoped Classical in
/-- Adding or rebuilding a circuit of the file puts it in the file's shape. It is refused only where
the circuit does not run and its interface is too narrow. -/
theorem Running.addCircuit (h : Running host next o' ch m) (hcc : cc ∈ ch.addCircuits) :
    let r := Changes.addCircuit host never ch cc m
    Running host next o' ch r.1 ∧ SameButCircuits m r.1 ∧
      (∀ name, r.1.circuit name = if name = cc.interface then
        (if m.circuit name ≠ none ∨ Wide host name then o'.managed.circuit name else m.circuit name)
        else m.circuit name) ∧
      (r.2 = none ↔ m.circuit cc.interface ≠ none ∨ Wide host cc.interface) := by
  have hnext := ((mem_addCircuits df).mp hcc).1
  obtain ⟨cfg, hmem, hok, hname, hcfg⟩ := circuit_of_mem df.after hnext
  have hv : cfg.validate = .ok () := (valid_of_options df.after).circuits cfg hmem
  have hset : ∀ {m₁ m₂ : Managed}, (∀ name, m₁.circuit name =
      if name = cc.interface then none else m.circuit name) →
      (∀ name, m₂.circuit name =
        if name = cc.interface then some cfg.withDefaults else m₁.circuit name) →
      m.circuit cc.interface ≠ none ∨ Wide host cc.interface →
      ∀ name, m₂.circuit name = if name = cc.interface then
        (if m.circuit name ≠ none ∨ Wide host name then o'.managed.circuit name else m.circuit name)
        else m.circuit name := by
    intro m₁ m₂ h₁ h₂ hfine name
    rw [h₂]
    by_cases hn : name = cc.interface
    · rw [if_pos hn, if_pos hn, if_pos (hn ▸ hfine), hn, hcfg]
    · rw [if_neg hn, if_neg hn, h₁, if_neg hn]
  intro r
  cases hcur : m.circuit cc.interface with
  | none =>
    have hsame : ∀ name, m.circuit name = if name = cc.interface then none else m.circuit name := by
      intro name
      by_cases hn : name = cc.interface
      · rw [if_pos hn, hn, hcur]
      · rw [if_neg hn]
    by_cases hwide : Wide host cc.interface
    · obtain ⟨cursor, hadd, hrun, hcircuit⟩ :=
        h.add_absent df hnext hok hv hcfg hwide hcur false
      have hr : r = (m.takeIn cfg.withDefaults cursor, none) := by
        simp only [r, Changes.addCircuit, hadd]
      rw [hr]
      exact ⟨hrun, ⟨rfl, rfl, rfl⟩, hset hsame hcircuit (.inr hwide), iff_of_true rfl (.inr hwide)⟩
    · -- too narrow: both attempts are refused, and the deletion between them finds nothing
      have hmtu : cfg.mtu - 3 < 512 := by
        rw [(circuit_eq_ok hok).2.1]
        exact not_le.mp hwide
      have hadd : ∀ again, Changes.add host never cc again m =
          .error (.server (.circuitMTU cfg.name (cfg.mtu - 3))) := by
        intro again
        simp only [Changes.add, hok, never, Bool.or_self, Bool.false_eq_true, if_false,
          addCircuit_narrow hv (hname.symm ▸ hcur) hmtu]
      have hdel : m.issue (m.deleteCircuit cc.interface) = (m, none) := by
        have hany : ¬ m.circuits.any (fun c => c.cfg.name = cc.interface) = true := by
          simpa [circuit, find?_eq_none] using hcur
        rw [Managed.deleteCircuit, if_neg hany]
        rfl
      have hr : r = (m, some (.server (.circuitMTU cfg.name (cfg.mtu - 3)))) := by
        simp only [r, Changes.addCircuit, hadd, issueUnless_never, hdel]
        by_cases hreb : ch.rebuilds cc.interface = true
        · rw [hreb]
          rfl
        · rw [Bool.not_eq_true] at hreb
          rw [hreb]
          rfl
      rw [hr]
      refine ⟨h, ⟨rfl, rfl, rfl⟩, fun name => ?_, iff_of_false (by simp) (by simpa using hwide)⟩
      by_cases hn : name = cc.interface
      · subst hn
        rw [if_pos rfl, if_neg (by simpa [hcur] using hwide)]
      · rw [if_neg hn]
  | some cur =>
    obtain ⟨e, hadd, he⟩ := h.add_present hok hv hcur false
    have hfine : m.circuit cc.interface ≠ none ∨ Wide host cc.interface := .inl (by simp [hcur])
    by_cases heq : cur = cfg.withDefaults
    · have hr : r = (m, none) := by
        simp only [r, Changes.addCircuit, hadd, he.mpr heq, Bool.true_or, if_true,
          ReloadError.reported]
      rw [hr]
      refine ⟨h, ⟨rfl, rfl, rfl⟩, fun name => ?_, iff_of_true rfl (.inl (by simp))⟩
      by_cases hn : name = cc.interface
      · subst hn
        rw [if_pos rfl, if_pos hfine, hcur, hcfg, heq]
      · rw [if_neg hn]
    · have halready : e.alreadyInState = false := by
        rw [← Bool.not_eq_true, he]
        exact heq
      have hreb : ch.rebuilds cc.interface = true := by
        rcases h.shaped hcur with hshape | hreb
        · rw [hcfg] at hshape
          exact absurd (some.inj hshape).symm heq
        · exact hreb
      obtain ⟨-, hdelCircuit, hdelNone⟩ := issue_deleteCircuit cc.interface h.wellKept
      have hdelAbsent : (m.issue (m.deleteCircuit cc.interface)).1.circuit cc.interface = none := by
        rw [hdelCircuit, if_pos rfl]
      obtain ⟨cursor, hadd', hrun, hcircuit⟩ := (h.deleteCircuit cc.interface).add_absent df hnext
        hok hv hcfg (h.onInterface hcur).2 hdelAbsent true
      have hr : r = ((m.issue (m.deleteCircuit cc.interface)).1.takeIn cfg.withDefaults cursor,
          none) := by
        simp only [r, Changes.addCircuit, hadd, halready, hreb, issueUnless_never, hdelNone,
          map_none, isSome_none, Bool.not_true, Bool.or_self, Bool.false_eq_true,
          if_false, hadd']
      rw [hr]
      refine ⟨hrun, ?_, hset hdelCircuit hcircuit hfine, iff_of_true rfl (.inl (by simp))⟩
      exact sameButCircuits_deleteCircuit cc.interface

open scoped Classical in
/-- Every added or rebuilt circuit ends in the file's shape, unless it does not run and its
interface is too narrow, which is a refusal. -/
theorem run_addCircuits (h : Running host next o' ch m) :
    ∃ r, runBatch (ch.run host never)
      (ch.addCircuits.map .addCircuit) m = r ∧ (r.2 = [] ↔ ∀ cc ∈ ch.addCircuits,
        m.circuit cc.interface ≠ none ∨ Wide host cc.interface) ∧
      r.1.WellKept ∧ SameButCircuits m r.1 ∧
      ∀ name, r.1.circuit name =
        if name ∈ ch.addCircuits.map (·.interface) ∧
          (m.circuit name ≠ none ∨ Wide host name)
        then o'.managed.circuit name else m.circuit name := by
  have hb : KeyedBatch (fun cc => ch.run host never (.addCircuit cc))
      ch.addCircuits (·.interface) circuit
      (fun cc cur => if cur ≠ none ∨ Wide host cc.interface
        then o'.managed.circuit cc.interface else cur)
      (fun cc cur => cur ≠ none ∨ Wide host cc.interface)
      (fun s => Running host next o' ch s ∧ SameButCircuits m s) := by
    refine ⟨fun cc hcc s hs => ?_, fun cc hcc s hs name => ?_, fun cc hcc s hs => ?_⟩
    · obtain ⟨hrun, hsame, -, -⟩ := hs.1.addCircuit df hcc
      exact ⟨hrun, hs.2.trans hsame⟩
    · obtain ⟨-, -, hcircuit, -⟩ := hs.1.addCircuit df hcc
      refine (hcircuit name).trans ?_
      by_cases hn : name = cc.interface
      · rw [if_pos hn, if_pos hn, hn]
      · rw [if_neg hn, if_neg hn]
    · exact (hs.1.addCircuit df hcc).2.2.2
  obtain ⟨hfine, hkeep, hin, hout⟩ := hb.run_map (nodup_addCircuits df) ⟨h, rfl, rfl, rfl⟩
  refine ⟨_, rfl, hfine, hkeep.1.wellKept, hkeep.2, fun name => ?_⟩
  by_cases hn : name ∈ ch.addCircuits.map (·.interface)
  · obtain ⟨cc, hcc, rfl⟩ := mem_map.mp hn
    refine (hin cc hcc).trans ?_
    by_cases hfine : m.circuit cc.interface ≠ none ∨ Wide host cc.interface
    · rw [if_pos hfine, if_pos ⟨hn, hfine⟩]
    · rw [if_neg hfine, if_neg fun h => hfine h.2]
  · rw [if_neg fun h => hn h.1]
    exact hout name fun cc hcc heq => hn (heq ▸ mem_map_of_mem hcc)

end Circuits

/-! ## The whole batch -/

/-- A node between two files: what they agree on is in place, and every circuit that runs is about
to be dropped or is one the new file names. -/
structure Settled (host : Host) (next : Config) (o o' : NodeOptions) (ch : Changes) (m : Managed) :
    Prop where
  wellKept : m.WellKept
  flexAlgo : ∀ algo, o'.managed.flexAlgo algo = o.managed.flexAlgo algo →
    m.flexAlgo algo = o.managed.flexAlgo algo
  prefixes : ∀ p, o'.managed.optionPrefixes.lookup p = o.managed.optionPrefixes.lookup p →
    m.optionPrefixes.lookup p = o.managed.optionPrefixes.lookup p
  untouched : ∀ name, name ∉ ch.addCircuits.map (·.interface) →
    name ∉ ch.dropped → m.circuit name = o.managed.circuit name
  circuit : ∀ {name cfg}, m.circuit name = some cfg → name ∉ ch.dropped →
    name ∈ next.circuits.map (·.interface) ∧ OnInterface host name cfg ∧ Wide host name ∧
      (o'.managed.circuit name = some cfg ∨ ch.rebuilds name = true)

/-- A locator is still bound to the algorithm after the withdrawals. -/
def Stuck (o o' : NodeOptions) (m : Managed) (algo : UInt8) : Prop := ∃ p, algo ∈ leftOver o o' m p

/-- A circuit that stays has the prefix connected. -/
def StaysConnected (host : Host) (ch : Changes) (m : Managed) (p : Prefix) : Prop :=
  ∃ name, m.circuit name ≠ none ∧ name ∉ ch.dropped ∧ p ∈ maskedSet (host.connectedPrefixes name)

open scoped Classical in
/-- What the deletions leave of a definition. -/
noncomputable def keptFlexAlgo (o o' : NodeOptions) (m : Managed) (algo : UInt8) :
    Option Server.FlexAlgoConfig :=
  if Redefined o o' algo ∧ ¬ Stuck o o' m algo then none else m.flexAlgo algo

open scoped Classical in
/-- What the deletions leave of a prefix. -/
noncomputable def keptPrefix (ch : Changes) (m : Managed) (p : Prefix) : Option UInt32 :=
  if p ∈ ch.deletePrefixes then none else m.optionPrefixes.lookup p

open scoped Classical in
/-- The node a batch leaves, value by value, and when nothing is refused. -/
structure Outcome (host : Host) (o o' : NodeOptions) (ch : Changes) (m : Managed)
    (r : Managed × List ReloadError) : Prop where
  wellKept : r.1.WellKept
  announced : ∀ p algo, Announced o o' p algo →
    r.1.listed p = if leftOver o o' m p = [] then [algo] else leftOver o o' m p
  quiet : ∀ p, (∀ algo, ¬ Announced o o' p algo) → r.1.listed p = leftOver o o' m p
  flexAlgo : ∀ algo, r.1.flexAlgo algo =
    if Introduced o o' algo then (keptFlexAlgo o o' m algo).or (o'.managed.flexAlgo algo)
    else keptFlexAlgo o o' m algo
  prefixes : ∀ p, r.1.optionPrefixes.lookup p =
    if p ∈ ch.addPrefixes.map (·.pfx) then
      (keptPrefix ch m p).or (o'.managed.optionPrefixes.lookup p)
    else keptPrefix ch m p
  circuits : ∀ name, r.1.circuit name =
    if name ∈ ch.addCircuits.map (·.interface) ∧
        (m.circuit name ≠ none ∨ Wide host name) then o'.managed.circuit name
    else if name ∈ ch.dropped then none else m.circuit name
  refused : r.2 = [] ↔
    (∀ algo, Redefined o o' algo → m.flexAlgo algo = none ∨ ¬ Stuck o o' m algo) ∧
    (∀ algo, Introduced o o' algo → keptFlexAlgo o o' m algo = none ∨
      keptFlexAlgo o o' m algo = o'.managed.flexAlgo algo) ∧
    (∀ p algo, Announced o o' p algo → leftOver o o' m p = [] ∨
      (leftOver o o' m p).head? = some algo) ∧
    (∀ p ∈ ch.deletePrefixes,
      m.optionPrefixes.lookup p ≠ none ∨ ¬ StaysConnected host ch m p) ∧
    (∀ p ∈ ch.addPrefixes, keptPrefix ch m p.pfx = none ∨
      keptPrefix ch m p.pfx = some p.metric) ∧
    ∀ cc ∈ ch.addCircuits, m.circuit cc.interface ≠ none ∨ Wide host cc.interface

/-- With the dropped circuits gone, every circuit that runs is one the new file names. -/
theorem Settled.running {m' : Managed} (h : Settled host next o o' ch m) (hkept : m'.WellKept)
    (hcircuit : ∀ name, m'.circuit name = if name ∈ ch.dropped then none else m.circuit name) :
    Running host next o' ch m' := by
  have hof : ∀ {name cfg}, m'.circuit name = some cfg →
      name ∉ ch.dropped ∧ m.circuit name = some cfg := by
    intro name cfg hcfg
    rwa [hcircuit, ite_none_left_eq_some] at hcfg
  exact ⟨hkept, fun hcfg => (h.circuit (hof hcfg).2 (hof hcfg).1).1,
    fun hcfg => (h.circuit (hof hcfg).2 (hof hcfg).1).2.imp_right And.left,
    fun hcfg => (h.circuit (hof hcfg).2 (hof hcfg).1).2.2.2⟩

/-- **What an undisturbed batch makes of a node between two files.** -/
theorem apply_eq (df : Diffed host old next o o' ch) (h : Settled host next o o' ch m) :
    Outcome host o o' ch m (ch.apply host never m) := by
  -- the groups of calls, each from the node the one before left
  obtain ⟨r1, hr1, he1, hkept1, ⟨cs, ps, hf1⟩, hcirc1⟩ := run_dropped df h.wellKept
  obtain ⟨r2, hr2, he2, ⟨l2, hf2⟩, hlisted2⟩ := run_deleteLocators df r1.1
  have hleft : ∀ p, r2.1.listed p = leftOver o o' m p := by
    intro p
    rw [hlisted2, hf1]
    rfl
  have hstuck : ∀ algo, r2.1.Bound algo ↔ Stuck o o' m algo := by
    intro algo
    exact exists_congr fun p => by rw [hleft p]
  have hflex2 : r2.1.flexAlgos = m.flexAlgos := by rw [hf2, hf1]
  obtain ⟨r3, hr3, he3, ⟨l3, hf3⟩, hnodup3, hflex3⟩ :=
    run_deleteFlexAlgos df (m := r2.1) (hflex2 ▸ h.wellKept.flexAlgos)
  have hkept3 : ∀ algo, r3.1.flexAlgo algo = keptFlexAlgo o o' m algo := by
    intro algo
    rw [hflex3, keptFlexAlgo, hstuck, flexAlgo, flexAlgo, hflex2]
  obtain ⟨r4, hr4, he4, ⟨l4, hf4⟩, hnodup4, hflex4⟩ := run_addFlexAlgos df hnodup3
  have hadmits : ∀ p algo, Announced o o' p algo → algo = 0 ∨ r4.1.flexAlgo algo ≠ none := by
    intro p algo hann
    rcases (locator_of_listed df.after (mem_of_getLast? hann.1)).2 with hzero | hdef
    · exact .inl hzero
    right
    rw [hflex4, hkept3]
    by_cases hintro : Introduced o o' algo
    · rw [if_pos hintro]
      cases keptFlexAlgo o o' m algo with
      | none => exact hdef
      | some d => exact some_ne_none d
    · obtain ⟨d, hd⟩ := ne_none_iff_exists'.mp hdef
      have hsame : o.managed.flexAlgo algo = some d := by
        by_contra hne
        exact hintro ⟨d, hd, hne⟩
      have hkeep : ¬ (Redefined o o' algo ∧ ¬ Stuck o o' m algo) := by
        rintro ⟨⟨d', hd', hne⟩, -⟩
        exact hne (hd.trans (hsame.symm.trans hd'))
      rw [if_neg hintro, keptFlexAlgo, if_neg hkeep, h.flexAlgo algo (hd.trans hsame.symm), hsame]
      exact some_ne_none d
  have hleft4 : ∀ p, r4.1.listed p = leftOver o o' m p := by
    intro p
    rw [← hleft, hf4, hf3]
    rfl
  obtain ⟨r5, hr5, he5, ⟨l5, hf5⟩, hann5, hquiet5⟩ := run_addLocators df hadmits
  have hcs5 : r5.1.circuits = r1.1.circuits := by rw [hf5, hf4, hf3, hf2]
  have hps5 : r5.1.circuitPrefixes = r1.1.circuitPrefixes := by rw [hf5, hf4, hf3, hf2]
  have hopt5 : r5.1.optionPrefixes = m.optionPrefixes := by rw [hf5, hf4, hf3, hf2, hf1]
  have hflex5 : r5.1.flexAlgos = r4.1.flexAlgos := by rw [hf5]
  have hkept5 : r5.1.WellKept := hkept1.of_eq (hflex5 ▸ hnodup4) hcs5 hps5
  have hconn5 : ∀ p, r5.1.Connected p ↔ StaysConnected host ch m p := by
    intro p
    rw [hkept5.connected_iff]
    constructor
    · rintro ⟨name, cfg, hcfg, hp⟩
      rw [circuit_congr hcs5, hcirc1] at hcfg
      by_cases hdrop : name ∈ ch.dropped
      · rw [if_pos hdrop] at hcfg
        cases hcfg
      · rw [if_neg hdrop] at hcfg
        refine ⟨name, by rw [hcfg]; exact some_ne_none cfg, hdrop, ?_⟩
        rwa [(h.circuit hcfg hdrop).2.1.connectedPrefixes] at hp
    · rintro ⟨name, hne, hdrop, hp⟩
      obtain ⟨cfg, hcfg⟩ := ne_none_iff_exists'.mp hne
      refine ⟨name, cfg, ?_, ?_⟩
      · rw [circuit_congr hcs5, hcirc1, if_neg hdrop, hcfg]
      · rwa [(h.circuit hcfg hdrop).2.1.connectedPrefixes]
  obtain ⟨r6, hr6, he6, ⟨l6, hf6⟩, hlookup6⟩ := run_deletePrefixes df r5.1
  have hkeep6 : ∀ p, r6.1.optionPrefixes.lookup p = keptPrefix ch m p := by
    intro p
    rw [hlookup6, keptPrefix, hopt5]
  obtain ⟨r7, hr7, he7, ⟨l7, hf7⟩, hlookup7⟩ := run_addPrefixes df r6.1
  have hcs7 : r7.1.circuits = r1.1.circuits := by rw [hf7, hf6, hcs5]
  have hps7 : r7.1.circuitPrefixes = r1.1.circuitPrefixes := by rw [hf7, hf6, hps5]
  have hflex7 : r7.1.flexAlgos = r4.1.flexAlgos := by rw [hf7, hf6, hflex5]
  have hcirc7 : ∀ name, r7.1.circuit name =
      if name ∈ ch.dropped then none else m.circuit name := by
    intro name
    rw [circuit_congr hcs7, hcirc1]
  have hkept7 : r7.1.WellKept := hkept1.of_eq (hflex7 ▸ hnodup4) hcs7 hps7
  obtain ⟨r8, hr8, he8, hkept8, hsame8, hcirc8⟩ := run_addCircuits df (h.running hkept7 hcirc7)
  have hlisted8 : ∀ p, r8.1.listed p = r5.1.listed p := by
    intro p
    rw [listed, hsame8.1, hf7, hf6]
    rfl
  -- a circuit of the batch's additions is never among the dropped ones
  have hstay : ∀ {name}, name ∈ ch.addCircuits.map (·.interface) →
      r7.1.circuit name = m.circuit name := by
    intro name hname
    obtain ⟨cc, hcc, rfl⟩ := mem_map.mp hname
    have hnext : cc.interface ∈ next.circuits.map (·.interface) :=
      mem_map_of_mem ((mem_addCircuits df).mp hcc).1
    rw [hcirc7, if_neg fun hdrop => ((mem_dropped df).mp hdrop).2 hnext]
  have happly : ch.apply host never m =
      (r8.1, r1.2 ++ (r2.2 ++ (r3.2 ++ (r4.2 ++ (r5.2 ++ (r6.2 ++ (r7.2 ++ r8.2))))))) := by
    simp only [apply, calls, runBatch_append, hr1, hr2, hr3, hr4, hr5, hr6, hr7, hr8]
  rw [happly]
  refine ⟨hkept8, ?_, ?_, ?_, ?_, ?_, ?_⟩
  · intro p algo hann
    rw [hlisted8, hann5 p algo hann, hleft4]
  · intro p hnot
    rw [hlisted8, hquiet5 p hnot, hleft4]
  · intro algo
    have hdef : r8.1.flexAlgo algo = r4.1.flexAlgo algo := by
      rw [flexAlgo, hsame8.2.1, hflex7]
      rfl
    rw [hdef, hflex4, hkept3]
  · intro p
    rw [hsame8.2.2, hlookup7, hkeep6]
  · intro name
    rw [hcirc8]
    by_cases hname : name ∈ ch.addCircuits.map (·.interface)
    · rw [hstay hname]
      by_cases hfine : m.circuit name ≠ none ∨ Wide host name
      · rw [if_pos ⟨hname, hfine⟩, if_pos ⟨hname, hfine⟩]
      · rw [if_neg fun h => hfine h.2, if_neg fun h => hfine h.2, ← hcirc7, hstay hname]
    · rw [if_neg fun h => hname h.1, if_neg fun h => hname h.1, hcirc7]
  · simp only [append_eq_nil_iff, he1, he2, true_and, he3, he4, he5, he6, he7, he8]
    refine and_congr ?_ (and_congr ?_ (and_congr ?_ (and_congr ?_ (and_congr ?_ ?_))))
    · refine forall₂_congr fun algo _ => ?_
      rw [hstuck, flexAlgo, flexAlgo, hflex2]
    · exact forall₂_congr fun algo _ => by rw [hkept3]
    · exact forall₂_congr fun p algo => by rw [hleft4]
    · refine forall₂_congr fun p _ => ?_
      rw [hconn5, hopt5]
    · exact forall₂_congr fun p _ => by rw [hkeep6]
    · refine forall₂_congr fun cc hcc => ?_
      rw [hstay (mem_map_of_mem hcc)]

/-! ## Where the batch ends -/

section Target

variable (df : Diffed host old next o o' ch) {r : Managed × List ReloadError}

theorem flexAlgo_eq_of_not (hr : ¬ Redefined o o' algo) (hi : ¬ Introduced o o' algo) :
    o'.managed.flexAlgo algo = o.managed.flexAlgo algo := by
  cases hold : o.managed.flexAlgo algo with
  | some d =>
    by_contra hne
    exact hr ⟨d, hold, hne⟩
  | none =>
    cases hnew : o'.managed.flexAlgo algo with
    | none => rfl
    | some d => exact absurd ⟨d, hnew, by rw [hold]; exact (some_ne_none d).symm⟩ hi

theorem flexAlgo_eq_none (hr : Redefined o o' algo) (hi : ¬ Introduced o o' algo) :
    o'.managed.flexAlgo algo = none := by
  obtain ⟨d, hd, hne⟩ := hr
  cases hnew : o'.managed.flexAlgo algo with
  | none => rfl
  | some d' =>
    refine absurd ⟨d', hnew, fun heq => hne ?_⟩ hi
    rw [hnew, ← heq, hd]

/-- Where nothing is refused, every definition is the new file's. -/
theorem Outcome.flexAlgo_eq (hO : Outcome host o o' ch m r) (h : Settled host next o o' ch m)
    (hnil : r.2 = []) (algo : UInt8) : r.1.flexAlgo algo = o'.managed.flexAlgo algo := by
  obtain ⟨hdel, hadd, -⟩ := hO.refused.mp hnil
  rw [hO.flexAlgo]
  by_cases hi : Introduced o o' algo
  · rw [if_pos hi]
    rcases hadd algo hi with hnone | hsame
    · rw [hnone]
      rfl
    · rw [hsame]
      cases o'.managed.flexAlgo algo <;> rfl
  · rw [if_neg hi, keptFlexAlgo]
    by_cases hr : Redefined o o' algo
    · rw [flexAlgo_eq_none hr hi]
      rcases hdel algo hr with hnone | hfree
      · rw [hnone, ite_self]
      · rw [if_pos ⟨hr, hfree⟩]
    · have hsame := flexAlgo_eq_of_not hr hi
      rw [if_neg fun h => hr h.1, h.flexAlgo algo hsame, hsame]

include df

/-- Where nothing is refused, every prefix is named as the new file names it. -/
theorem Outcome.prefixes_eq (hO : Outcome host o o' ch m r) (h : Settled host next o o' ch m)
    (hnil : r.2 = []) (p : Prefix) :
    r.1.optionPrefixes.lookup p = o'.managed.optionPrefixes.lookup p := by
  obtain ⟨-, -, -, -, hadd, -⟩ := hO.refused.mp hnil
  rw [hO.prefixes]
  by_cases hp : p ∈ ch.addPrefixes.map (·.pfx)
  · rw [if_pos hp]
    obtain ⟨q, hq, rfl⟩ := mem_map.mp hp
    have hnew := ((mem_addPrefixes df).mp hq).1
    rcases hadd q hq with hnone | hsame
    · rw [hnone]
      rfl
    · rw [hsame, hnew]
      rfl
  · rw [if_neg hp, keptPrefix]
    have hadd : ∀ metric, o'.managed.optionPrefixes.lookup p = some metric →
        o.managed.optionPrefixes.lookup p = some metric := by
      intro metric hmetric
      by_contra hne
      exact hp (mem_map.mpr ⟨⟨p, metric⟩, (mem_addPrefixes df).mpr ⟨hmetric, hne⟩, rfl⟩)
    by_cases hdel : p ∈ ch.deletePrefixes
    · rw [if_pos hdel]
      obtain ⟨metric, hold, hne⟩ := (mem_deletePrefixes df).mp hdel
      cases hnew : o'.managed.optionPrefixes.lookup p with
      | none => rfl
      | some metric' =>
        have hsame := some.inj (hold.symm.trans (hadd metric' hnew))
        exact absurd (hsame ▸ hnew) hne
    · rw [if_neg hdel]
      have hsame : o'.managed.optionPrefixes.lookup p = o.managed.optionPrefixes.lookup p := by
        cases hold : o.managed.optionPrefixes.lookup p with
        | some metric =>
          by_contra hne
          exact hdel ((mem_deletePrefixes df).mpr ⟨metric, hold, hne⟩)
        | none =>
          cases hnew : o'.managed.optionPrefixes.lookup p with
          | none => rfl
          | some metric => rw [hadd metric hnew] at hold; cases hold
      rw [h.prefixes p hsame, hsame]

/-- A circuit in neither half of the batch is the same in both files. -/
theorem circuit_eq_of_untouched (hadd : name ∉ ch.addCircuits.map (·.interface))
    (hdrop : name ∉ ch.dropped) : o.managed.circuit name = o'.managed.circuit name := by
  by_cases hnext : name ∈ next.circuits.map (·.interface)
  · obtain ⟨cc, hcc, rfl⟩ := mem_map.mp hnext
    have hold : cc ∈ old.circuits := by
      by_contra hnot
      exact hadd (mem_map_of_mem ((mem_addCircuits df).mpr ⟨hcc, hnot⟩))
    obtain ⟨cfg, -, hok, -, hcfg⟩ := circuit_of_mem df.before hold
    obtain ⟨cfg', -, hok', -, hcfg'⟩ := circuit_of_mem df.after hcc
    rw [hcfg, hcfg', Except.ok.inj (hok.symm.trans hok')]
  · have hold : name ∉ old.circuits.map (·.interface) := fun hold =>
      hdrop ((mem_dropped df).mpr ⟨hold, hnext⟩)
    rw [circuit_eq_none_of_not_mem df.before hold, circuit_eq_none_of_not_mem df.after hnext]

/-- Where nothing is refused, every circuit is in the new file's shape. -/
theorem Outcome.circuits_eq (hO : Outcome host o o' ch m r) (h : Settled host next o o' ch m)
    (hnil : r.2 = []) (name : String) : r.1.circuit name = o'.managed.circuit name := by
  obtain ⟨-, -, -, -, -, hwide⟩ := hO.refused.mp hnil
  rw [hO.circuits]
  by_cases hadd : name ∈ ch.addCircuits.map (·.interface)
  · obtain ⟨cc, hcc, rfl⟩ := mem_map.mp hadd
    rw [if_pos ⟨hadd, hwide cc hcc⟩]
  rw [if_neg fun h => hadd h.1]
  by_cases hdrop : name ∈ ch.dropped
  · rw [if_pos hdrop, circuit_eq_none_of_not_mem df.after ((mem_dropped df).mp hdrop).2]
  · rw [if_neg hdrop, h.untouched name hadd hdrop, circuit_eq_of_untouched df hadd hdrop]

/-- Where nothing is refused, only the locators can differ from what the new file describes. -/
theorem Outcome.alike_iff (hO : Outcome host o o' ch m r) (h : Settled host next o o' ch m)
    (hnil : r.2 = []) : r.1.Alike o'.managed ↔ ∀ p, (r.1.listed p).Perm (o'.managed.listed p) := by
  rw [Managed.alike_iff hO.wellKept (valid_of_options df.after).wellKept]
  exact ⟨And.left, fun hloc => ⟨hloc, hO.flexAlgo_eq h hnil, hO.prefixes_eq df h hnil,
    hO.circuits_eq df h hnil⟩⟩

end Target

end Goisis.ConfigFile
