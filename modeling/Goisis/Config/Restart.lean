import Goisis.Config.Batch

/-!
# Reload against restart

A reload is meant to leave a daemon where a restart on the new file would: `Diff` compares the files
as sets, keyed by masked prefix, algorithm and interface, and the server is taken from one to the
other call by call. For algorithms, prefixes and circuits that is so. Locators are a list on the
server and a map in `Diff`: a start keeps every listing of a prefix, `locatorSet` only the last one,
and `DeleteLocator` removes only the first.

* `reload_restart_iff` — a reload is refused nowhere and ends where a restart does **exactly when**
  every locator prefix carries over (`CarriesOver`): both files list it at most once, or the old
  listings, with or without the first of them, are already those of the new file;
* `twice_listed_reload` — the smallest failure: a file that lists one locator twice is replaced by
  one that does not list it, and the locator stays advertised.
-/

namespace Goisis.ConfigFile

open Lib Packet Server List Option Managed

variable {host : Host} {old next : Config} {o o' : NodeOptions} {s : NodeServer} {priority : UInt8}
  {metric : UInt32} {ch : Changes}

/-! ## The node a start leaves -/

section Start

variable (hs : newNodeServer o = .ok s)

include hs

theorem listed_start (p : Prefix) : s.managed.listed p = o.managed.listed p := by
  obtain ⟨-, hloc, -⟩ := managed_newNodeServer hs
  rw [listed, hloc]
  rfl

theorem flexAlgo_start (algo : UInt8) : s.managed.flexAlgo algo = o.managed.flexAlgo algo := by
  obtain ⟨-, -, hflex, -⟩ := managed_newNodeServer hs
  rw [flexAlgo, hflex]
  rfl

theorem prefixes_start : s.managed.optionPrefixes = o.managed.optionPrefixes :=
  (managed_newNodeServer hs).2.2.2.1

theorem circuit_start (name : String) : s.managed.circuit name = o.managed.circuit name := by
  obtain ⟨-, -, -, -, hcfgs, -⟩ := managed_newNodeServer hs
  rw [← find?_cfgs, hcfgs, ← find?_cfgs]
  change _ = ((o.circuits.map fun c => RunningCircuit.mk c.withDefaults 0).map (·.cfg)).find? _
  rw [List.map_map]
  rfl

theorem wellKept_start : s.managed.WellKept := by
  obtain ⟨hvalid, -, hflex, -, hcfgs, hps, -⟩ := managed_newNodeServer hs
  refine ⟨hflex ▸ hvalid.flexAlgosNodup, ?_, fun name => ?_⟩
  · have hnames : s.managed.circuits.map (·.cfg.name) = o.circuits.map (·.name) := by
      have hmap := congrArg (map (·.name)) hcfgs
      rw [List.map_map, List.map_map] at hmap
      exact hmap
    exact hnames ▸ hvalid.circuitsNodup
  · rw [circuit_start hs, prefixesOf, hps]
    exact hvalid.wellKept.subnets name

/-- A start leaves what its options describe. -/
theorem alike_start_iff {m : Managed} (hm : m.WellKept) :
    m.Alike s.managed ↔ m.Alike o.managed := by
  rw [alike_iff hm (wellKept_start hs),
    alike_iff hm (managed_newNodeServer hs).1.wellKept, prefixes_start hs]
  simp only [listed_start hs, flexAlgo_start hs, circuit_start hs]

/-- A node started on the old file is one a batch can start from. -/
theorem settled_start (df : Diffed host old next o o' ch) :
    Settled host next o o' ch s.managed := by
  refine ⟨wellKept_start hs, fun algo _ => flexAlgo_start hs algo,
    fun p _ => by rw [prefixes_start hs], fun name _ _ => circuit_start hs name, ?_⟩
  intro name cfg hcfg hdrop
  rw [circuit_start hs] at hcfg
  obtain ⟨cc, hcc, rfl⟩ := mem_of_circuit df.before hcfg
  have hold : cc.interface ∈ old.circuits.map (·.interface) := mem_map_of_mem hcc
  have hnext : cc.interface ∈ next.circuits.map (·.interface) := by
    by_contra hnot
    exact hdrop ((mem_dropped df).mpr ⟨hold, hnot⟩)
  obtain ⟨cfg', hmem, hok, -, hcfg'⟩ := circuit_of_mem df.before hcc
  have heq : cfg'.withDefaults = cfg := some.inj (hcfg'.symm.trans hcfg)
  refine ⟨hnext, heq ▸ onInterface_of_circuit hok, ?_, ?_⟩
  · have hmtu := (managed_newNodeServer hs).2.2.2.2.2.2 cfg' hmem
    rwa [(circuit_eq_ok hok).2.1] at hmtu
  · obtain ⟨cc', hcc', hname⟩ := mem_map.mp hnext
    by_cases hsame : cc' ∈ old.circuits
    · left
      obtain ⟨cfg₁, -, hok₁, -, hcfg₁⟩ := circuit_of_mem df.before hsame
      obtain ⟨cfg₂, -, hok₂, -, hcfg₂⟩ := circuit_of_mem df.after hcc'
      rw [hname] at hcfg₁ hcfg₂
      rw [hcfg₂, ← hcfg, hcfg₁, Except.ok.inj (hok₁.symm.trans hok₂)]
    · exact .inr ((rebuilds_iff df).mpr ⟨hold, cc', hcc', hname, hsame⟩)

end Start

/-! ## Locators that carry over -/

/-- Two listings of a prefix have the same algorithms and the same one last; or those of the first
without its first one are those of the second, beginning with the one that has become the last. -/
def ListedOn (l l' : List UInt8) : Prop :=
  l.Perm l' ∧ l.getLast? = l'.getLast? ∨
    l.tail.Perm l' ∧ l.getLast? ≠ l'.getLast? ∧ l.tail.head? = l'.getLast?

/-- Every locator prefix is listed at most once by each file, or is listed on by the new one for
algorithms none of which is redefined. -/
def CarriesOver (o o' : NodeOptions) : Prop :=
  ∀ p, ((o.managed.listed p).length ≤ 1 ∧ (o'.managed.listed p).length ≤ 1) ∨
    (o'.managed.listed p ≠ [] ∧ (∀ algo ∈ o'.managed.listed p, ¬ Redefined o o' algo) ∧
      ListedOn (o.managed.listed p) (o'.managed.listed p))

section Once

variable {p : Prefix} {algo : UInt8}

/-- What is left of a locator listed once stays: it is listed alike and its algorithm is kept. -/
theorem leftOver_once (hone : (o.managed.listed p).length ≤ 1)
    (hleft : leftOver o o' o.managed p ≠ []) :
    ∃ algo, o.managed.listed p = [algo] ∧ leftOver o o' o.managed p = [algo] ∧
      (o'.managed.listed p).getLast? = some algo ∧ ¬ Redefined o o' algo := by
  rw [leftOver] at hleft ⊢
  by_cases hw : Withdrawn o o' p
  · rw [if_pos hw] at hleft
    refine absurd (eq_nil_of_length_eq_zero ?_) hleft
    rw [length_tail]
    omega
  · rw [if_neg hw] at hleft ⊢
    obtain ⟨algo, halgo⟩ := length_eq_one_iff.mp (le_antisymm hone (length_pos_iff.mpr hleft))
    have hlast : (o.managed.listed p).getLast? = some algo := by rw [halgo]; rfl
    refine ⟨algo, halgo, halgo, ?_, fun hr => hw ⟨algo, hlast, .inr hr⟩⟩
    by_contra hne
    exact hw ⟨algo, hlast, .inl hne⟩

/-- An algorithm a file's locator is bound to and both files define is kept or replaced, never
introduced without being redefined. -/
theorem redefined_of_introduced (ho : old.options host = .ok o) (ho' : next.options host = .ok o')
    (hlisted : algo ∈ o.managed.listed p) (hi : Introduced o o' algo) : Redefined o o' algo := by
  obtain ⟨d, hd, hne⟩ := hi
  rcases (locator_of_listed ho hlisted).2 with hzero | hdef
  · subst hzero
    obtain ⟨hmem, hdalgo⟩ := (flexAlgo_managed (valid_of_options ho')).mp hd
    have hrange := (valid_of_options ho').flexAlgos d hmem
    rw [hdalgo] at hrange
    exact absurd (by decide) hrange
  · obtain ⟨d', hd'⟩ := ne_none_iff_exists'.mp hdef
    refine ⟨d', hd', fun heq => hne ?_⟩
    rw [hd', ← heq, hd]

variable (df : Diffed host old next o o' ch)

include df

/-- An algorithm the new file binds a locator to is defined by it. -/
theorem introduced_of_redefined (hlisted : algo ∈ o'.managed.listed p) (hr : Redefined o o' algo) :
    Introduced o o' algo :=
  redefined_of_introduced df.after df.before hlisted hr

/-- A prefix is listed on exactly when what the withdrawal leaves of the old listings is what the
new file lists and starts with the locator to be announced if there is one. -/
theorem listedOn_iff : (leftOver o o' o.managed p ≠ [] ∧
      (leftOver o o' o.managed p).Perm (o'.managed.listed p) ∧
      (∀ algo ∈ leftOver o o' o.managed p, ¬ Redefined o o' algo) ∧
      ∀ algo, Announced o o' p algo → (leftOver o o' o.managed p).head? = some algo) ↔
    o'.managed.listed p ≠ [] ∧ (∀ algo ∈ o'.managed.listed p, ¬ Redefined o o' algo) ∧
      ListedOn (o.managed.listed p) (o'.managed.listed p) := by
  constructor
  · rintro ⟨hleft, hperm, hkept, hhead⟩
    have hne : o'.managed.listed p ≠ [] := fun hnil => hleft (hnil ▸ hperm).eq_nil
    refine ⟨hne, fun algo hmem => hkept algo (hperm.mem_iff.mpr hmem), ?_⟩
    obtain ⟨algo, hlast⟩ := isSome_iff_exists.mp (getLast?_isSome.mpr hne)
    by_cases hw : Withdrawn o o' p
    · rw [leftOver, if_pos hw] at hleft hperm hkept hhead
      obtain ⟨a, ha, hcause⟩ := hw
      -- the last of the old listings is left, so it is kept and the new file's last is another
      have hmem : a ∈ (o.managed.listed p).tail := by
        refine mem_of_getLast? (getLast?_tail.trans ?_)
        rw [if_neg, ha]
        intro hle
        refine hleft (eq_nil_of_length_eq_zero ?_)
        rw [length_tail]
        omega
      have hnew := hcause.resolve_right (hkept a hmem)
      have hother : (o.managed.listed p).getLast? ≠ (o'.managed.listed p).getLast? := by
        rw [ha]
        exact hnew.symm
      exact .inr ⟨hperm, hother, hlast ▸ hhead algo ⟨hlast, .inl (hlast ▸ hother)⟩⟩
    · rw [leftOver, if_neg hw] at hleft hperm
      obtain ⟨a, ha⟩ := isSome_iff_exists.mp (getLast?_isSome.mpr hleft)
      refine .inl ⟨hperm, ?_⟩
      by_contra hother
      exact hw ⟨a, ha, .inl fun h => hother (ha.trans h.symm)⟩
  · rintro ⟨hne, hkept, ⟨hperm, hsame⟩ | ⟨hperm, hother, hhead⟩⟩
    · have hw : ¬ Withdrawn o o' p := by
        rintro ⟨a, ha, hcause⟩
        rw [hsame] at ha
        exact hcause.elim (fun h => h ha) (hkept a (mem_of_getLast? ha))
      rw [leftOver, if_neg hw]
      refine ⟨fun hnil => hne (hnil ▸ hperm).symm.eq_nil, hperm,
        fun algo hmem => hkept algo (hperm.mem_iff.mp hmem), ?_⟩
      rintro algo ⟨hlast, hnew | hi⟩
      · exact absurd (hsame.trans hlast) hnew
      · have hmem := mem_of_getLast? hlast
        exact absurd (redefined_of_introduced df.before df.after (hperm.mem_iff.mpr hmem) hi)
          (hkept algo hmem)
    · have hleft : (o.managed.listed p).tail ≠ [] := fun hnil => hne (hnil ▸ hperm).symm.eq_nil
      have hlisted : o.managed.listed p ≠ [] := fun hnil => hleft (by rw [hnil]; rfl)
      obtain ⟨a, ha⟩ := isSome_iff_exists.mp (getLast?_isSome.mpr hlisted)
      have hw : Withdrawn o o' p := ⟨a, ha, .inl fun h => hother (ha.trans h.symm)⟩
      rw [leftOver, if_pos hw]
      exact ⟨hleft, hperm, fun algo hmem => hkept algo (hperm.mem_iff.mp hmem),
        fun algo hann => hhead.trans hann.1⟩

/-- A locator to be announced and listed once before leaves nothing behind. -/
theorem leftOver_announced (hone : (o.managed.listed p).length ≤ 1) (hann : Announced o o' p algo) :
    leftOver o o' o.managed p = [] := by
  by_contra hleft
  obtain ⟨a, hlisted, -, hlast, hkept⟩ := leftOver_once hone hleft
  have ha : a = algo := some.inj (hlast.symm.trans hann.1)
  subst ha
  rcases hann.2 with hne | hi
  · exact hne (by rw [hlisted]; rfl)
  · exact hkept (redefined_of_introduced df.before df.after (p :=
      p) (by rw [hlisted]; exact mem_singleton_self a) hi)

/-- A locator that is neither announced nor left over is not listed by the new file. -/
theorem listed_eq_nil (hleft : leftOver o o' o.managed p = [])
    (hquiet : ∀ algo, ¬ Announced o o' p algo) : o'.managed.listed p = [] := by
  cases hlast : (o'.managed.listed p).getLast? with
  | none => exact getLast?_eq_none_iff.mp hlast
  | some algo =>
    exfalso
    have hold : (o.managed.listed p).getLast? = some algo := by
      by_contra hne
      exact hquiet algo ⟨hlast, .inl hne⟩
    have hkept : ¬ Introduced o o' algo := fun hi => hquiet algo ⟨hlast, .inr hi⟩
    rw [leftOver] at hleft
    by_cases hw : Withdrawn o o' p
    · obtain ⟨a, ha, hcause⟩ := hw
      have heq : a = algo := some.inj (ha.symm.trans hold)
      subst heq
      rcases hcause with hne | hr
      · exact hne hlast
      · exact hkept (introduced_of_redefined df (mem_of_getLast? hlast) hr)
    · rw [if_neg hw] at hleft
      rw [hleft] at hold
      cases hold

/-- What the new file lists of a locator listed once before and once after is what the batch ends
with. -/
theorem perm_once {l : List UInt8} (hone : (o.managed.listed p).length ≤ 1)
    (hone' : (o'.managed.listed p).length ≤ 1) (hann : ∀ algo, Announced o o' p algo →
      l = if leftOver o o' o.managed p = [] then [algo] else leftOver o o' o.managed p)
    (hquiet : (∀ algo, ¬ Announced o o' p algo) → l = leftOver o o' o.managed p) :
    l.Perm (o'.managed.listed p) := by
  have hsingle : ∀ {algo}, (o'.managed.listed p).getLast? = some algo →
      o'.managed.listed p = [algo] := by
    intro algo hlast
    have hne : o'.managed.listed p ≠ [] := by
      intro hnil
      rw [hnil] at hlast
      cases hlast
    obtain ⟨a, ha⟩ := length_eq_one_iff.mp (le_antisymm hone' (length_pos_iff.mpr hne))
    rw [ha] at hlast ⊢
    exact congrArg (fun x => [x]) (some.inj hlast)
  by_cases hex : ∃ algo, Announced o o' p algo
  · obtain ⟨algo, halgo⟩ := hex
    rw [hann algo halgo, if_pos (leftOver_announced df hone halgo), hsingle halgo.1]
  rw [not_exists] at hex
  rw [hquiet hex]
  by_cases hleft : leftOver o o' o.managed p = []
  · rw [hleft, listed_eq_nil df hleft hex]
  · obtain ⟨algo, -, heq, hlast, -⟩ := leftOver_once hone hleft
    rw [heq, hsingle hlast]

end Once

/-! ## Where a reload ends -/

section Reload

variable (df : Diffed host old next o o' ch) (hs : newNodeServer o = .ok s)

include hs in
theorem leftOver_start (p : Prefix) : leftOver o o' s.managed p = leftOver o o' o.managed p := by
  rw [leftOver, leftOver, listed_start hs]

include df hs

/-- From a node started on the old file, only locators can be refused, and too narrow interfaces. -/
theorem refused_start {r : Managed × List ReloadError} (hO : Outcome host o o' ch s.managed r) :
    r.2 = [] ↔
      (∀ p, ∀ algo ∈ leftOver o o' o.managed p, ¬ Redefined o o' algo) ∧
      (∀ p algo, Announced o o' p algo →
        leftOver o o' o.managed p = [] ∨ (leftOver o o' o.managed p).head? = some algo) ∧
      ∀ cc ∈ next.circuits, Wide host cc.interface := by
  have hstuck : ∀ algo, Stuck o o' s.managed algo ↔ ∃ p, algo ∈ leftOver o o' o.managed p :=
    fun algo => exists_congr fun p => by rw [leftOver_start hs]
  rw [hO.refused]
  constructor
  · rintro ⟨hdel, -, hann, -, -, hwide⟩
    refine ⟨fun p algo hmem hr => ?_, fun p algo h => ?_, fun cc hcc => ?_⟩
    · rcases hdel algo hr with hnone | hfree
      · obtain ⟨d, hd, -⟩ := hr
        rw [flexAlgo_start hs, hd] at hnone
        cases hnone
      · exact hfree ((hstuck algo).mpr ⟨p, hmem⟩)
    · rw [← leftOver_start hs]
      exact hann p algo h
    · by_cases hold : cc.interface ∈ old.circuits.map (·.interface)
      · obtain ⟨cc₀, hcc₀, hname⟩ := mem_map.mp hold
        obtain ⟨cfg, -, -, -, hcfg⟩ := circuit_of_mem df.before hcc₀
        rw [hname, ← circuit_start hs] at hcfg
        have hdrop : cc.interface ∉ ch.dropped := fun hdrop =>
          ((mem_dropped df).mp hdrop).2 (mem_map_of_mem hcc)
        exact ((settled_start hs df).circuit hcfg hdrop).2.2.1
      · have hnew : cc ∉ old.circuits := fun h => hold (mem_map_of_mem h)
        rcases hwide cc ((mem_addCircuits df).mpr ⟨hcc, hnew⟩) with hrun | hwide
        · rw [circuit_start hs, circuit_eq_none_of_not_mem df.before hold] at hrun
          exact absurd rfl hrun
        · exact hwide
  · rintro ⟨hfree, hann, hwide⟩
    have hnot : ∀ algo, Redefined o o' algo → ¬ Stuck o o' s.managed algo := by
      intro algo hr hstk
      obtain ⟨p, hp⟩ := (hstuck algo).mp hstk
      exact hfree p algo hp hr
    refine ⟨fun algo hr => .inr (hnot algo hr), fun algo hi => .inl ?_, fun p algo h => ?_,
      fun p hp => .inl ?_, fun p hp => .inl ?_, fun cc hcc =>
        .inr (hwide cc ((mem_addCircuits df).mp hcc).1)⟩
    · rw [keptFlexAlgo]
      by_cases hr : Redefined o o' algo
      · rw [if_pos ⟨hr, hnot algo hr⟩]
      rw [if_neg fun h => hr h.1, flexAlgo_start hs]
      obtain ⟨d, hd, hne⟩ := hi
      cases hold : o.managed.flexAlgo algo with
      | none => rfl
      | some d' =>
        exact absurd ⟨d', hold, fun h => hne (hold.trans (h.symm.trans hd))⟩ hr
    · rw [leftOver_start hs]
      exact hann p algo h
    · obtain ⟨metric, hmetric, -⟩ := (mem_deletePrefixes df).mp hp
      rw [prefixes_start hs, hmetric]
      exact some_ne_none metric
    · obtain ⟨hnew, hne⟩ := (mem_addPrefixes df).mp hp
      rw [keptPrefix, prefixes_start hs]
      by_cases hdel : p.pfx ∈ ch.deletePrefixes
      · rw [if_pos hdel]
      rw [if_neg hdel]
      cases hold : o.managed.optionPrefixes.lookup p.pfx with
      | none => rfl
      | some metric =>
        refine absurd ((mem_deletePrefixes df).mpr ⟨metric, hold, fun h => hne ?_⟩) hdel
        exact hold.trans (h.symm.trans hnew)

/-- From a node started on the old file, the batch is refused nowhere and ends in what the new file
describes exactly when every locator carries over and every interface is wide enough. -/
theorem apply_start_iff :
    ((ch.apply host never s.managed).2 = [] ∧ (ch.apply host never s.managed).1.Alike o'.managed) ↔
      CarriesOver o o' ∧ ∀ cc ∈ next.circuits, Wide host cc.interface := by
  have hsettled := settled_start hs df
  have hO := apply_eq df hsettled
  have hann : ∀ p algo, Announced o o' p algo →
      (ch.apply host never s.managed).1.listed p =
        if leftOver o o' o.managed p = [] then [algo] else leftOver o o' o.managed p := by
    intro p algo h
    rw [hO.announced p algo h, leftOver_start hs]
  have hquiet : ∀ p, (∀ algo, ¬ Announced o o' p algo) →
      (ch.apply host never s.managed).1.listed p = leftOver o o' o.managed p := by
    intro p h
    rw [hO.quiet p h, leftOver_start hs]
  constructor
  · rintro ⟨hnil, halike⟩
    obtain ⟨hfree, hhead, hwide⟩ := (refused_start df hs hO).mp hnil
    refine ⟨fun p => ?_, hwide⟩
    have hperm := (hO.alike_iff df hsettled hnil).mp halike p
    by_cases hleft : leftOver o o' o.managed p = []
    · left
      constructor
      · rw [leftOver] at hleft
        by_cases hw : Withdrawn o o' p
        · rw [if_pos hw] at hleft
          have hlen := congrArg length hleft
          rw [length_tail, length_nil] at hlen
          omega
        · rw [if_neg hw] at hleft
          rw [hleft]
          exact Nat.zero_le 1
      · rw [← hperm.length_eq]
        by_cases hex : ∃ algo, Announced o o' p algo
        · obtain ⟨algo, h⟩ := hex
          rw [hann p algo h, if_pos hleft]
          exact le_refl 1
        · rw [hquiet p (not_exists.mp hex), hleft]
          exact Nat.zero_le 1
    · right
      refine (listedOn_iff df).mp
        ⟨hleft, ?_, hfree p, fun algo h => (hhead p algo h).resolve_left hleft⟩
      by_cases hex : ∃ algo, Announced o o' p algo
      · obtain ⟨algo, h⟩ := hex
        rw [hann p algo h, if_neg hleft] at hperm
        exact hperm
      · rw [hquiet p (not_exists.mp hex)] at hperm
        exact hperm
  · rintro ⟨hlisted, hwide⟩
    have hcarry := fun p => (hlisted p).imp_right (listedOn_iff df).mpr
    have hnil : (ch.apply host never s.managed).2 = [] := by
      refine (refused_start df hs hO).mpr ⟨fun p algo hmem => ?_, fun p algo h => ?_, hwide⟩
      · rcases hcarry p with ⟨hone, -⟩ | ⟨-, -, hfree, -⟩
        · obtain ⟨a, -, heq, -, hkept⟩ := leftOver_once hone (ne_nil_of_mem hmem)
          rw [heq, mem_singleton] at hmem
          exact hmem ▸ hkept
        · exact hfree algo hmem
      · rcases hcarry p with ⟨hone, -⟩ | ⟨-, -, -, hhead⟩
        · exact .inl (leftOver_announced df hone h)
        · exact .inr (hhead algo h)
    refine ⟨hnil, (hO.alike_iff df hsettled hnil).mpr fun p => ?_⟩
    rcases hcarry p with ⟨hone, hone'⟩ | ⟨hleft, hperm, -, -⟩
    · exact perm_once df hone hone' (hann p) (hquiet p)
    by_cases hex : ∃ algo, Announced o o' p algo
    · obtain ⟨algo, h⟩ := hex
      rw [hann p algo h, if_neg hleft]
      exact hperm
    · rw [hquiet p (not_exists.mp hex)]
      exact hperm

end Reload

/-- **A reload equals a restart exactly when every locator carries over**: from a node started on
the old file, the calls of `Diff` are refused nowhere and leave the node configured as a start on
the new file does if and only if every locator prefix is listed at most once by each file, or is
listed on by the new one. -/
theorem reload_restart_iff {s' : NodeServer} (ho : old.options host = .ok o)
    (ho' : next.options host = .ok o') (hs : newNodeServer o = .ok s)
    (hs' : newNodeServer o' = .ok s') :
    ∃ ch, diff host old next = .ok ch ∧ (((ch.apply host never s.managed).2 = [] ∧
        (ch.apply host never s.managed).1.Alike s'.managed) ↔ CarriesOver o o') := by
  have df : Diffed host old next o o' _ := ⟨ho, ho', rfl⟩
  refine ⟨_, (diff_eq_ok ho).mpr ⟨o', df⟩, ?_⟩
  have hwide : ∀ cc ∈ next.circuits, Wide host cc.interface := by
    intro cc hcc
    obtain ⟨cfg, hmem, hok, -, -⟩ := circuit_of_mem ho' hcc
    have hmtu := (managed_newNodeServer hs').2.2.2.2.2.2 cfg hmem
    rwa [(circuit_eq_ok hok).2.1] at hmtu
  rw [alike_start_iff hs' (apply_eq df (settled_start hs df)).wellKept, apply_start_iff df hs]
  exact and_iff_left hwide

/-! ## A locator listed twice -/

/-- A daemon started on a file. -/
def started (host : Host) (c : Config) : Option NodeServer :=
  (c.options host).toOption.bind fun o => (newNodeServer o).toOption

theorem started_eq_some {c : Config} :
    started host c = some s ↔ ∃ o, c.options host = .ok o ∧ newNodeServer o = .ok s := by
  simp only [started, bind_eq_some_iff, toOption_eq_some]

/-- A daemon started on one file and reloaded with another. -/
def reloaded (host : Host) (old next : Config) : Option (Managed × List ReloadError) :=
  (started host old).bind fun s => (diff host old next).toOption.map fun ch =>
    ch.apply host never s.managed

/-- A box with one kind of interface, no address on it. -/
def bareBox : Host where
  parseDuration := fun _ => none
  mtu := fun _ => 1500
  localSNPA := fun _ => Octets.zero 6
  ipv4Addrs := fun _ => []
  ipv6Addrs := fun _ => []
  connectedPrefixes := fun _ => []

/-- `fc00::/48`. -/
def siteLocator : ParsedPrefix :=
  ⟨⟨.v6 (Octets.ofList 16 [0xfc]), 48⟩, rfl⟩

/-- A file with one circuit and the given `srv6` locators. -/
def fileWith (locators : List ParsedPrefix) : Config where
  restart :=
    { hmac := fun _ _ _ => []
      systemID := Octets.ofList 6 [1] }
  circuits := [{ interface := "eth0" }]
  locators := locators

/-- **A locator listed twice outlives its reload**: the file that no longer lists it is applied
without a refusal and leaves one of the two, where a restart leaves none. -/
theorem twice_listed_reload :
    (reloaded bareBox (fileWith [siteLocator, siteLocator]) (fileWith [])).map
        (fun r => (r.1.locators, r.2)) = some ([⟨siteLocator.val, 0⟩], []) ∧
      (started bareBox (fileWith [])).map (·.locators) = some [] := by
  decide +kernel

theorem listed_once (h : (o.locators.map (·.pfx.masked)).Nodup) (p : Prefix) :
    (o.managed.listed p).length ≤ 1 := by
  have hcount := nodup_iff_count_le_one.mp h p
  rw [count, countP_map, countP_eq_length_filter] at hcount
  rw [listed, listing, length_map]
  exact hcount

/-- `fd00::/48`. -/
def branchLocator : ParsedPrefix := ⟨⟨.v6 (Octets.ofList 16 [0xfd]), 48⟩, rfl⟩

/-- `10.0.0.0/24`. -/
def officePrefix : ParsedPrefix := ⟨⟨.v4 (Octets.ofList 4 [10]), 24⟩, rfl⟩

/-- A file with two circuits, a prefix and two locators, one of them bound to an algorithm. -/
def busyFile (priority : UInt8) (metric : UInt32) : Config :=
  { fileWith [siteLocator] with
    circuits := [{ interface := "eth0", metric := metric }, { interface := "eth1" }]
    prefixes := [⟨officePrefix, metric⟩]
    flexAlgo := [{ algo := 128, priority, advertise := true, locator := some branchLocator }] }

/-- What a reload between two of them changes: the algorithm is redefined, so its locator moves; the
prefix gets another metric; and the circuit is rebuilt. -/
theorem diff_busyFile : (diff bareBox (busyFile 1 10) (busyFile 2 20)).toOption.map
    (fun ch => (ch.deleteFlexAlgos, ch.deleteLocators, ch.deletePrefixes, ch.deleteCircuits)) =
      some ([128], [branchLocator.val], [officePrefix.val], ["eth0"]) := by
  decide +kernel

theorem locators_busyFile (h : (busyFile priority metric).options bareBox = .ok o) :
    o.locators = [⟨siteLocator.val, 0⟩, ⟨branchLocator.val, 128⟩] := by
  rw [(options_eq_ok.mp h).2.2.1]
  rfl

theorem listed_busyFile (h : (busyFile priority metric).options bareBox = .ok o) (p : Prefix) :
    (o.managed.listed p).length ≤ 1 := by
  refine listed_once ?_ p
  rw [locators_busyFile h]
  decide

/-- Both sides of the criterion, at a reload that changes something of every kind. -/
theorem reload_restart_busyFile :
    ∃ o o' s s' ch, (busyFile 1 10).options bareBox = .ok o ∧ newNodeServer o = .ok s ∧
      (busyFile 2 20).options bareBox = .ok o' ∧ newNodeServer o' = .ok s' ∧
      diff bareBox (busyFile 1 10) (busyFile 2 20) = .ok ch ∧ ch.deleteFlexAlgos = [128] ∧
      ch.deletePrefixes = [officePrefix.val] ∧ ch.deleteCircuits = ["eth0"] ∧ CarriesOver o o' ∧
      (ch.apply bareBox never s.managed).2 = [] ∧
      (ch.apply bareBox never s.managed).1.Alike s'.managed := by
  have hold : (started bareBox (busyFile 1 10)).isSome = true := by decide +kernel
  have hnext : (started bareBox (busyFile 2 20)).isSome = true := by decide +kernel
  obtain ⟨s, hs⟩ := isSome_iff_exists.mp hold
  obtain ⟨s', hs'⟩ := isSome_iff_exists.mp hnext
  obtain ⟨o, ho, hs⟩ := started_eq_some.mp hs
  obtain ⟨o', ho', hs'⟩ := started_eq_some.mp hs'
  obtain ⟨ch, hch, hiff⟩ := reload_restart_iff ho ho' hs hs'
  have hcarry : CarriesOver o o' := fun p => .inl ⟨listed_busyFile ho p, listed_busyFile ho' p⟩
  have hchanges := diff_busyFile
  rw [hch] at hchanges
  simp only [Except.toOption, map_some, some.injEq, Prod.mk.injEq] at hchanges
  obtain ⟨halgos, -, hprefixes, hcircuits⟩ := hchanges
  obtain ⟨hnil, halike⟩ := hiff.mpr hcarry
  exact ⟨o, o', s, s', ch, ho, hs, ho', hs', hch, halgos, hprefixes, hcircuits, hcarry,
    hnil, halike⟩

end Goisis.ConfigFile
