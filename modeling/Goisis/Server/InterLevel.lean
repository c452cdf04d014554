import Goisis.Server.Rib
import Goisis.Server.SpfRoutes

/-!
# What travels between the levels

`updateRIB` carries prefixes both ways: `l1ExportSet` up into the Level 2 LSP, `l2LeakSet` down into
the Level 1 LSP. Both read the merged table, in which `betterRoute` chose among all levels and
algorithms. Here the choice is undone: the two sets depend on the two computations of algorithm 0
alone.

* `merged_least_plain` — the merged route is the best on offer, by preference class and algorithm;
* `lookup_l1ExportSet` — the export set read off the Level 1 computation.
-/

namespace Goisis.Server

open Lib Packet List RoutingServer Route

variable {r : Route} {p : Prefix} {s : RoutingServer} {o : Level → UInt8 → SpfOrder} {now : Int}

/-! ## The best of the computations -/

/-- What `betterRoute` compares: the preference class, then the algorithm. -/
def Route.order (r : Route) : ℕ := (preferenceClass r).toNat * 256 + r.algo.toNat

theorem betterRoute_iff {cur : Route} : betterRoute r cur = true ↔ r.order < cur.order := by
  have h := r.algo.toNat_lt
  have h' := cur.algo.toNat_lt
  unfold betterRoute order
  by_cases hc : preferenceClass r = preferenceClass cur
  · simp only [hc, ne_eq, not_true, if_false, decide_eq_true_eq, UInt8.lt_iff_toNat_lt]
    omega
  have hne : (preferenceClass r).toNat ≠ (preferenceClass cur).toNat :=
    fun heq => hc (UInt8.toNat_inj.mp heq)
  simp only [ne_eq, hc, not_false_eq_true, if_true, decide_eq_true_eq, UInt8.lt_iff_toNat_lt]
  omega

theorem order_keptRoute_le (cur : Option Route) (r : Route) :
    (keptRoute cur r).order ≤ r.order ∧ ∀ c, cur = some c → (keptRoute cur r).order ≤ c.order := by
  cases cur with
  | none =>
    refine ⟨Nat.le_refl _, ?_⟩
    rintro c ⟨⟩
  | some cur =>
    simp only [keptRoute]
    split
    · rename_i hb
      refine ⟨Nat.le_refl _, ?_⟩
      rintro c ⟨⟩
      exact Nat.le_of_lt (betterRoute_iff.mp hb)
    · rename_i hb
      refine ⟨Nat.le_of_not_lt fun hlt => hb (betterRoute_iff.mpr hlt), ?_⟩
      rintro c ⟨⟩
      exact Nat.le_refl _

/-- The route of merged tables is no worse than any of theirs. -/
theorem foldl_mergeComputed_least {α : Type} {f : α → Map Prefix Route} {l : List α} {x : α}
    (hx : x ∈ l) (hr : (f x).lookup p = some r) :
    ∃ r', (l.foldl (fun merged x => mergeComputed merged (f x)) ∅).lookup p = some r' ∧
      r'.order ≤ r.order := by
  induction l using reverseRecOn with
  | nil => cases hx
  | append_singleton l last ih =>
    rw [foldl_concat, lookup_mergeComputed]
    rcases mem_append.mp hx with hx | hx
    · obtain ⟨r', hr', hle⟩ := ih hx
      cases hlast : (f last).lookup p with
      | none => exact ⟨r', hr', hle⟩
      | some q => exact ⟨_, rfl, Nat.le_trans ((order_keptRoute_le _ q).2 r' hr') hle⟩
    · rw [mem_singleton.mp hx] at hr
      rw [hr]
      exact ⟨_, rfl, (order_keptRoute_le _ r).1⟩

section Merged

variable {level : Level}

/-- The routes of one of the computations. -/
def RoutingServer.routesOf (s : RoutingServer) (o : Level → UInt8 → SpfOrder) (now : Int)
    (c : Level × UInt8 × FlexAlgoAffinity) : Map Prefix Route :=
  s.computeSPF (o c.1 c.2.1) c.1 c.2.1 c.2.2 now

/-- The computation of algorithm 0 at a level; no routes without a database. -/
def RoutingServer.plainRoutes (s : RoutingServer) (o : Level → UInt8 → SpfOrder) (now : Int)
    (level : Level) : Map Prefix Route :=
  if (s.dbs level).isSome then s.computeSPF (o level 0) level 0 {} now else ∅

theorem plainRoutes_level_algo (h : (s.plainRoutes o now level).lookup p = some r) :
    r.level = level ∧ r.algo = 0 := by
  unfold plainRoutes at h
  split at h
  · exact computeSPF_level_algo h
  · cases h

/-- A merged route of algorithm 0 is the route of its level's own computation. -/
theorem plainRoutes_of_merged (h : (s.merged o now).lookup p = some r) (halgo : r.algo = 0) :
    (s.plainRoutes o now r.level).lookup p = some r := by
  obtain ⟨⟨level, algo, aff⟩, hc, hr⟩ := lookup_merged_some h
  obtain ⟨hlevel, halgo'⟩ := computeSPF_level_algo hr
  rw [halgo] at halgo'
  subst hlevel halgo'
  obtain ⟨hdb, rfl⟩ := mem_computations_zero.mp hc
  unfold plainRoutes
  rw [if_pos hdb]
  exact hr

/-- A route of algorithm 0 bounds the merged one. -/
theorem merged_least_plain (h : (s.plainRoutes o now level).lookup p = some r) :
    ∃ r', (s.merged o now).lookup p = some r' ∧ r'.order ≤ r.order := by
  unfold plainRoutes at h
  split at h
  · rename_i hdb
    exact foldl_mergeComputed_least (f := s.routesOf o now) (mem_computations_zero.mpr ⟨hdb, rfl⟩) h
  · cases h

/-- An intra-area route: Level 1 and not leaked down. -/
def Route.intraArea (r : Route) : Bool := r.level == .level1 && !r.down

theorem order_intraArea (h : r.intraArea = true) (halgo : r.algo = 0) : r.order = 256 := by
  simp only [intraArea, Bool.and_eq_true, beq_iff_eq, Bool.not_eq_true'] at h
  simp [order, preferenceClass, h.1, h.2, halgo]

theorem intraArea_of_order_le (h : r.order ≤ 256) : r.intraArea = true ∧ r.algo = 0 := by
  have hlt := r.algo.toNat_lt
  have hclass : (preferenceClass r).toNat = 1 ∨ (preferenceClass r).toNat = 2 ∨
      (preferenceClass r).toNat = 3 := by
    unfold preferenceClass
    cases r.level with
    | level2 => exact .inr (.inl rfl)
    | level1 =>
      simp only
      split
      · exact .inr (.inr rfl)
      · exact .inl rfl
  unfold order at h
  have hone : (preferenceClass r).toNat = 1 := by omega
  refine ⟨?_, UInt8.toNat_inj.mp (by rw [UInt8.toNat_zero]; omega)⟩
  unfold preferenceClass at hone
  unfold intraArea
  cases hl : r.level with
  | level2 =>
    rw [hl] at hone
    cases hone
  | level1 =>
    rw [hl] at hone
    simp only at hone
    split at hone
    · cases hone
    · rename_i hd
      simp [hd]

/-- **Intra-area routes always win**: the merged table holds an intra-area route of algorithm 0 for
a prefix exactly when the Level 1 computation does, and then that one. -/
theorem merged_intraArea_iff :
    (s.merged o now).lookup p = some r ∧ r.intraArea = true ∧ r.algo = 0 ↔
    (s.plainRoutes o now .level1).lookup p = some r ∧ r.intraArea = true := by
  constructor
  · rintro ⟨h, hintra, halgo⟩
    have hplain := plainRoutes_of_merged h halgo
    have hlevel : r.level = .level1 := by
      simp only [intraArea, Bool.and_eq_true, beq_iff_eq] at hintra
      exact hintra.1
    rw [hlevel] at hplain
    exact ⟨hplain, hintra⟩
  · rintro ⟨h, hintra⟩
    have halgo := (plainRoutes_level_algo h).2
    obtain ⟨r', hr', hle⟩ := merged_least_plain h
    rw [order_intraArea hintra halgo] at hle
    obtain ⟨hintra', halgo'⟩ := intraArea_of_order_le hle
    have hplain := plainRoutes_of_merged hr' halgo'
    have hlevel : r'.level = .level1 := by
      simp only [intraArea, Bool.and_eq_true, beq_iff_eq] at hintra'
      exact hintra'.1
    rw [hlevel, h] at hplain
    cases hplain
    exact ⟨hr', hintra, halgo⟩

end Merged

/-! ## The two sets -/

/-- Neither a default nor a prefix this node advertises itself. -/
def RoutingServer.carries (s : RoutingServer) (p : Prefix) : Bool :=
  !(p = defaultV4 ∨ p = defaultV6) && !s.ownAdvertised.contains p

/-- An L1L2 system. -/
def IsisServer.bothLevels (s : IsisServer) : Bool :=
  s.levelCap.has .level1 && s.levelCap.has .level2

theorem carries_iff : s.carries p = true ↔
    ¬(p = defaultV4 ∨ p = defaultV6) ∧ ¬ s.ownAdvertised.contains p = true := by
  simp [carries]

/-- **The export set** is read off the Level 1 computation of algorithm 0. -/
theorem lookup_l1ExportSet {m : UInt32} : (s.l1ExportSet (s.merged o now)).lookup p = some m ↔
    s.bothLevels = true ∧ s.carries p = true ∧
      ∃ r, (s.plainRoutes o now .level1).lookup p = some r ∧
      r.intraArea = true ∧ r.mt = false ∧ r.metric = m := by
  have hread : (s.l1ExportSet (s.merged o now)).lookup p = some m ↔
      s.bothLevels = true ∧ s.carries p = true ∧ ∃ r, ((s.merged o now).lookup p = some r ∧
        r.intraArea = true ∧ r.algo = 0) ∧ r.mt = false ∧ r.metric = m := by
    rw [carries_iff]
    unfold l1ExportSet IsisServer.bothLevels intraArea
    split
    · rename_i hnot
      have hboth : (s.levelCap.has .level1 && s.levelCap.has .level2) = false := by
        rw [Bool.and_eq_false_iff]
        simpa using hnot
      simp [hboth]
    · rename_i hboth
      have hboth : (s.levelCap.has .level1 && s.levelCap.has .level2) = true := by
        simpa using hboth
      rw [Map.lookup_filterMap]
      cases (s.merged o now).lookup p with
      | none => simp
      | some r =>
        grind
  rw [hread]
  constructor
  · rintro ⟨hboth, hcarries, r, hr, hmt, hm⟩
    obtain ⟨hplain, hintra⟩ := merged_intraArea_iff.mp hr
    exact ⟨hboth, hcarries, r, hplain, hintra, hmt, hm⟩
  · rintro ⟨hboth, hcarries, r, hplain, hintra, hmt, hm⟩
    exact ⟨hboth, hcarries, r, merged_intraArea_iff.mpr ⟨hplain, hintra⟩, hmt, hm⟩

/-- What a pass of `updateRIB` leaves for the Level 2 LSP, whether it kept the set or replaced
it. -/
theorem lookup_l1Export_updateRIB : (s.updateRIB o now).l1Export.lookup p =
    (s.l1ExportSet (s.merged o now)).lookup p := by
  show (if (s.l1ExportSet (s.merged o now)).equal s.l1Export = true then s.l1Export
    else s.l1ExportSet (s.merged o now)).lookup p = _
  split
  · rename_i heq
    exact (Map.equal_iff.mp heq p).symm
  · rfl

end Goisis.Server
