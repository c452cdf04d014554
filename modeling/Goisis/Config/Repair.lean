import Goisis.Config.Restart

/-!
# Repairing a reload

A reload a refusal left half way is meant to be repaired by the next signal: `Diff` derives the same
batch again and re-issues every call, and a call that already landed answers `ErrAlreadyInState`.
Here any set of calls and interface openings of the first attempt fails without effect, and the
second attempt meets no failure of its own.

What a first attempt can leave is one invariant (`Between`): every value the batch concerns is the
old file's, the new file's, or gone; everything else is untouched. Each call keeps it, failed or not
(`between_run`).

* `reload_repairs_iff` — the second attempt is refused nowhere and ends in what the new file
  describes, whatever failed in the first, **exactly when** the files are `Repairable`: a locator
  prefix is listed at most once or carries over untouched; no locator new to the file is bound to an
  algorithm whose definition changes; no withdrawn prefix is connected on an interface the new file
  names; and every interface it names admits an LSP;
* `connected_prefix_latches` — the smallest failure: withdrawing a prefix that is also connected
  succeeds once, and is refused for good ever after.
-/

namespace Goisis.ConfigFile

open Lib Packet Server List Managed Changes

variable {host : Host} {old next : Config} {o o' : NodeOptions} {p : Prefix} {algo : UInt8}
  {V : Type} {touched : Prop} {m m' : Managed} {cc : CircuitConfig} {s : NodeServer} {ch : Changes}

/-! ## What the files must not do -/

/-- The files a half applied reload between can always be repaired. -/
structure Repairable (host : Host) (next : Config) (o o' : NodeOptions) : Prop where
  locators : ∀ p, ((o.managed.listed p).length ≤ 1 ∧ (o'.managed.listed p).length ≤ 1) ∨
    (¬ Withdrawn o o' p ∧ (o.managed.listed p).Perm (o'.managed.listed p) ∧
      ∀ algo ∈ o.managed.listed p, ¬ Redefined o o' algo)
  fresh : ∀ p algo, o.managed.listed p = [] → (o'.managed.listed p).getLast? = some algo →
    ¬ Redefined o o' algo
  prefixes : ∀ p metric, o.managed.optionPrefixes.lookup p = some metric →
    o'.managed.optionPrefixes.lookup p ≠ some metric →
    ∀ cc ∈ next.circuits, p ∉ maskedSet (host.connectedPrefixes cc.interface)
  circuits : ∀ cc ∈ next.circuits, Wide host cc.interface

section Facts

variable (df : Diffed host old next o o' ch)

/-- A locator that stays is listed last by the new file too, for an algorithm that is kept. -/
theorem last_of_not_withdrawn (hw : ¬ Withdrawn o o' p)
    (hlast : (o.managed.listed p).getLast? = some algo) :
    (o'.managed.listed p).getLast? = some algo ∧ ¬ Redefined o o' algo := by
  refine ⟨?_, fun hr => hw ⟨algo, hlast, .inr hr⟩⟩
  by_contra hne
  exact hw ⟨algo, hlast, .inl hne⟩

include df

/-- What is announced without being withdrawn is new. -/
theorem fresh_of_announced (hann : Announced o o' p algo) (hw : ¬ Withdrawn o o' p) :
    o.managed.listed p = [] := by
  cases hlast : (o.managed.listed p).getLast? with
  | none => exact getLast?_eq_none_iff.mp hlast
  | some a =>
    exfalso
    obtain ⟨hnew, hkept⟩ := last_of_not_withdrawn hw hlast
    have ha : a = algo := Option.some.inj (hnew.symm.trans hann.1)
    subst ha
    rcases hann.2 with hne | hi
    · exact hne hlast
    · exact hkept (redefined_of_introduced df.before df.after (mem_of_getLast? hlast) hi)

variable (hrep : Repairable host next o o')

include hrep

omit df in
theorem Repairable.once_of_withdrawn (hw : Withdrawn o o' p) :
    (o.managed.listed p).length ≤ 1 ∧ (o'.managed.listed p).length ≤ 1 := by
  rcases hrep.locators p with hone | ⟨hnot, -⟩
  · exact hone
  · exact absurd hw hnot

/-- The new file lists what is to be announced, and nothing else. -/
theorem Repairable.listed_of_announced (hann : Announced o o' p algo) :
    o'.managed.listed p = [algo] := by
  have hne : o'.managed.listed p ≠ [] := by
    intro hnil
    have hlast := hann.1
    rw [hnil] at hlast
    cases hlast
  rcases hrep.locators p with ⟨-, hone⟩ | ⟨hw, hperm, -⟩
  · obtain ⟨a, ha⟩ := length_eq_one_iff.mp (le_antisymm hone (length_pos_iff.mpr hne))
    have hlast := hann.1
    rw [ha] at hlast
    have heq : a = algo := Option.some.inj hlast
    rw [ha, heq]
  · rw [fresh_of_announced df hann hw] at hperm
    exact absurd hperm.nil_eq.symm hne

end Facts

/-! ## What a first attempt can leave -/

/-- A value of the batch is the old file's, or, if the batch concerns it, gone or the new file's. -/
def Amid {V : Type} (touched : Prop) (gone old new cur : V) : Prop :=
  cur = old ∨ touched ∧ (cur = gone ∨ cur = new)

theorem Amid.gone {gone old new : V} (h : touched) : Amid touched gone old new gone :=
  .inr ⟨h, .inl rfl⟩

theorem Amid.new {gone old new : V} (h : touched) : Amid touched gone old new new :=
  .inr ⟨h, .inr rfl⟩

theorem Amid.ite {c : Prop} [Decidable c] {gone old new a b : V}
    (ha : c → Amid touched gone old new a) (hb : Amid touched gone old new b) :
    Amid touched gone old new (if c then a else b) := by
  split
  · exact ha ‹c›
  · exact hb

/-- A value is taken in where there is none. -/
theorem Amid.or {old new cur : Option V} (h : Amid touched none old new cur) (ht : touched) :
    Amid touched none old new (cur.or new) := by
  cases cur with
  | none => exact .new ht
  | some v => exact h

/-- A node a reload was interrupted on. -/
structure Between (o o' : NodeOptions) (ch : Changes) (m : Managed) : Prop where
  wellKept : m.WellKept
  listed : ∀ p, Amid (Withdrawn o o' p ∨ ∃ algo, Announced o o' p algo) []
    (o.managed.listed p) (o'.managed.listed p) (m.listed p)
  flexAlgo : ∀ algo, Amid (Redefined o o' algo ∨ Introduced o o' algo) none
    (o.managed.flexAlgo algo) (o'.managed.flexAlgo algo) (m.flexAlgo algo)
  prefixes : ∀ p, Amid (p ∈ ch.deletePrefixes ∨ p ∈ ch.addPrefixes.map (·.pfx)) none
    (o.managed.optionPrefixes.lookup p) (o'.managed.optionPrefixes.lookup p)
    (m.optionPrefixes.lookup p)
  circuit : ∀ name, Amid (name ∈ ch.dropped ∨ name ∈ ch.addCircuits.map (·.interface)) none
    (o.managed.circuit name) (o'.managed.circuit name) (m.circuit name)

section Keeps

/-- Of a locator to be withdrawn at most one listing is there. -/
theorem Between.tail_listed (h : Between o o' ch m) (hrep : Repairable host next o o')
    (hw : Withdrawn o o' p) : (m.listed p).tail = [] := by
  obtain ⟨hone, hone'⟩ := hrep.once_of_withdrawn hw
  refine eq_nil_of_length_eq_zero ?_
  rw [length_tail]
  rcases h.listed p with hold | ⟨-, hnil | hnew⟩
  · rw [hold]
    omega
  · rw [hnil]
    rfl
  · rw [hnew]
    omega

/-- What one attempt at adding a circuit does: nothing, or the file's circuit is taken in. -/
theorem add_ok {fails : Attempt → Bool} {again : Bool} (h : add host fails cc again m = .ok m') :
    ∃ cfg, cc.circuit host = .ok cfg ∧ m.circuit cc.interface = none ∧
      ∃ cursor, m' = m.takeIn cfg.withDefaults cursor := by
  unfold add at h
  cases hok : cc.circuit host with
  | error e =>
    rw [hok] at h
    cases h
  | ok cfg =>
    simp only [hok] at h
    split at h
    · cases h
    cases hadd : m.addCircuit cfg with
    | error e =>
      rw [hadd] at h
      cases h
    | ok m₁ =>
      rw [hadd] at h
      cases h
      obtain ⟨hnew, hcursor⟩ := addCircuit_ok hadd
      exact ⟨cfg, rfl, (circuit_eq_ok hok).1 ▸ hnew, hcursor⟩

/-- What a circuit can be left as: the node as it was, with the circuit deleted, or as an attempt at
adding it leaves either. -/
theorem addCircuit_keeps {P : Managed → Prop} (fails : Attempt → Bool) {ch : Changes} (h : P m)
    (hadd : ∀ m', add host fails cc false m = .ok m' → P m')
    (hdel : P (m.issue (m.deleteCircuit cc.interface)).1)
    (hagain : ∀ m', add host fails cc true (m.issue (m.deleteCircuit cc.interface)).1 =
      .ok m' → P m') :
    P (addCircuit host fails ch cc m).1 := by
  unfold Changes.addCircuit issueUnless
  cases hfirst : add host fails cc false m with
  | ok m' => exact hadd m' hfirst
  | error e =>
    simp only
    split
    · exact h
    cases fails (.deleteCircuit cc.interface) with
    | true => exact h
    | false =>
      simp only [Bool.false_eq_true, if_false]
      split
      · exact hdel
      cases hsecond : add host fails cc true (m.issue (m.deleteCircuit cc.interface)).1 with
      | ok m' => exact hagain m' hsecond
      | error e' => exact hdel

variable (df : Diffed host old next o o' ch)

include df

/-- Adding a circuit keeps the rest of the node, and leaves the circuit as it was, gone, or in the
file's shape. -/
theorem addCircuit_amid (fails : Attempt → Bool) (hcc : cc ∈ ch.addCircuits) (hm : m.WellKept) :
    let m' := (addCircuit host fails ch cc m).1
    m'.WellKept ∧ SameButCircuits m m' ∧ ∀ name, m'.circuit name = m.circuit name ∨
      name = cc.interface ∧
      (m'.circuit name = none ∨ m'.circuit name = o'.managed.circuit name) := by
  obtain ⟨cfg, -, hok, hname, hcfg⟩ := circuit_of_mem df.after ((mem_addCircuits df).mp hcc).1
  have htaken : ∀ {m₁ m₂ : Managed} {again}, m₁.WellKept → SameButCircuits m m₁ →
      (∀ name, m₁.circuit name = m.circuit name ∨ name = cc.interface) →
      add host fails cc again m₁ = .ok m₂ →
      m₂.WellKept ∧ SameButCircuits m m₂ ∧ ∀ name, m₂.circuit name = m.circuit name ∨
        name = cc.interface ∧
        (m₂.circuit name = none ∨ m₂.circuit name = o'.managed.circuit name) := by
    intro m₁ m₂ again hm₁ hsame hothers hadd
    obtain ⟨cfg', hok', hnew, cursor, rfl⟩ := add_ok hadd
    have heq : cfg' = cfg := Except.ok.inj (hok'.symm.trans hok)
    subst heq
    refine ⟨hm₁.takeIn (hname ▸ hnew) cursor, ⟨hsame.1, hsame.2.1, hsame.2.2⟩, fun n => ?_⟩
    have hcirc := circuit_takeIn (m := m₁) cfg'.withDefaults cursor n
    by_cases hn : n = cc.interface
    · refine .inr ⟨hn, .inr ?_⟩
      change _ = (m₁.circuit n).or (if n = cfg'.name then _ else _) at hcirc
      rw [hcirc, hn, hnew, hname, if_pos rfl, hcfg]
      rfl
    · left
      change _ = (m₁.circuit n).or (if n = cfg'.name then _ else _) at hcirc
      rw [hcirc, hname, if_neg hn, Option.or_none]
      exact (hothers n).resolve_right hn
  obtain ⟨hkept, hcircuit, -⟩ := issue_deleteCircuit cc.interface hm
  have hdeleted : ∀ n, (m.issue (m.deleteCircuit cc.interface)).1.circuit n = m.circuit n ∨
      n = cc.interface ∧ (m.issue (m.deleteCircuit cc.interface)).1.circuit n = none := by
    intro n
    rw [hcircuit]
    by_cases hn : n = cc.interface
    · rw [if_pos hn]
      exact .inr ⟨hn, rfl⟩
    · rw [if_neg hn]
      exact .inl rfl
  exact addCircuit_keeps (P := fun m' => m'.WellKept ∧ SameButCircuits m m' ∧ ∀ name,
      m'.circuit name = m.circuit name ∨ name = cc.interface ∧
        (m'.circuit name = none ∨ m'.circuit name = o'.managed.circuit name)) fails
    ⟨hm, ⟨rfl, rfl, rfl⟩, fun _ => .inl rfl⟩ (fun _ => htaken hm ⟨rfl, rfl, rfl⟩ fun _ => .inl rfl)
    ⟨hkept, sameButCircuits_deleteCircuit _, fun n => (hdeleted n).imp_right fun h =>
      ⟨h.1, .inl h.2⟩⟩
    fun _ => htaken hkept (sameButCircuits_deleteCircuit _) fun n => (hdeleted n).imp_right And.left

omit df in
/-- A call that may fail outside keeps what holds with it and without it. -/
theorem issueUnless_keeps (fails : Bool) {r : Except MutateError Managed} (h : Between o o' ch m)
    (hr : Between o o' ch (m.issue r).1) : Between o o' ch (issueUnless fails m r).1 := by
  cases fails with
  | false => exact hr
  | true => exact h

omit df in
theorem Between.circuits (h : Between o o' ch m) (hm' : m'.WellKept) (hsame : SameButCircuits m m')
    (hcircuit : ∀ name, m'.circuit name = m.circuit name ∨
      (name ∈ ch.dropped ∨ name ∈ ch.addCircuits.map (·.interface)) ∧
      (m'.circuit name = none ∨ m'.circuit name = o'.managed.circuit name)) :
    Between o o' ch m' := by
  refine ⟨hm', fun p => ?_, fun algo => ?_, fun p => ?_, fun name => ?_⟩
  · rw [listed_congr hsame.1]
    exact h.listed p
  · rw [flexAlgo_congr hsame.2.1]
    exact h.flexAlgo algo
  · rw [hsame.2.2]
    exact h.prefixes p
  · rcases hcircuit name with hkeep | hmoved
    · rw [hkeep]
      exact h.circuit name
    · exact .inr hmoved

/-- Every call about a locator fails. -/
def LocatorsFail (fails : Attempt → Bool) : Prop :=
  (∀ p, fails (.call (.deleteLocator p)) = true) ∧ ∀ lc, fails (.call (.addLocator lc)) = true

/-- **Every call of the batch keeps a node between the files**, failed or not, unless it lands on a
locator the reload cannot repair. -/
theorem between_run {fails : Attempt → Bool}
    (hrep : LocatorsFail fails ∨ Repairable host next o o') {c : Call} (hc : c ∈ ch.calls)
    (h : Between o o' ch m) : Between o o' ch (ch.run host fails c m).1 := by
  simp only [calls, mem_append, mem_map] at hc
  rcases hc with ⟨name, hname, rfl⟩ | ⟨p, hp, rfl⟩ | ⟨algo, halgo, rfl⟩ | ⟨d, hd, rfl⟩ |
    ⟨lc, hlc, rfl⟩ | ⟨p, hp, rfl⟩ | ⟨p, hp, rfl⟩ | ⟨cc, hcc, rfl⟩
  · -- a dropped circuit
    obtain ⟨hkept, hcircuit, -⟩ := issue_deleteCircuit name h.wellKept
    refine issueUnless_keeps _ h ?_
    refine h.circuits hkept (sameButCircuits_deleteCircuit name) fun name' => ?_
    rw [hcircuit]
    by_cases hn : name' = name
    · rw [if_pos hn]
      exact .inr ⟨.inl (hn ▸ hname), .inl rfl⟩
    · rw [if_neg hn]
      exact .inl rfl
  · -- a withdrawn locator: listed once in either file, so nothing of it is left
    have hw := (mem_deleteLocators df).mp hp
    rcases hrep with hfail | hrep
    · simpa only [run, issueUnless, hfail.1 p, if_true] using h
    refine issueUnless_keeps _ h ?_
    obtain ⟨l, hframe⟩ := issue_deleteLocator_frame (m := m) p
    have hlisted := (issue_deleteLocator (m := m) p).1
    rw [masked_deleteLocators df hp] at hlisted
    rw [hframe] at hlisted ⊢
    refine ⟨h.wellKept.of_eq h.wellKept.flexAlgos rfl rfl, fun p' => ?_, h.flexAlgo, h.prefixes,
      h.circuit⟩
    rw [hlisted]
    refine .ite (fun hp' => ?_) (h.listed p')
    rw [hp', h.tail_listed hrep hw]
    exact .gone (.inl hw)
  · -- a redefined algorithm
    have hr := (mem_deleteFlexAlgos df).mp halgo
    refine issueUnless_keeps _ h ?_
    obtain ⟨l, hframe⟩ := issue_deleteFlexAlgo_frame (m := m) algo
    obtain ⟨hnodup, hflex, -⟩ := issue_deleteFlexAlgo algo h.wellKept.flexAlgos
    rw [hframe] at hnodup hflex ⊢
    refine ⟨h.wellKept.of_eq hnodup rfl rfl, h.listed, fun a => ?_, h.prefixes, h.circuit⟩
    rw [hflex]
    refine .ite (fun ha => ?_) (h.flexAlgo a)
    split
    · exact h.flexAlgo a
    · exact .gone (.inl (ha ▸ hr))
  · -- a new definition
    obtain ⟨hd', hne⟩ := (mem_addFlexAlgos df).mp hd
    have hrange : ¬ d.algo < 128 := (valid_of_options df.after).flexAlgos d
      ((flexAlgo_managed (valid_of_options df.after)).mp hd').1
    refine issueUnless_keeps _ h ?_
    obtain ⟨l, hframe⟩ := issue_addFlexAlgo_frame (m := m) d
    obtain ⟨hnodup, hflex, -⟩ := issue_addFlexAlgo hrange h.wellKept.flexAlgos
    rw [hframe] at hnodup hflex ⊢
    refine ⟨h.wellKept.of_eq hnodup rfl rfl, h.listed, fun a => ?_, h.prefixes, h.circuit⟩
    rw [hflex]
    refine .ite (fun ha => ?_) (h.flexAlgo a)
    rw [ha, ← hd']
    exact (h.flexAlgo d.algo).or (.inr ⟨d, hd', hne⟩)
  · -- an announced locator
    have hann := (mem_addLocators df).mp hlc
    rcases hrep with hfail | hrep
    · simpa only [run, issueUnless, hfail.2 lc, if_true] using h
    refine issueUnless_keeps _ h ?_
    obtain ⟨l, hframe⟩ := issue_addLocator_frame (m := m) lc
    have hlisted := listed_issue_addLocator (m := m) lc
    rw [masked_addLocators df hlc] at hlisted
    rw [hframe] at hlisted ⊢
    refine ⟨h.wellKept.of_eq h.wellKept.flexAlgos rfl rfl, fun p' => ?_, h.flexAlgo, h.prefixes,
      h.circuit⟩
    rcases hlisted p' with hkeep | ⟨rfl, -, hnew⟩
    · rw [hkeep]
      exact h.listed p'
    · rw [hnew, ← hrep.listed_of_announced df hann]
      exact Amid.new (.inr ⟨lc.algo, hann⟩)
  · -- a withdrawn prefix
    obtain ⟨metric, hnamed, -⟩ := (mem_deletePrefixes df).mp hp
    refine issueUnless_keeps _ h ?_
    obtain ⟨l, hframe⟩ := issue_deletePrefix_frame (m := m) p
    have hlookup := (issue_deletePrefix (m := m) p).1
    rw [(check_of_named df.before hnamed).1] at hlookup
    rw [hframe] at hlookup ⊢
    refine ⟨h.wellKept.of_eq h.wellKept.flexAlgos rfl rfl, h.listed, h.flexAlgo, fun p' => ?_,
      h.circuit⟩
    rw [hlookup]
    exact .ite (fun hp' => .gone (.inl (hp' ▸ hp))) (h.prefixes p')
  · -- a named prefix
    obtain ⟨hnew, -⟩ := (mem_addPrefixes df).mp hp
    obtain ⟨hmasked, hcheck⟩ := check_of_named df.after hnew
    refine issueUnless_keeps _ h ?_
    obtain ⟨l, hframe⟩ := issue_addPrefix_frame (m := m) p
    have hlookup := (issue_addPrefix (m := m) hcheck).1
    rw [hmasked] at hlookup
    rw [hframe] at hlookup ⊢
    refine ⟨h.wellKept.of_eq h.wellKept.flexAlgos rfl rfl, h.listed, h.flexAlgo, fun p' => ?_,
      h.circuit⟩
    rw [hlookup]
    refine .ite (fun hp' => ?_) (h.prefixes p')
    rw [hp', ← hnew]
    exact (h.prefixes p.pfx).or (.inr (mem_map_of_mem hp))
  · -- an added or rebuilt circuit
    obtain ⟨hkept, hsame, hcircuit⟩ := addCircuit_amid df fails hcc h.wellKept
    refine h.circuits hkept hsame fun name => ?_
    rcases hcircuit name with hkeep | ⟨rfl, hmoved⟩
    · exact .inl hkeep
    · exact .inr ⟨.inr (mem_map_of_mem hcc), hmoved⟩

/-- Whatever fails, a first attempt leaves the node between the files. -/
theorem between_apply {fails : Attempt → Bool}
    (hrep : LocatorsFail fails ∨ Repairable host next o o') (h : Between o o' ch m) :
    Between o o' ch (ch.apply host fails m).1 :=
  runBatch_keeps (fun _ hc _ => between_run df hrep hc) h

end Keeps

/-! ## The second attempt -/

section Retry

variable (df : Diffed host old next o o' ch) (hs : newNodeServer o = .ok s)

include hs in
theorem between_start : Between o o' ch s.managed :=
  ⟨wellKept_start hs, fun p => .inl (listed_start hs p), fun algo => .inl (flexAlgo_start hs algo),
    fun p => .inl (by rw [prefixes_start hs]), fun name => .inl (circuit_start hs name)⟩

theorem not_redefined_of_eq (h : o'.managed.flexAlgo algo = o.managed.flexAlgo algo) :
    ¬ (Redefined o o' algo ∨ Introduced o o' algo) := by
  rintro (⟨d, hd, hne⟩ | ⟨d, hd, hne⟩)
  · exact hne (h.trans hd)
  · exact hne (h.symm.trans hd)

include df

theorem not_mem_prefixes_of_eq
    (h : o'.managed.optionPrefixes.lookup p = o.managed.optionPrefixes.lookup p) :
    ¬ (p ∈ ch.deletePrefixes ∨ p ∈ ch.addPrefixes.map (·.pfx)) := by
  rintro (hp | hp)
  · obtain ⟨metric, hold, hne⟩ := (mem_deletePrefixes df).mp hp
    exact hne (h.trans hold)
  · obtain ⟨q, hq, rfl⟩ := mem_map.mp hp
    obtain ⟨hnew, hne⟩ := (mem_addPrefixes df).mp hq
    exact hne (h.symm.trans hnew)

/-- A circuit in the new file's shape is one a batch can find. -/
theorem Diffed.placed (hwide : ∀ cc ∈ next.circuits, Wide host cc.interface)
    (hcfg : o'.managed.circuit name = some cfg) :
    name ∈ next.circuits.map (·.interface) ∧ OnInterface host name cfg ∧ Wide host name ∧
      (o'.managed.circuit name = some cfg ∨ ch.rebuilds name = true) := by
  obtain ⟨cc, hcc, rfl⟩ := mem_of_circuit df.after hcfg
  obtain ⟨cfg', -, hok, -, hcfg'⟩ := circuit_of_mem df.after hcc
  have heq : cfg'.withDefaults = cfg := Option.some.inj (hcfg'.symm.trans hcfg)
  exact ⟨mem_map_of_mem hcc, heq ▸ onInterface_of_circuit hok, hwide cc hcc, .inl hcfg⟩

include hs

/-- A node between the files is one a batch can start from. -/
theorem Between.settled (h : Between o o' ch m)
    (hwide : ∀ cc ∈ next.circuits, Wide host cc.interface) : Settled host next o o' ch m := by
  refine ⟨h.wellKept, fun algo heq => ?_, fun p heq => ?_, fun name hadd hdrop => ?_, ?_⟩
  · exact (h.flexAlgo algo).resolve_right fun ht => not_redefined_of_eq heq ht.1
  · exact (h.prefixes p).resolve_right fun ht => not_mem_prefixes_of_eq df heq ht.1
  · exact (h.circuit name).resolve_right fun ht => ht.1.elim hdrop hadd
  · intro name cfg hcfg hdrop
    rcases h.circuit name with hold | ⟨-, hgone | hnew⟩
    · rw [hold, ← circuit_start hs] at hcfg
      exact (settled_start hs df).circuit hcfg hdrop
    · rw [hgone] at hcfg
      cases hcfg
    · exact df.placed hwide (hnew.symm.trans hcfg)

variable (hrep : Repairable host next o o')

include hrep

omit df hs in
/-- Nothing of a withdrawn locator is left. -/
theorem Between.leftOver_withdrawn (h : Between o o' ch m) (hw : Withdrawn o o' p) :
    leftOver o o' m p = [] := by
  rw [leftOver, if_pos hw, h.tail_listed hrep hw]

omit hs in
/-- What is announced finds its prefix free, or itself. -/
theorem Between.leftOver_announced (h : Between o o' ch m) (hann : Announced o o' p algo) :
    leftOver o o' m p = [] ∨ leftOver o o' m p = [algo] := by
  by_cases hw : Withdrawn o o' p
  · exact .inl (h.leftOver_withdrawn hrep hw)
  rw [leftOver, if_neg hw]
  rcases h.listed p with hold | ⟨-, hnil | hnew⟩
  · exact .inl (hold.trans (fresh_of_announced df hann hw))
  · exact .inl hnil
  · exact .inr (hnew.trans (hrep.listed_of_announced df hann))

omit hs in
/-- After the withdrawals no locator is bound to a redefined algorithm. -/
theorem Between.not_stuck (h : Between o o' ch m) (hr : Redefined o o' algo) :
    ¬ Stuck o o' m algo := by
  rintro ⟨p, hp⟩
  by_cases hw : Withdrawn o o' p
  · rw [h.leftOver_withdrawn hrep hw] at hp
    cases hp
  by_cases hex : ∃ a, Announced o o' p a
  · obtain ⟨a, hann⟩ := hex
    rcases h.leftOver_announced df hrep hann with hnil | hsingle
    · rw [hnil] at hp
      cases hp
    · rw [hsingle, mem_singleton] at hp
      subst hp
      exact hrep.fresh p algo (fresh_of_announced df hann hw) hann.1 hr
  · have hold : m.listed p = o.managed.listed p :=
      (h.listed p).resolve_right fun ht => ht.1.elim hw hex
    rw [leftOver, if_neg hw, hold] at hp
    rcases hrep.locators p with ⟨hone, -⟩ | ⟨-, -, hkept⟩
    · obtain ⟨a, ha⟩ := length_eq_one_iff.mp
        (le_antisymm hone (length_pos_iff.mpr (ne_nil_of_mem hp)))
      rw [ha, mem_singleton] at hp
      subst hp
      exact (last_of_not_withdrawn hw (by rw [ha]; rfl)).2 hr
    · exact hkept algo hp hr

/-- **A second attempt repairs the first**: from any node between the files it is refused nowhere
and ends in what the new file describes. -/
theorem Between.repaired (h : Between o o' ch m) :
    (ch.apply host never m).2 = [] ∧ (ch.apply host never m).1.Alike o'.managed := by
  have hsettled := h.settled df hs hrep.circuits
  have hO := apply_eq df hsettled
  have hnil : (ch.apply host never m).2 = [] := by
    refine hO.refused.mpr ⟨fun algo hr => .inr (h.not_stuck df hrep hr), fun algo hi => ?_,
      fun p algo hann => ?_, fun p hp => .inr ?_, fun p hp => ?_,
      fun cc hcc => .inr (hrep.circuits cc ((mem_addCircuits df).mp hcc).1)⟩
    · rw [keptFlexAlgo]
      by_cases hr : Redefined o o' algo
      · rw [if_pos ⟨hr, h.not_stuck df hrep hr⟩]
        exact .inl rfl
      rw [if_neg fun hh => hr hh.1]
      rcases h.flexAlgo algo with hold | ⟨-, hnone | hnew⟩
      · left
        rw [hold]
        obtain ⟨d, hd, hne⟩ := hi
        cases hcur : o.managed.flexAlgo algo with
        | none => rfl
        | some d' => exact absurd ⟨d', hcur, fun hh => hne (hcur.trans (hh.symm.trans hd))⟩ hr
      · exact .inl hnone
      · exact .inr hnew
    · rcases h.leftOver_announced df hrep hann with hnil | hsingle
      · exact .inl hnil
      · rw [hsingle]
        exact .inr rfl
    · rintro ⟨name, hrun, hdrop, hconn⟩
      obtain ⟨cfg, hcfg⟩ := Option.ne_none_iff_exists'.mp hrun
      obtain ⟨cc, hcc, rfl⟩ := mem_map.mp (hsettled.circuit hcfg hdrop).1
      obtain ⟨metric, hold, hne⟩ := (mem_deletePrefixes df).mp hp
      exact hrep.prefixes p metric hold hne cc hcc hconn
    · rw [keptPrefix]
      by_cases hdel : p.pfx ∈ ch.deletePrefixes
      · rw [if_pos hdel]
        exact .inl rfl
      rw [if_neg hdel]
      obtain ⟨hnew, hne⟩ := (mem_addPrefixes df).mp hp
      rcases h.prefixes p.pfx with hold | ⟨-, hnone | hcur⟩
      · left
        rw [hold]
        cases hcur : o.managed.optionPrefixes.lookup p.pfx with
        | none => rfl
        | some metric =>
          exact absurd ((mem_deletePrefixes df).mpr
            ⟨metric, hcur, fun hh => hne (hcur.trans (hh.symm.trans hnew))⟩) hdel
      · exact .inl hnone
      · exact .inr (hcur.trans hnew)
  refine ⟨hnil, (hO.alike_iff df hsettled hnil).mpr fun p => ?_⟩
  by_cases hex : ∃ algo, Announced o o' p algo
  · obtain ⟨algo, hann⟩ := hex
    rw [hO.announced p algo hann, hrep.listed_of_announced df hann]
    rcases h.leftOver_announced df hrep hann with hleft | hleft
    · rw [if_pos hleft]
    · rw [hleft, if_neg (cons_ne_nil _ _)]
  · rw [not_exists] at hex
    rw [hO.quiet p hex]
    by_cases hw : Withdrawn o o' p
    · obtain ⟨hone, -⟩ := hrep.once_of_withdrawn hw
      have hgone : leftOver o o' o.managed p = [] := by
        rw [leftOver, if_pos hw]
        refine eq_nil_of_length_eq_zero ?_
        rw [length_tail]
        omega
      rw [h.leftOver_withdrawn hrep hw, listed_eq_nil df hgone hex]
    · have hold : m.listed p = o.managed.listed p :=
        (h.listed p).resolve_right fun ht => ht.1.elim hw fun ha => ha.elim hex
      have hleft : leftOver o o' m p = leftOver o o' o.managed p := by
        rw [leftOver, leftOver, hold]
      rcases hrep.locators p with ⟨hone, hone'⟩ | ⟨-, hperm, -⟩
      · exact perm_once df hone hone' (fun algo hann => absurd hann (hex algo)) fun _ => hleft
      · rw [hleft, leftOver, if_neg hw]
        exact hperm

end Retry

/-! ## First attempts that tell -/

/-- Everything fails. -/
def always : Attempt → Bool := fun _ => true

theorem apply_always (host : Host) (ch : Changes) (m : Managed) :
    (ch.apply host always m).1 = m := by
  refine runBatch_keeps (P := fun s => s = m) (fun c _ s hs => ?_) rfl
  subst hs
  cases c with
  | addCircuit cc =>
    have hadd : ∃ e, Changes.add host always cc false s = .error e ∧ e.alreadyInState = false := by
      unfold Changes.add
      cases cc.circuit host with
      | error e => exact ⟨_, rfl, rfl⟩
      | ok cfg => exact ⟨_, rfl, rfl⟩
    obtain ⟨e, hadd, he⟩ := hadd
    simp only [Changes.run, Changes.addCircuit, hadd, he, Bool.false_or]
    split
    · rfl
    · rfl
  | _ => rfl

/-- The calls about locators and algorithms fail, and so does naming a prefix. -/
def allButCircuits : Attempt → Bool
  | .call (.deleteLocator _) => true
  | .call (.deleteFlexAlgo _) => true
  | .call (.addFlexAlgo _) => true
  | .call (.addLocator _) => true
  | .call (.addPrefix _) => true
  | _ => false

section Tell

variable (df : Diffed host old next o o' ch) (hs : newNodeServer o = .ok s)

include df hs

/-- A first attempt of which only the circuits and the withdrawals of prefixes land. -/
theorem apply_allButCircuits (hwide : ∀ cc ∈ next.circuits, Wide host cc.interface) :
    let m := (ch.apply host allButCircuits s.managed).1
    Between o o' ch m ∧
      (∀ p ∈ ch.deletePrefixes, m.optionPrefixes.lookup p = none) ∧
      ∀ cc ∈ next.circuits, m.circuit cc.interface ≠ none := by
  -- the groups of calls that land run as undisturbed, the others leave the node alone
  have hland : ∀ {X : Type} (f : X → Call) (xs : List X),
      (∀ x m, ch.run host allButCircuits (f x) m = ch.run host never (f x) m) → ∀ m,
      runBatch (ch.run host allButCircuits) (xs.map f) m =
        runBatch (ch.run host never) (xs.map f) m := by
    intro X f xs h m
    refine runBatch_congr (fun c hc m => ?_) m
    obtain ⟨x, -, rfl⟩ := mem_map.mp hc
    exact h x m
  have hfail : ∀ {X : Type} (f : X → Call) (xs : List X),
      (∀ x m, (ch.run host allButCircuits (f x) m).1 = m) → ∀ m,
      (runBatch (ch.run host allButCircuits) (xs.map f) m).1 = m := by
    intro X f xs h m
    refine runBatch_keeps (P := fun m' => m' = m) (fun c hc m' hm' => ?_) rfl
    obtain ⟨x, -, rfl⟩ := mem_map.mp hc
    rw [h x, hm']
  have hsettled := settled_start hs df
  obtain ⟨r1, hr1, -, hkept1, ⟨cs, ps, hf1⟩, hcirc1⟩ := run_dropped df (wellKept_start hs)
  obtain ⟨r6, hr6, -, ⟨l6, hf6⟩, hlookup6⟩ := run_deletePrefixes df r1.1
  have hcirc6 : ∀ name, r6.1.circuit name =
      if name ∈ ch.dropped then none else s.managed.circuit name := by
    intro name
    rw [← hcirc1, hf6]
    rfl
  have hkept6 : r6.1.WellKept := by
    rw [hf6]
    exact hkept1.of_eq hkept1.flexAlgos rfl rfl
  obtain ⟨r8, hr8, -, -, hsame8, hcirc8⟩ := run_addCircuits df (hsettled.running hkept6 hcirc6)
  have hadd : ∀ cc m, ch.addCircuit host allButCircuits cc m = ch.addCircuit host never cc m := by
    intro cc m
    have hopen : add host allButCircuits = add host never := rfl
    have hdelete : allButCircuits (.deleteCircuit cc.interface) =
        never (.deleteCircuit cc.interface) := rfl
    unfold Changes.addCircuit
    rw [hopen, hdelete]
  have happly : (ch.apply host allButCircuits s.managed).1 = r8.1 := by
    simp only [apply, calls, runBatch_append]
    rw [hland .deleteCircuit _ (fun _ _ => rfl), hfail .deleteLocator _ (fun _ _ => rfl),
      hfail .deleteFlexAlgo _ (fun _ _ => rfl), hfail .addFlexAlgo _ (fun _ _ => rfl),
      hfail .addLocator _ (fun _ _ => rfl), hland .deletePrefix _ (fun _ _ => rfl),
      hfail .addPrefix _ (fun _ _ => rfl), hland .addCircuit _ hadd, hr1, hr6, hr8]
  refine ⟨between_apply df (.inl ⟨fun _ => rfl, fun _ => rfl⟩) (between_start hs), ?_⟩
  rw [happly]
  refine ⟨fun p hp => by rw [hsame8.2.2, hlookup6, if_pos hp], fun cc hcc => ?_⟩
  obtain ⟨cfg, -, -, -, hcfg⟩ := circuit_of_mem df.after hcc
  have hshape : r8.1.circuit cc.interface = o'.managed.circuit cc.interface := by
    rw [hcirc8]
    by_cases hname : cc.interface ∈ ch.addCircuits.map (·.interface)
    · rw [if_pos ⟨hname, .inr (hwide cc hcc)⟩]
    have hdrop : cc.interface ∉ ch.dropped := fun hdrop =>
      ((mem_dropped df).mp hdrop).2 (mem_map_of_mem hcc)
    rw [if_neg fun h => hname h.1, hcirc6, if_neg hdrop, circuit_start hs,
      circuit_eq_of_untouched df hname hdrop]
  rw [hshape, hcfg]
  exact Option.some_ne_none _

/-- After a first attempt that was refused nowhere, the batch can be issued once more. -/
theorem settled_applied {r : Managed × List ReloadError} (hO : Outcome host o o' ch s.managed r)
    (hnil : r.2 = []) (hwide : ∀ cc ∈ next.circuits, Wide host cc.interface) :
    Settled host next o o' ch r.1 := by
  have hsettled := settled_start hs df
  refine ⟨hO.wellKept, fun algo heq => ?_, fun p heq => ?_, fun name hadd hdrop => ?_, ?_⟩
  · rw [hO.flexAlgo_eq hsettled hnil, heq]
  · rw [hO.prefixes_eq df hsettled hnil, heq]
  · rw [hO.circuits_eq df hsettled hnil, circuit_eq_of_untouched df hadd hdrop]
  · intro name cfg hcfg _
    exact df.placed hwide ((hO.circuits_eq df hsettled hnil name).symm.trans hcfg)

/-- Issued twice from a start, the batch must not be refused over a new locator: its algorithm is
not one whose definition changes. -/
theorem fresh_of_twice (hwide : ∀ cc ∈ next.circuits, Wide host cc.interface)
    (hfirst : (ch.apply host never s.managed).2 = [])
    (htwice : (ch.apply host never (ch.apply host never s.managed).1).2 = [])
    (hnil : o.managed.listed p = []) (hlast : (o'.managed.listed p).getLast? = some algo) :
    ¬ Redefined o o' algo := by
  intro hr
  have hO := apply_eq df (settled_start hs df)
  have hO' := apply_eq df (settled_applied df hs hO hfirst hwide)
  have hw : ¬ Withdrawn o o' p := by
    rintro ⟨a, ha, -⟩
    rw [hnil] at ha
    cases ha
  have hann : Announced o o' p algo :=
    ⟨hlast, .inl (by rw [hnil]; exact (Option.some_ne_none algo).symm)⟩
  -- the first attempt announced it, and the second does not withdraw it
  have hone : (ch.apply host never s.managed).1.listed p = [algo] := by
    have hleft : leftOver o o' s.managed p = [] := by
      rw [leftOver_start hs, leftOver, if_neg hw, hnil]
    rw [hO.announced p algo hann, if_pos hleft]
  have hstuck : Stuck o o' (ch.apply host never s.managed).1 algo := by
    refine ⟨p, ?_⟩
    rw [leftOver, if_neg hw, hone]
    exact mem_singleton_self algo
  rcases (hO'.refused.mp htwice).1 algo hr with hnone | hfree
  · rw [hO.flexAlgo_eq (settled_start hs df) hfirst] at hnone
    obtain ⟨d, hd, -⟩ := introduced_of_redefined df (mem_of_getLast? hlast) hr
    rw [hnone] at hd
    cases hd
  · exact hfree hstuck

/-- Issued twice from a start, the batch must not move a locator listed twice: the second time it
takes one more. -/
theorem last_of_twice (hwide : ∀ cc ∈ next.circuits, Wide host cc.interface)
    (hfirst : (ch.apply host never s.managed).2 = [])
    (htwice : (ch.apply host never (ch.apply host never s.managed).1).2 = [])
    (halike : (ch.apply host never (ch.apply host never s.managed).1).1.Alike o'.managed)
    (hne : o'.managed.listed p ≠ []) (hperm : (o.managed.listed p).tail.Perm (o'.managed.listed p))
    (hhead : (o.managed.listed p).tail.head? = (o'.managed.listed p).getLast?) :
    (o.managed.listed p).getLast? = (o'.managed.listed p).getLast? := by
  by_contra hother
  have hsettled := settled_start hs df
  have hO := apply_eq df hsettled
  have hsettled' := settled_applied df hs hO hfirst hwide
  have hO' := apply_eq df hsettled'
  obtain ⟨algo, hlast⟩ := Option.isSome_iff_exists.mp (getLast?_isSome.mpr hne)
  obtain ⟨x, l, hl⟩ : ∃ x l, o.managed.listed p = x :: l := by
    refine exists_cons_of_ne_nil fun hnil => ?_
    rw [hnil] at hperm
    exact hne hperm.symm.eq_nil
  rw [hl, tail_cons] at hperm hhead
  have hleft : l ≠ [] := fun hnil => hne (hnil ▸ hperm).symm.eq_nil
  obtain ⟨a, ha⟩ := Option.isSome_iff_exists.mp (getLast?_isSome.mpr (hl ▸ cons_ne_nil x l))
  have hw : Withdrawn o o' p := ⟨a, ha, .inl fun h => hother (ha.trans h.symm)⟩
  have hann : Announced o o' p algo := ⟨hlast, .inl (hlast ▸ hother)⟩
  have hone : (ch.apply host never s.managed).1.listed p = l := by
    have hrest : leftOver o o' o.managed p = l := by rw [leftOver, if_pos hw, hl, tail_cons]
    rw [hO.announced p algo hann, leftOver_start hs, hrest, if_neg hleft]
  have hlen := ((hO'.alike_iff df hsettled' htwice).mp halike p).length_eq
  rw [hO'.announced p algo hann, leftOver, if_pos hw, hone, ← hperm.length_eq] at hlen
  obtain ⟨y, l', rfl⟩ := exists_cons_of_ne_nil hleft
  cases l' with
  | nil =>
    -- one listing is left, the announced one: then it was listed last before, too
    exact hother (by rw [hl, ← hhead]; rfl)
  | cons z l' =>
    simp at hlen

end Tell

/-! ## The criterion -/

/-- **A half applied reload is repaired by the next one exactly when the files are `Repairable`**:
for a daemon started on the old file and a new file `Diff` accepts, the second attempt is refused
nowhere and ends in what the new file describes after every set of failures of the first if and only
if no locator prefix listed twice has to move, no locator new to the file is bound to an algorithm
whose definition changes, no withdrawn prefix is connected on an interface the new file names, and
every interface it names admits an LSP. -/
theorem reload_repairs_iff {host : Host} {old next : Config} {o : NodeOptions} {s : NodeServer}
    {ch : Changes} (ho : old.options host = .ok o) (hs : newNodeServer o = .ok s)
    (hdiff : diff host old next = .ok ch) :
    ∃ o', next.options host = .ok o' ∧
      ((∀ fails, (ch.apply host never (ch.apply host fails s.managed).1).2 = [] ∧
        (ch.apply host never (ch.apply host fails s.managed).1).1.Alike o'.managed) ↔
      Repairable host next o o') := by
  obtain ⟨o', df⟩ := (diff_eq_ok ho).mp hdiff
  refine ⟨o', df.after, fun h => ?_, fun hrep fails => ?_⟩
  · -- when everything fails, the second attempt is a first one
    have hnone := h always
    rw [apply_always] at hnone
    obtain ⟨hcarry, hwide⟩ := (apply_start_iff df hs).mp hnone
    obtain ⟨htwice, halike⟩ := h never
    refine ⟨fun p => ?_, fun p algo hnil hlast =>
      fresh_of_twice df hs hwide hnone.1 htwice hnil hlast,
        fun p metric hold hne cc hcc hconn => ?_,
      hwide⟩
    · rcases hcarry p with hone | ⟨hne, hkept, ⟨hperm, hsame⟩ | ⟨hperm, hother, hhead⟩⟩
      · exact .inl hone
      · refine .inr ⟨?_, hperm, fun algo hmem => hkept algo (hperm.mem_iff.mp hmem)⟩
        rintro ⟨a, ha, hcause⟩
        rw [hsame] at ha
        exact hcause.elim (fun h => h ha) (hkept a (mem_of_getLast? ha))
      · exact absurd (last_of_twice df hs hwide hnone.1 htwice halike hne hperm hhead) hother
    · obtain ⟨hbetween, hgone, hrun⟩ := apply_allButCircuits df hs hwide
      have hO := apply_eq df (hbetween.settled df hs hwide)
      have hp : p ∈ ch.deletePrefixes :=
        (mem_deletePrefixes df).mpr ⟨metric, hold, hne⟩
      obtain ⟨-, -, -, hrefused, -⟩ := hO.refused.mp (h allButCircuits).1
      rcases hrefused p hp with hnamed | hfree
      · exact hnamed (hgone p hp)
      · refine hfree ⟨cc.interface, hrun cc hcc, fun hdrop => ?_, hconn⟩
        exact ((mem_dropped df).mp hdrop).2 (mem_map_of_mem hcc)
  · exact (between_apply df (.inr hrep) (between_start hs)).repaired df hs hrep

/-! ## A prefix that is connected, too -/

/-- A box with the prefix on `eth0`. -/
def wiredBox : Host :=
  { bareBox with connectedPrefixes := fun name => if name = "eth0" then [officePrefix.val] else [] }

/-- A file with the given prefixes and interfaces. -/
def fileOn (prefixes : List PrefixConfig) (interfaces : List String) : Config :=
  { fileWith [] with
    circuits := interfaces.map fun name => { interface := name }
    prefixes := prefixes }

/-- `eth1` cannot be opened. -/
def eth1Missing : Attempt → Bool
  | .openCircuit name _ => name == "eth1"
  | _ => false

/-- What a daemon started on one file reports on three signals with another, of which the first
finds an interface missing. -/
def threeSignals (host : Host) (old next : Config) (fails : Attempt → Bool) :
    Option (List (List ReloadError)) :=
  (started host old).bind fun s => (diff host old next).toOption.map fun ch =>
    let first := ch.apply host fails s.managed
    let second := ch.apply host never first.1
    let third := ch.apply host never second.1
    [first.2, second.2, third.2]

/-- **A reload latches on its own success**: the file withdraws a prefix that `eth0` also has
connected and adds `eth1`, which is missing at the first signal. From the second signal on
everything has been applied, and the withdrawal that already landed is refused each time. -/
theorem connected_prefix_latches :
    threeSignals wiredBox (fileOn [⟨officePrefix, 0⟩] ["eth0"]) (fileOn [] ["eth0", "eth1"])
        eth1Missing =
      some [[.external], [.server (.prefixConnected officePrefix.val "eth0")],
        [.server (.prefixConnected officePrefix.val "eth0")]] := by
  decide +kernel

/-- Both sides of the criterion, at a reload that changes something of every kind. -/
theorem reload_repairs_busyFile :
    ∃ o s ch o', (busyFile 1 10).options bareBox = .ok o ∧ newNodeServer o = .ok s ∧
      diff bareBox (busyFile 1 10) (busyFile 2 20) = .ok ch ∧
      (busyFile 2 20).options bareBox = .ok o' ∧ Repairable bareBox (busyFile 2 20) o o' ∧
      ∀ fails, (ch.apply bareBox never (ch.apply bareBox fails s.managed).1).2 = [] ∧
        (ch.apply bareBox never (ch.apply bareBox fails s.managed).1).1.Alike o'.managed := by
  have hold : (started bareBox (busyFile 1 10)).isSome = true := by decide +kernel
  obtain ⟨s, hs⟩ := Option.isSome_iff_exists.mp hold
  obtain ⟨o, ho, hs⟩ := started_eq_some.mp hs
  obtain ⟨ch, hch, -⟩ := Option.map_eq_some_iff.mp diff_busyFile
  have hdiff := toOption_eq_some.mp hch
  obtain ⟨o', ho', hiff⟩ := reload_repairs_iff ho hs hdiff
  have hrep : Repairable bareBox (busyFile 2 20) o o' := by
    refine ⟨fun p => .inl ⟨listed_busyFile ho p, listed_busyFile ho' p⟩,
      fun p algo hnil hlast => ?_, fun p metric _ _ cc _ hconn => absurd hconn not_mem_nil,
        fun cc _ => ?_⟩
    · -- both files list the same locators
      have hlocators := (locators_busyFile ho').trans (locators_busyFile ho).symm
      have hsame : o'.managed.listed p = o.managed.listed p :=
        congrArg (fun l => listing (fun lc : SRv6LocatorConfig => lc.pfx.masked) (·.algo) l p)
          hlocators
      rw [hsame, hnil] at hlast
      cases hlast
    · show (512 : Int) ≤ 1500 - 3
      decide
  exact ⟨o, s, ch, o', ho, hs, hdiff, ho', hrep, hiff.mpr hrep⟩

end Goisis.ConfigFile
