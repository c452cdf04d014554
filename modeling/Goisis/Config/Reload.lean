import Goisis.Config.File

/-!
# Reload

Model of `pkg/config/reload.go`: `Diff` compares two files and lists the calls that take a daemon
from one to the other (`Changes`), `apply` issues them in a fixed order and reports what the server
refuses, and `addCircuit` rebuilds a circuit whose definition changed around a first attempt at
adding it.

What may go wrong outside the server is an arbitrary set of `Attempt`s that fail without effect:
any call, any opening of an interface. `Ignored`, the keys left to a restart, is only reported and
left out.

* `diff_eq_ok` — `Diff` accepts what `Options` accepts;
* `mem_deleteLocators`, `mem_addFlexAlgos`, … — the calls in terms of what both files describe.
-/

namespace Goisis.ConfigFile

open Lib Packet Server List Map

variable {d : Server.FlexAlgoConfig} {o : NodeOptions} {algo : UInt8} {p : Prefix}
  {lc : SRv6LocatorConfig} {cc : CircuitConfig}

/-! ## The difference -/

/-- `Changes`, in the order `apply` issues them. -/
structure Changes where
  deleteCircuits : List String
  deleteLocators : List Prefix
  deleteFlexAlgos : List UInt8
  addFlexAlgos : List Server.FlexAlgoConfig
  addLocators : List SRv6LocatorConfig
  deletePrefixes : List Prefix
  addPrefixes : List AdvertisedPrefix
  addCircuits : List CircuitConfig

/-- `prefixSet(c)`. -/
def Config.prefixSet (c : Config) : Map Prefix UInt32 :=
  ofList (c.prefixConfigs.map fun p => (p.pfx.masked, p.metric))

/-- `locatorSet(c)`. -/
def Config.locatorSet (c : Config) : Map Prefix UInt8 :=
  ofList (c.locatorConfigs.map fun lc => (lc.pfx.masked, lc.algo))

/-- `flexAlgoSet(c)`. -/
def Config.flexAlgoSet (c : Config) : Except FileError (Map UInt8 Server.FlexAlgoConfig) := do
  let algos ← c.flexAlgo.mapM (·.definition)
  return ofList (algos.map fun d => (d.algo, d))

/-- The loop `Diff` runs over each set: the entries of `a` that `b` does not have unchanged, and
those that have to move with something else. -/
def changed {K V : Type} [DecidableEq K] [DecidableEq V] (a b : Map K V) (moves : V → Bool) :
    Map K V :=
  a.filterMap fun k v => if b.lookup k = some v ∧ moves v = false then none else some v

/-- The additions of `circuitChanges(old, next)`. `reflect.DeepEqual` also tells a nil slice of a
circuit from an empty one; here both are `[]`. -/
def addedCircuits (old next : Config) : List CircuitConfig :=
  let before := ofList (old.circuits.map fun cc => (cc.interface, cc))
  next.circuits.filter fun cc => before.lookup cc.interface ≠ some cc

/-- The deletions of `circuitChanges(old, next)`: the changed circuits, then the dropped ones. -/
def deletedCircuits (old next : Config) : List String :=
  let before := ofList (old.circuits.map fun cc => (cc.interface, cc))
  ((next.circuits.filter fun cc =>
      (before.lookup cc.interface).isSome ∧ before.lookup cc.interface ≠ some cc).map
      (·.interface)) ++
    (old.circuits.filter fun cc => !(next.circuits.map (·.interface)).contains cc.interface).map
      (·.interface)

/-- The calls between two files, given their Flexible Algorithms. -/
def changes (old next : Config) (oldAlgos newAlgos : Map UInt8 Server.FlexAlgoConfig) : Changes :=
  let deleteFlexAlgos := (changed oldAlgos newAlgos fun _ => false).sortedKeys (· ≤ ·)
  let addFlexAlgos := ((changed newAlgos oldAlgos fun _ => false).sorted (· ≤ ·)).map (·.2)
  { deleteCircuits := deletedCircuits old next
    deleteLocators := (changed old.locatorSet next.locatorSet fun algo =>
      deleteFlexAlgos.contains algo).sortedKeys prefixLE
    deleteFlexAlgos := deleteFlexAlgos
    addFlexAlgos := addFlexAlgos
    addLocators := ((changed next.locatorSet old.locatorSet fun algo =>
      (addFlexAlgos.map (·.algo)).contains algo).sorted prefixLE).map fun e => ⟨e.1, e.2⟩
    deletePrefixes := (changed old.prefixSet next.prefixSet fun _ => false).sortedKeys prefixLE
    addPrefixes := ((changed next.prefixSet old.prefixSet fun _ => false).sorted prefixLE).map
      fun e => ⟨e.1, e.2⟩
    addCircuits := addedCircuits old next }

/-- `Diff(old, next)`. -/
def diff (host : Host) (old next : Config) : Except FileError Changes := do
  let _ ← next.options host.probe
  let oldAlgos ← old.flexAlgoSet
  let newAlgos ← next.flexAlgoSet
  return changes old next oldAlgos newAlgos

/-! ## Applying it -/

/-- One call of the batch. -/
inductive Call where
  | deleteCircuit (name : String)
  | deleteLocator (p : Prefix)
  | deleteFlexAlgo (algo : UInt8)
  | addFlexAlgo (fa : Server.FlexAlgoConfig)
  | addLocator (lc : SRv6LocatorConfig)
  | deletePrefix (p : Prefix)
  | addPrefix (p : AdvertisedPrefix)
  | addCircuit (cc : CircuitConfig)

/-- What can fail outside the server: a call of the batch, and of `addCircuit` each opening of the
interface, each addition and the deletion between them. -/
inductive Attempt where
  | call (c : Call)
  | openCircuit (interface : String) (again : Bool)
  | addCircuit (interface : String) (again : Bool)
  | deleteCircuit (interface : String)

/-- What a call is reported with. -/
inductive ReloadError where
  | file (e : FileError)
  | server (e : MutateError)
  | external
deriving DecidableEq, Repr

/-- `errors.Is(err, server.ErrAlreadyInState)`. -/
def ReloadError.alreadyInState : ReloadError → Bool
  | .server e => e.alreadyInState
  | _ => false

/-- What `apply` reports of an error. -/
def ReloadError.reported (e : ReloadError) : Option ReloadError :=
  if e.alreadyInState then none else some e

/-- A call to the server, unless it fails outside it. -/
def issueUnless (fails : Bool) (m : Managed) (r : Except MutateError Managed) :
    Managed × Option ReloadError :=
  if fails then (m, some .external) else ((m.issue r).1, (m.issue r).2.map .server)

namespace Changes

/-- `rebuilds(name)`. -/
def rebuilds (ch : Changes) (name : String) : Bool :=
  ch.deleteCircuits.contains name && (ch.addCircuits.map (·.interface)).contains name

section Apply

variable (host : Host) (fails : Attempt → Bool)

/-- The closure `add` of `addCircuit`. -/
def add (cc : CircuitConfig) (again : Bool) (m : Managed) : Except ReloadError Managed :=
  match cc.circuit host with
  | .error e => .error (.file e)
  | .ok cfg =>
    if fails (.openCircuit cc.interface again) || fails (.addCircuit cc.interface again) then
      .error .external
    else
      match m.addCircuit cfg with
      | .error e => .error (.server e)
      | .ok m' => .ok m'

variable (ch : Changes)

/-- `addCircuit(cc)`, with what `apply` reports of it. -/
def addCircuit (cc : CircuitConfig) (m : Managed) : Managed × Option ReloadError :=
  match add host fails cc false m with
  | .ok m' => (m', none)
  | .error e =>
    if e.alreadyInState || !ch.rebuilds cc.interface then (m, e.reported)
    else
      let deleted :=
        issueUnless (fails (.deleteCircuit cc.interface)) m (m.deleteCircuit cc.interface)
      if deleted.2.isSome then deleted
      else
        match add host fails cc true deleted.1 with
        | .ok m' => (m', none)
        | .error e => (deleted.1, e.reported)

/-- One step of `apply`. -/
def run (c : Call) (m : Managed) : Managed × Option ReloadError :=
  match c with
  | .deleteCircuit name => issueUnless (fails (.call c)) m (m.deleteCircuit name)
  | .deleteLocator p => issueUnless (fails (.call c)) m (m.deleteLocator p)
  | .deleteFlexAlgo algo => issueUnless (fails (.call c)) m (m.deleteFlexAlgo algo)
  | .addFlexAlgo fa => issueUnless (fails (.call c)) m (m.addFlexAlgo fa)
  | .addLocator lc => issueUnless (fails (.call c)) m (m.addLocator lc)
  | .deletePrefix p => issueUnless (fails (.call c)) m (m.deletePrefix p)
  | .addPrefix p => issueUnless (fails (.call c)) m (m.addPrefix p)
  | .addCircuit cc => addCircuit host fails ch cc m

/-- The dropped circuits: those of `DeleteCircuits` that are not rebuilt. -/
def dropped : List String := ch.deleteCircuits.filter fun name => !ch.rebuilds name

/-- The calls in the order `apply` issues them. -/
def calls : List Call :=
  ch.dropped.map .deleteCircuit ++ (ch.deleteLocators.map .deleteLocator ++
    (ch.deleteFlexAlgos.map .deleteFlexAlgo ++ (ch.addFlexAlgos.map .addFlexAlgo ++
      (ch.addLocators.map .addLocator ++ (ch.deletePrefixes.map .deletePrefix ++
        (ch.addPrefixes.map .addPrefix ++ ch.addCircuits.map .addCircuit))))))

/-- `ch.apply`: the node after the batch, and every refusal. -/
def apply (m : Managed) : Managed × List ReloadError :=
  runBatch (ch.run host fails) ch.calls m

end Apply

end Changes

/-! ## The calls in terms of what the files describe -/

theorem lookup_changed {K V : Type} [DecidableEq K] [DecidableEq V] {a b : Map K V}
    {moves : V → Bool} {k : K} {v : V} : (changed a b moves).lookup k = some v ↔
      a.lookup k = some v ∧ (b.lookup k ≠ some v ∨ moves v = true) := by
  rw [changed, lookup_filterMap, Option.bind_eq_some_iff]
  constructor
  · rintro ⟨w, hw, h⟩
    split at h
    · cases h
    rename_i hne
    cases h
    refine ⟨hw, ?_⟩
    by_cases hb : b.lookup k = some v
    · exact .inr (by simpa using fun hm => hne ⟨hb, hm⟩)
    · exact .inl hb
  · rintro ⟨ha, h⟩
    refine ⟨v, ha, if_neg ?_⟩
    rintro ⟨hb, hm⟩
    rcases h with h | h
    · exact h hb
    · rw [hm] at h
      cases h

theorem mem_sortedKeys_changed {K V : Type} [DecidableEq K] [DecidableEq V] {a b : Map K V}
    {moves : V → Bool} (r : K → K → Prop) [DecidableRel r] {k : K} :
    k ∈ (changed a b moves).sortedKeys r ↔
      ∃ v, a.lookup k = some v ∧ (b.lookup k ≠ some v ∨ moves v = true) := by
  rw [mem_sortedKeys, Option.isSome_iff_exists]
  exact exists_congr fun v => lookup_changed

/-- The definition of the algorithm is dropped or changed. -/
def Redefined (o o' : NodeOptions) (algo : UInt8) : Prop :=
  ∃ d, o.managed.flexAlgo algo = some d ∧ o'.managed.flexAlgo algo ≠ some d

/-- The algorithm is new, or its definition is. -/
def Introduced (o o' : NodeOptions) (algo : UInt8) : Prop :=
  ∃ d, o'.managed.flexAlgo algo = some d ∧ o.managed.flexAlgo algo ≠ some d

/-- The locator `Diff` sees for the prefix, the one the file lists last, is dropped, bound to
another algorithm or bound to a redefined one. -/
def Withdrawn (o o' : NodeOptions) (p : Prefix) : Prop :=
  ∃ algo, (o.managed.listed p).getLast? = some algo ∧
    ((o'.managed.listed p).getLast? ≠ some algo ∨ Redefined o o' algo)

/-- The locator `Diff` sees for the prefix in the new file is to be announced for the algorithm. -/
def Announced (o o' : NodeOptions) (p : Prefix) (algo : UInt8) : Prop :=
  (o'.managed.listed p).getLast? = some algo ∧
    ((o.managed.listed p).getLast? ≠ some algo ∨ Introduced o o' algo)

/-- The definitions of the options by algorithm. -/
def definitions (o : NodeOptions) : Map UInt8 Server.FlexAlgoConfig :=
  ofList (o.flexAlgos.map fun d => (d.algo, d))

/-- The calls `Diff` derives from two files with these options. -/
structure Diffed (host : Host) (old next : Config) (o o' : NodeOptions) (ch : Changes) : Prop where
  before : old.options host = .ok o
  after : next.options host = .ok o'
  batch : ch = changes old next (definitions o) (definitions o')

theorem flexAlgo_managed (h : o.Valid) :
    o.managed.flexAlgo algo = some d ↔ d ∈ o.flexAlgos ∧ d.algo = algo := by
  constructor
  · exact find?_key_eq_some
  · rintro ⟨hd, rfl⟩
    exact find?_key_of_mem h.flexAlgosNodup hd

theorem lookup_definitions (h : o.Valid) (algo : UInt8) :
    (definitions o).lookup algo = o.managed.flexAlgo algo := by
  have hnodup : ((o.flexAlgos.map fun d => (d.algo, d)).map Prod.fst).Nodup := by
    rw [List.map_map]
    exact h.flexAlgosNodup
  ext d
  rw [definitions, lookup_ofList hnodup, flexAlgo_managed h, mem_map]
  constructor
  · rintro ⟨d', hd', heq⟩
    obtain ⟨rfl, rfl⟩ := Prod.mk.inj heq
    exact ⟨hd', rfl⟩
  · rintro ⟨hd, rfl⟩
    exact ⟨d, hd, rfl⟩

theorem masked_of_listed {m : Managed} (h : algo ∈ m.listed p) : p.masked = p := by
  obtain ⟨lc, -, rfl, -⟩ := mem_listing.mp h
  exact Prefix.masked_masked _

section Files

variable {host : Host} {old next : Config} {o' : NodeOptions} {name : String}

theorem flexAlgoSet_eq (h : old.options host = .ok o) : old.flexAlgoSet = .ok (definitions o) := by
  have hall := (options_eq_ok.mp h).1
  rw [Config.flexAlgoSet, mapM_eq_ok.mpr hall]
  rfl

theorem lookup_locatorSet (h : old.options host = .ok o) (p : Prefix) :
    old.locatorSet.lookup p = (o.managed.listed p).getLast? := by
  have heq : o.locators = old.locatorConfigs := by rw [(options_eq_ok.mp h).2.2.1]; rfl
  rw [Config.locatorSet, lookup_ofList_listing, ← heq]
  rfl

theorem lookup_prefixSet (h : old.options host = .ok o) (p : Prefix) :
    old.prefixSet.lookup p = o.managed.optionPrefixes.lookup p := by
  have heq : o.prefixes = old.prefixConfigs := by rw [(options_eq_ok.mp h).2.2.1]; rfl
  change _ = (ofList (o.prefixes.map fun p => (p.pfx.masked, p.metric))).lookup p
  rw [heq]
  rfl

variable {ch : Changes}

section Accepted

variable (ho : old.options host = .ok o)

include ho

/-- **`Diff` accepts what `Options` accepts.** -/
theorem diff_eq_ok : diff host old next = .ok ch ↔ ∃ o', Diffed host old next o o' ch := by
  constructor
  · intro h
    obtain ⟨p, hp, h⟩ := bind_eq_ok.mp h
    obtain ⟨o', ho'⟩ := isOk_options_probe.mp ⟨p, hp⟩
    rw [flexAlgoSet_eq ho, flexAlgoSet_eq ho'] at h
    exact ⟨o', ho, ho', (Except.ok.inj h).symm⟩
  · rintro ⟨o', -, ho', rfl⟩
    obtain ⟨p, hp⟩ := isOk_options_probe.mpr ⟨o', ho'⟩
    rw [diff, hp, flexAlgoSet_eq ho, flexAlgoSet_eq ho']
    rfl

theorem lookup_before :
    (ofList (old.circuits.map fun cc => (cc.interface, cc))).lookup name = some cc ↔
      cc ∈ old.circuits ∧ cc.interface = name := by
  have hnodup : ((old.circuits.map fun cc => (cc.interface, cc)).map Prod.fst).Nodup := by
    rw [List.map_map]
    exact interfaces_nodup ho
  rw [lookup_ofList hnodup, mem_map]
  constructor
  · rintro ⟨cc', hcc', heq⟩
    obtain ⟨rfl, rfl⟩ := Prod.mk.inj heq
    exact ⟨hcc', rfl⟩
  · rintro ⟨hcc, rfl⟩
    exact ⟨cc, hcc, rfl⟩

theorem isSome_before :
    ((ofList (old.circuits.map fun cc => (cc.interface, cc))).lookup name).isSome = true ↔
      name ∈ old.circuits.map (·.interface) := by
  rw [Option.isSome_iff_exists, mem_map]
  exact exists_congr fun cc => lookup_before ho

end Accepted

variable (df : Diffed host old next o o' ch)

include df

theorem mem_deleteFlexAlgos : algo ∈ ch.deleteFlexAlgos ↔ Redefined o o' algo := by
  obtain rfl := df.batch
  change algo ∈ (changed (definitions o) (definitions o') fun _ => false).sortedKeys (· ≤ ·) ↔ _
  rw [mem_sortedKeys_changed, lookup_definitions (valid_of_options df.before),
    lookup_definitions (valid_of_options df.after)]
  simp [Redefined]

theorem mem_addFlexAlgos :
    d ∈ ch.addFlexAlgos ↔
      o'.managed.flexAlgo d.algo = some d ∧ o.managed.flexAlgo d.algo ≠ some d := by
  obtain rfl := df.batch
  have hsorted : ∀ algo, (algo, d) ∈ (changed (definitions o') (definitions o)
      fun _ => false).sorted (· ≤ ·) ↔
      o'.managed.flexAlgo algo = some d ∧ o.managed.flexAlgo algo ≠ some d := by
    intro algo
    rw [mem_sorted, lookup_changed, lookup_definitions (valid_of_options df.before),
      lookup_definitions (valid_of_options df.after)]
    simp
  change d ∈ ((changed (definitions o') (definitions o) fun _ => false).sorted (· ≤ ·)).map (·.2) ↔
    _
  rw [mem_map]
  constructor
  · rintro ⟨⟨algo, d'⟩, he, rfl⟩
    have h := (hsorted algo).mp he
    rwa [((flexAlgo_managed (valid_of_options df.after)).mp h.1).2]
  · intro h
    exact ⟨(d.algo, d), (hsorted d.algo).mpr h, rfl⟩

theorem mem_algos_addFlexAlgos : algo ∈ ch.addFlexAlgos.map (·.algo) ↔ Introduced o o' algo := by
  rw [mem_map]
  constructor
  · rintro ⟨d, hd, rfl⟩
    exact ⟨d, (mem_addFlexAlgos df).mp hd⟩
  · rintro ⟨d, hd, hne⟩
    have halgo := ((flexAlgo_managed (valid_of_options df.after)).mp hd).2
    subst halgo
    exact ⟨d, (mem_addFlexAlgos df).mpr ⟨hd, hne⟩, rfl⟩

theorem nodup_addFlexAlgos : (ch.addFlexAlgos.map (·.algo)).Nodup := by
  obtain rfl := df.batch
  have hkeys : (changes old next (definitions o) (definitions o')).addFlexAlgos.map (·.algo) =
      ((changed (definitions o') (definitions o) fun _ => false).sorted (· ≤ ·)).map Prod.fst := by
    change map _ (map _ _) = _
    rw [List.map_map]
    refine map_congr_left fun e he => ?_
    have h := (lookup_changed.mp ((mem_sorted (· ≤ ·)).mp he)).1
    rw [lookup_definitions (valid_of_options df.after)] at h
    exact ((flexAlgo_managed (valid_of_options df.after)).mp h).2
  rw [hkeys]
  exact nodup_sorted _ _

theorem mem_deleteLocators : p ∈ ch.deleteLocators ↔ Withdrawn o o' p := by
  obtain rfl := df.batch
  change p ∈ (changed old.locatorSet next.locatorSet fun algo =>
    (changes old next _ _).deleteFlexAlgos.contains algo).sortedKeys prefixLE ↔ _
  rw [mem_sortedKeys_changed, lookup_locatorSet df.before, lookup_locatorSet df.after]
  simp only [contains_iff_mem, mem_deleteFlexAlgos df]
  rfl

theorem mem_addLocators : lc ∈ ch.addLocators ↔ Announced o o' lc.pfx lc.algo := by
  obtain rfl := df.batch
  change lc ∈ ((changed next.locatorSet old.locatorSet fun algo =>
    ((changes old next _ _).addFlexAlgos.map (·.algo)).contains algo).sorted prefixLE).map
      (fun e => (⟨e.1, e.2⟩ : SRv6LocatorConfig)) ↔ _
  rw [mem_map, Announced, ← lookup_locatorSet df.before, ← lookup_locatorSet df.after]
  constructor
  · rintro ⟨e, he, rfl⟩
    have h := lookup_changed.mp ((mem_sorted prefixLE).mp he)
    rwa [contains_iff_mem, mem_algos_addFlexAlgos df] at h
  · intro h
    refine ⟨(lc.pfx, lc.algo), (mem_sorted prefixLE).mpr (lookup_changed.mpr ?_), rfl⟩
    rwa [contains_iff_mem, mem_algos_addFlexAlgos df]

theorem masked_addLocators (h : lc ∈ ch.addLocators) : lc.pfx.masked = lc.pfx :=
  masked_of_listed (mem_of_getLast? ((mem_addLocators df).mp h).1)

theorem masked_deleteLocators (h : p ∈ ch.deleteLocators) : p.masked = p := by
  obtain ⟨algo, hlast, -⟩ := (mem_deleteLocators df).mp h
  exact masked_of_listed (mem_of_getLast? hlast)

theorem nodup_addLocators : (ch.addLocators.map (·.pfx)).Nodup := by
  obtain rfl := df.batch
  change (map _ (map _ _)).Nodup
  rw [List.map_map]
  exact nodup_sorted _ _

theorem mem_deletePrefixes : p ∈ ch.deletePrefixes ↔
    ∃ metric, o.managed.optionPrefixes.lookup p = some metric ∧
      o'.managed.optionPrefixes.lookup p ≠ some metric := by
  obtain rfl := df.batch
  change p ∈ (changed old.prefixSet next.prefixSet fun _ => false).sortedKeys prefixLE ↔ _
  rw [mem_sortedKeys_changed, lookup_prefixSet df.before, lookup_prefixSet df.after]
  simp

theorem mem_addPrefixes {p : AdvertisedPrefix} : p ∈ ch.addPrefixes ↔
    o'.managed.optionPrefixes.lookup p.pfx = some p.metric ∧
      o.managed.optionPrefixes.lookup p.pfx ≠ some p.metric := by
  obtain rfl := df.batch
  change p ∈ ((changed next.prefixSet old.prefixSet fun _ => false).sorted prefixLE).map
    (fun e => (⟨e.1, e.2⟩ : AdvertisedPrefix)) ↔ _
  rw [mem_map, ← lookup_prefixSet df.before, ← lookup_prefixSet df.after]
  constructor
  · rintro ⟨e, he, rfl⟩
    simpa using lookup_changed.mp ((mem_sorted prefixLE).mp he)
  · intro h
    exact ⟨(p.pfx, p.metric),
      (mem_sorted prefixLE).mpr (lookup_changed.mpr (by simpa using h)), rfl⟩

theorem nodup_addPrefixes : (ch.addPrefixes.map (·.pfx)).Nodup := by
  obtain rfl := df.batch
  change (map _ (map _ _)).Nodup
  rw [List.map_map]
  exact nodup_sorted _ _

theorem nodup_deletes :
    ch.deleteLocators.Nodup ∧ ch.deleteFlexAlgos.Nodup ∧ ch.deletePrefixes.Nodup := by
  obtain rfl := df.batch
  exact ⟨nodup_sortedKeys _ _, nodup_sortedKeys _ _, nodup_sortedKeys _ _⟩

/-! ## The circuits of both files -/

theorem mem_addCircuits : cc ∈ ch.addCircuits ↔ cc ∈ next.circuits ∧ cc ∉ old.circuits := by
  obtain rfl := df.batch
  change cc ∈ addedCircuits old next ↔ _
  rw [addedCircuits, mem_filter, decide_eq_true_iff, Ne, lookup_before df.before]
  simp

theorem nodup_addCircuits : (ch.addCircuits.map (·.interface)).Nodup := by
  obtain rfl := df.batch
  exact (interfaces_nodup df.after).sublist (filter_sublist.map _)

theorem mem_deleteCircuits : name ∈ ch.deleteCircuits ↔
    name ∈ old.circuits.map (·.interface) ∧
      ((∃ cc ∈ next.circuits, cc.interface = name ∧ cc ∉ old.circuits) ∨
        name ∉ next.circuits.map (·.interface)) := by
  obtain rfl := df.batch
  change name ∈ deletedCircuits old next ↔ _
  simp only [deletedCircuits, mem_append, mem_map, mem_filter, decide_eq_true_iff,
    isSome_before df.before, Ne, lookup_before df.before]
  constructor
  · rintro (⟨cc, ⟨hcc, ⟨cc', hcc', heq⟩, hne⟩, rfl⟩ | ⟨cc, ⟨hcc, hnot⟩, rfl⟩)
    · exact ⟨⟨cc', hcc', heq⟩, .inl ⟨cc, hcc, rfl, fun h => hne ⟨h, trivial⟩⟩⟩
    · exact ⟨⟨cc, hcc, rfl⟩, .inr (by simpa using hnot)⟩
  · rintro ⟨⟨cc', hcc', rfl⟩, ⟨cc, hcc, heq, hne⟩ | hnot⟩
    · exact .inl ⟨cc, ⟨hcc, ⟨cc', hcc', heq.symm⟩, fun h => hne h.1⟩, heq⟩
    · exact .inr ⟨cc', ⟨hcc', by simpa using hnot⟩, rfl⟩

/-- A circuit both files name, with another definition, is rebuilt. -/
theorem rebuilds_iff : ch.rebuilds name = true ↔
    name ∈ old.circuits.map (·.interface) ∧
      ∃ cc ∈ next.circuits, cc.interface = name ∧ cc ∉ old.circuits := by
  rw [Changes.rebuilds, Bool.and_eq_true, contains_iff_mem, contains_iff_mem, mem_deleteCircuits df]
  constructor
  · rintro ⟨⟨hold, -⟩, hadd⟩
    obtain ⟨cc, hcc, rfl⟩ := mem_map.mp hadd
    obtain ⟨hnext, hne⟩ := (mem_addCircuits df).mp hcc
    exact ⟨hold, cc, hnext, rfl, hne⟩
  · rintro ⟨hold, cc, hcc, rfl, hne⟩
    exact ⟨⟨hold, .inl ⟨cc, hcc, rfl, hne⟩⟩, mem_map_of_mem ((mem_addCircuits df).mpr ⟨hcc, hne⟩)⟩

theorem mem_dropped : name ∈ ch.dropped ↔
    name ∈ old.circuits.map (·.interface) ∧ name ∉ next.circuits.map (·.interface) := by
  rw [Changes.dropped, mem_filter, mem_deleteCircuits df, Bool.not_eq_true', ← Bool.not_eq_true,
    rebuilds_iff df]
  constructor
  · rintro ⟨⟨hold, h⟩, hnot⟩
    rcases h with h | h
    · exact absurd ⟨hold, h⟩ hnot
    · exact ⟨hold, h⟩
  · rintro ⟨hold, hnot⟩
    refine ⟨⟨hold, .inr hnot⟩, ?_⟩
    rintro ⟨-, cc, hcc, rfl, -⟩
    exact hnot (mem_map_of_mem hcc)

theorem nodup_dropped : ch.dropped.Nodup := by
  obtain rfl := df.batch
  refine Nodup.filter _ ?_
  change (deletedCircuits old next).Nodup
  refine nodup_append.mpr ⟨?_, ?_, ?_⟩
  · exact (interfaces_nodup df.after).sublist (filter_sublist.map _)
  · exact (interfaces_nodup df.before).sublist (filter_sublist.map _)
  · rintro name hnext name' hold rfl
    obtain ⟨cc, hcc, rfl⟩ := mem_map.mp hnext
    obtain ⟨cc', hcc', heq⟩ := mem_map.mp hold
    have hnot := (mem_filter.mp hcc').2
    rw [heq] at hnot
    have hmem : cc.interface ∈ next.circuits.map (·.interface) :=
      mem_map_of_mem (mem_filter.mp hcc).1
    rw [contains_iff_mem.mpr hmem] at hnot
    cases hnot

end Files

end Goisis.ConfigFile
