import Goisis.Server.Managed

/-!
# Runtime configuration

Model of the mutators a configuration reload calls: `pkg/server/mutate.go` (`AddLocator`,
`DeleteLocator`, `AddFlexAlgo`, `DeleteFlexAlgo`, `AddPrefix`, `DeletePrefix`) and `addCircuit`,
`deleteCircuit` of `pkg/server/circuit_events.go`, on the part of the node they check and write
(`Managed`). What follows on the wire (hellos, purges, the re-origination each of them requests) is
read by no mutator and left out; so is the extended circuit ID, which is never refused.

A refusal is a `MutateError`, one constructor per error text; `alreadyInState` are those the source
wraps `ErrAlreadyInState` in. `issue` is what `Changes.apply` makes of a call: an answer of that
class is the call succeeding.

What a call does is said once, for the value it concerns (`issue_addLocator`, `issue_deletePrefix`,
…); everything else stays, by the `issue_…_frame` lemmas.

* `circuitDifferences_eq_nil` — no field is named exactly when both configurations are the same up
  to the transport and the order of addresses and subnets.
-/

namespace Goisis.Server

open Lib Packet IsisServer List CircuitConfig Option

variable {a b : CircuitConfig} {algo : UInt8} {cfg : CircuitConfig} {used : List UInt8}

/-! ## Refusals -/

/-- What a configuration call is refused with. -/
inductive MutateError where
  /-- The checks of `options.validate` a call repeats. -/
  | config (e : ConfigError)
  /-- `goisis: SRv6 locator %s is already advertised` -/
  | locatorAdvertised (p : Prefix)
  /-- `goisis: SRv6 locator %s is already advertised for algorithm %d` -/
  | locatorOtherAlgo (p : Prefix) (algo : UInt8)
  /-- `goisis: SRv6 locator %s is not advertised` -/
  | locatorNotAdvertised (p : Prefix)
  /-- `goisis: Flex-Algo %d is already configured` -/
  | flexAlgoConfigured (algo : UInt8)
  /-- `goisis: Flex-Algo %d is already configured with a different definition` -/
  | flexAlgoDiffers (algo : UInt8)
  /-- `goisis: Flex-Algo %d is not configured` -/
  | flexAlgoNotConfigured (algo : UInt8)
  /-- `goisis: Flex-Algo %d still has SRv6 locator %s bound; delete the locator first` -/
  | flexAlgoBound (algo : UInt8) (locator : Prefix)
  /-- `goisis: prefix %s is already advertised` -/
  | prefixAdvertised (p : Prefix)
  /-- `goisis: prefix %s is already advertised at metric %d` -/
  | prefixOtherMetric (p : Prefix) (metric : UInt32)
  /-- `goisis: %s is connected on %s; remove the address or use policy.advertise` -/
  | prefixConnected (p : Prefix) (circuit : String)
  /-- `goisis: prefix %s is not advertised` -/
  | prefixNotAdvertised (p : Prefix)
  /-- `goisis: circuit %s is already configured` -/
  | circuitConfigured (circuit : String)
  /-- `goisis: circuit %s is already configured and differs in %s; delete it before adding it
  again` -/
  | circuitDiffers (circuit : String) (fields : List String)
  /-- `goisis: circuit %s would hold this node's LSPs to %d octets, below the %d-octet minimum` -/
  | circuitMTU (circuit : String) (size : Int)
  /-- `goisis: circuit %s is not configured` -/
  | circuitNotConfigured (circuit : String)
deriving DecidableEq, Repr

/-- `errors.Is(err, ErrAlreadyInState)`. -/
def MutateError.alreadyInState : MutateError → Bool
  | .locatorAdvertised _ => true
  | .locatorNotAdvertised _ => true
  | .flexAlgoConfigured _ => true
  | .flexAlgoNotConfigured _ => true
  | .prefixAdvertised _ => true
  | .prefixNotAdvertised _ => true
  | .circuitConfigured _ => true
  | .circuitNotConfigured _ => true
  | _ => false

/-- The fields of `CircuitConfig` two configurations differ in, in declaration order
(`circuitDifferences`): `Transport` is not compared, addresses and subnets in canonical form.
`reflect.DeepEqual` also tells a nil slice from an empty one; here both are `[]`. -/
def circuitDifferences (a b : CircuitConfig) : List String :=
  (if a.name = b.name then [] else ["Name"]) ++
  (if a.p2p = b.p2p then [] else ["P2P"]) ++
  (if a.level1 = b.level1 then [] else ["Level1"]) ++
  (if a.level2 = b.level2 then [] else ["Level2"]) ++
  (if a.priority = b.priority then [] else ["Priority"]) ++
  (if a.helloInterval = b.helloInterval then [] else ["HelloInterval"]) ++
  (if a.holdingMultiplier = b.holdingMultiplier then [] else ["HoldingMultiplier"]) ++
  (if a.metric = b.metric then [] else ["Metric"]) ++
  (if a.adminGroup = b.adminGroup then [] else ["AdminGroup"]) ++
  (if sortedSet a.ipv4Addrs = sortedSet b.ipv4Addrs then [] else ["IPv4Addrs"]) ++
  (if sortedSet a.ipv6Addrs = sortedSet b.ipv6Addrs then [] else ["IPv6Addrs"]) ++
  (if maskedSet a.connectedPrefixes = maskedSet b.connectedPrefixes then []
    else ["ConnectedPrefixes"]) ++
  (if a.padding = b.padding then [] else ["Padding"]) ++
  (if a.adjacencyLimit = b.adjacencyLimit then [] else ["AdjacencyLimit"]) ++
  (if a.helloPassword = b.helloPassword then [] else ["HelloPassword"]) ++
  (if a.helloAuthAlgorithm = b.helloAuthAlgorithm then [] else ["HelloAuthAlgorithm"]) ++
  (if a.helloKeyID = b.helloKeyID then [] else ["HelloKeyID"]) ++
  (if a.helloAcceptPasswords = b.helloAcceptPasswords then [] else ["HelloAcceptPasswords"])

/-- What `circuitDifferences` compares: everything but the transport, addresses and subnets as
sets. -/
def CircuitConfig.canonical (c : CircuitConfig) : CircuitConfig :=
  { c with
    mtu := 0
    localSNPA := Octets.zero 6
    ipv4Addrs := sortedSet c.ipv4Addrs
    ipv6Addrs := sortedSet c.ipv6Addrs
    connectedPrefixes := maskedSet c.connectedPrefixes }

theorem ite_nil_eq_nil {p : Prop} [Decidable p] {field : String} :
    (if p then [] else [field]) = [] ↔ p := by
  by_cases h : p <;> simp [h]

theorem circuitDifferences_eq_nil : circuitDifferences a b = [] ↔ a.canonical = b.canonical := by
  unfold circuitDifferences
  simp only [append_eq_nil_iff, ite_nil_eq_nil, and_assoc]
  constructor
  · rintro ⟨h1, h2, h3, h4, h5, h6, h7, h8, h9, h10, h11, h12, h13, h14, h15, h16, h17, h18⟩
    unfold canonical
    rw [h1, h2, h3, h4, h5, h6, h7, h8, h9, h10, h11, h12, h13, h14, h15, h16, h17, h18]
  · intro h
    rw [CircuitConfig.canonical, CircuitConfig.canonical, CircuitConfig.mk.injEq] at h
    simp only [h, and_self]

/-- On the same interface, what `circuitDifferences` does not tell apart is the same. -/
theorem CircuitConfig.eq_of_canonical (h : a.canonical = b.canonical) (hmtu : a.mtu = b.mtu)
    (hsnpa : a.localSNPA = b.localSNPA) (h4 : a.ipv4Addrs = b.ipv4Addrs)
    (h6 : a.ipv6Addrs = b.ipv6Addrs) (hconn : a.connectedPrefixes = b.connectedPrefixes) :
    a = b := by
  rw [canonical, canonical, mk.injEq] at h
  cases a
  cases b
  simp_all only

namespace Managed

variable (m : Managed)

/-! ## The calls -/

/-- `participatesInAlgo(algo)`. -/
def participatesInAlgo (algo : UInt8) : Bool := algo == 0 || m.flexAlgos.any (·.algo == algo)

/-- `AddLocator(cfg)`. -/
def addLocator (cfg : SRv6LocatorConfig) : Except MutateError Managed :=
  if !cfg.pfx.addr.is6 || is4In6 cfg.pfx.addr then .error (.config (.locatorNotIPv6 cfg.pfx))
  else if cfg.algo ≠ 0 ∧ m.participatesInAlgo cfg.algo = false then
    .error (.config (.locatorNotParticipating cfg.pfx cfg.algo))
  else
    match m.locators.find? (fun lc => lc.pfx.masked = cfg.pfx.masked) with
    | some lc =>
      if lc.algo = cfg.algo then .error (.locatorAdvertised cfg.pfx.masked)
      else .error (.locatorOtherAlgo cfg.pfx.masked lc.algo)
    | none => .ok { m with locators := m.locators ++ [cfg] }

/-- `DeleteLocator(prefix)`: the first locator of the prefix goes. -/
def deleteLocator (p : Prefix) : Except MutateError Managed :=
  if m.locators.any (fun lc => lc.pfx.masked = p.masked) then
    .ok { m with locators := m.locators.eraseP fun lc => lc.pfx.masked = p.masked }
  else .error (.locatorNotAdvertised p.masked)

/-- `AddFlexAlgo(cfg)`. -/
def addFlexAlgo (cfg : FlexAlgoConfig) : Except MutateError Managed :=
  if cfg.algo < 128 then .error (.config (.reservedFlexAlgo cfg.algo))
  else
    match m.flexAlgos.find? (fun fa => fa.algo = cfg.algo) with
    | some fa =>
      if fa = cfg then .error (.flexAlgoConfigured cfg.algo) else .error (.flexAlgoDiffers cfg.algo)
    | none => .ok { m with flexAlgos := m.flexAlgos ++ [cfg] }

/-- `DeleteFlexAlgo(algo)`. -/
def deleteFlexAlgo (algo : UInt8) : Except MutateError Managed :=
  if m.flexAlgos.any (fun fa => fa.algo = algo) then
    match m.locators.find? (fun lc => lc.algo = algo) with
    | some lc => .error (.flexAlgoBound algo lc.pfx.masked)
    | none => .ok { m with flexAlgos := m.flexAlgos.eraseP fun fa => fa.algo = algo }
  else .error (.flexAlgoNotConfigured algo)

/-- `AddPrefix(cfg)`. -/
def addPrefix (cfg : AdvertisedPrefix) : Except MutateError Managed :=
  match checkAdvertisedPrefix cfg with
  | .error e => .error (.config e)
  | .ok () =>
    match m.optionPrefixes.lookup cfg.pfx.masked with
    | some metric =>
      if metric = cfg.metric then .error (.prefixAdvertised cfg.pfx.masked)
      else .error (.prefixOtherMetric cfg.pfx.masked metric)
    | none => .ok { m with optionPrefixes := m.optionPrefixes.insert cfg.pfx.masked cfg.metric }

/-- `DeletePrefix(prefix)`. -/
def deletePrefix (p : Prefix) : Except MutateError Managed :=
  if (m.optionPrefixes.lookup p.masked).isSome then
    .ok { m with optionPrefixes := m.optionPrefixes.erase p.masked }
  else
    match m.circuits.find? (fun c => (m.prefixesOf c.cfg.name).contains p.masked) with
    | some c => .error (.prefixConnected p.masked c.cfg.name)
    | none => .error (.prefixNotAdvertised p.masked)

/-- The circuit `allocCircuitIDs` makes room for, taken in. -/
def takeIn (cfg : CircuitConfig) (cursor : Nat) : Managed :=
  { m with
    circuits := m.circuits ++ [⟨cfg, UInt8.ofNat cursor⟩]
    pseudonodeCursor := cursor
    circuitPrefixes :=
      setCircuitPrefixes m.circuitPrefixes cfg.name (maskedSet cfg.connectedPrefixes) }

/-- `addCircuit(cfg, now)`. -/
def addCircuit (cfg : CircuitConfig) : Except MutateError Managed :=
  match cfg.validate with
  | .error e => .error (.config e)
  | .ok () =>
    let cfg := cfg.withDefaults
    match m.circuits.find? (fun c => c.cfg.name = cfg.name) with
    | some cur =>
      let running := { cur.cfg with connectedPrefixes := m.prefixesOf cfg.name }
      if circuitDifferences running cfg = [] then .error (.circuitConfigured cfg.name)
      else .error (.circuitDiffers cfg.name (circuitDifferences running cfg))
    | none =>
      if cfg.mtu - 3 < 512 then .error (.circuitMTU cfg.name (cfg.mtu - 3))
      else
        match nextPseudonode (m.circuits.map (·.pseudonodeID)) 255 m.pseudonodeCursor with
        | none => .error (.config .noPseudonode)
        | some cursor => .ok (m.takeIn cfg cursor)

/-- `deleteCircuit(name, now)`. -/
def deleteCircuit (name : String) : Except MutateError Managed :=
  if m.circuits.any (fun c => c.cfg.name = name) then
    .ok { m with
      circuits := m.circuits.eraseP fun c => c.cfg.name = name
      circuitPrefixes := setCircuitPrefixes m.circuitPrefixes name [] }
  else .error (.circuitNotConfigured name)

/-- What `Changes.apply` makes of a call: an answer that the node is already in the state asked for
is the call succeeding, any other refusal is reported. -/
def issue (r : Except MutateError Managed) : Managed × Option MutateError :=
  match r with
  | .ok m' => (m', none)
  | .error e => (m, if e.alreadyInState then none else some e)

/-! ## The values calls concern -/

/-- A locator `AddLocator` does not refuse for itself. -/
def Admits (cfg : SRv6LocatorConfig) : Prop :=
  (!cfg.pfx.addr.is6 || is4In6 cfg.pfx.addr) = false ∧ m.participatesInAlgo cfg.algo = true

/-- A locator is bound to the algorithm. -/
def Bound (algo : UInt8) : Prop := ∃ p, algo ∈ m.listed p

variable {m}

/-! ## Locators -/

theorem issue_addLocator_frame (cfg : SRv6LocatorConfig) :
    ∃ l, (m.issue (m.addLocator cfg)).1 = { m with locators := l } := by
  unfold addLocator
  repeat' split
  all_goals exact ⟨_, rfl⟩

/-- A locator is added where its prefix has none, and refused where the first one listed is bound to
another algorithm. -/
theorem issue_addLocator {cfg : SRv6LocatorConfig} (h : m.Admits cfg) :
    (∀ p, (m.issue (m.addLocator cfg)).1.listed p =
      if p = cfg.pfx.masked then (if m.listed p = [] then [cfg.algo] else m.listed p)
      else m.listed p) ∧
    ((m.issue (m.addLocator cfg)).2 = none ↔
      m.listed cfg.pfx.masked = [] ∨ (m.listed cfg.pfx.masked).head? = some cfg.algo) := by
  have hhead : (m.listed cfg.pfx.masked).head? =
      (m.locators.find? fun lc => lc.pfx.masked = cfg.pfx.masked).map (·.algo) := head?_listing _ _
  have halgo : ¬ (cfg.algo ≠ 0 ∧ m.participatesInAlgo cfg.algo = false) := by
    rw [h.2]
    exact fun h => Bool.noConfusion h.2
  unfold addLocator
  rw [h.1, if_neg Bool.false_ne_true, if_neg halgo]
  cases hf : m.locators.find? (fun lc => lc.pfx.masked = cfg.pfx.masked) with
  | none =>
    rw [hf] at hhead
    have hnil : m.listed cfg.pfx.masked = [] := head?_eq_none_iff.mp hhead
    refine ⟨fun p => ?_, iff_of_true rfl (.inl hnil)⟩
    change listing _ _ (m.locators ++ [cfg]) p = _
    rw [listing_append, listing_cons]
    by_cases hp : p = cfg.pfx.masked
    · subst hp
      change m.listed cfg.pfx.masked ++ _ = _
      rw [if_pos rfl, if_pos rfl, if_pos hnil, hnil]
      rfl
    · rw [if_neg hp, if_neg (Ne.symm hp)]
      exact append_nil _
  | some lc =>
    rw [hf] at hhead
    have hcons : m.listed cfg.pfx.masked ≠ [] := fun hnil => by
      rw [hnil] at hhead
      cases hhead
    change (m.listed cfg.pfx.masked).head? = some lc.algo at hhead
    have hkeep : ∀ p, m.listed p = if p = cfg.pfx.masked then
        (if m.listed p = [] then [cfg.algo] else m.listed p) else m.listed p := by
      intro p
      by_cases hp : p = cfg.pfx.masked
      · rw [if_pos hp, if_neg (hp ▸ hcons)]
      · rw [if_neg hp]
    dsimp only
    by_cases ha : lc.algo = cfg.algo
    · rw [if_pos ha]
      exact ⟨hkeep, iff_of_true rfl (.inr (ha ▸ hhead))⟩
    rw [if_neg ha]
    refine ⟨hkeep, iff_of_false (by simp [issue, MutateError.alreadyInState]) ?_⟩
    rintro (hnil | hother)
    · exact hcons hnil
    · exact ha (some.inj (hhead.symm.trans hother))

/-- A locator is added only where its prefix has none. -/
theorem listed_issue_addLocator (cfg : SRv6LocatorConfig) (p : Prefix) :
    (m.issue (m.addLocator cfg)).1.listed p = m.listed p ∨
      p = cfg.pfx.masked ∧ m.listed p = [] ∧
      (m.issue (m.addLocator cfg)).1.listed p = [cfg.algo] := by
  by_cases hadm : m.Admits cfg
  · rw [(issue_addLocator hadm).1]
    by_cases hp : p = cfg.pfx.masked
    · by_cases hnil : m.listed p = []
      · rw [if_pos hp, if_pos hnil]
        exact .inr ⟨hp, hnil, rfl⟩
      · rw [if_pos hp, if_neg hnil]
        exact .inl rfl
    · rw [if_neg hp]
      exact .inl rfl
  · left
    unfold addLocator
    by_cases h6 : (!cfg.pfx.addr.is6 || is4In6 cfg.pfx.addr) = true
    · rw [if_pos h6]
      rfl
    have hpart : m.participatesInAlgo cfg.algo = false := by
      rw [← Bool.not_eq_true]
      exact fun h => hadm ⟨by simpa using h6, h⟩
    have hzero : cfg.algo ≠ 0 := by
      rintro hzero
      rw [hzero] at hpart
      cases hpart
    rw [if_neg h6, if_pos ⟨hzero, hpart⟩]
    rfl

theorem issue_deleteLocator_frame (p : Prefix) :
    ∃ l, (m.issue (m.deleteLocator p)).1 = { m with locators := l } := by
  unfold deleteLocator
  split <;> exact ⟨_, rfl⟩

/-- The first locator of the prefix goes, if there is one; the call is never refused otherwise. -/
theorem issue_deleteLocator (p : Prefix) :
    (∀ p', (m.issue (m.deleteLocator p)).1.listed p' =
      if p' = p.masked then (m.listed p').tail else m.listed p') ∧
    (m.issue (m.deleteLocator p)).2 = none := by
  unfold deleteLocator
  split
  · refine ⟨fun p' => ?_, rfl⟩
    exact listing_eraseP m.locators p.masked p'
  rename_i hany
  refine ⟨fun p' => ?_, rfl⟩
  change m.listed p' = _
  by_cases hp : p' = p.masked
  · subst hp
    have hnil : m.listed p.masked = [] := by
      rw [listed, listing, map_eq_nil_iff, filter_eq_nil_iff]
      simpa using hany
    rw [if_pos rfl, hnil]
    rfl
  · rw [if_neg hp]

/-! ## Flexible Algorithms -/

theorem issue_addFlexAlgo_frame (cfg : FlexAlgoConfig) :
    ∃ l, (m.issue (m.addFlexAlgo cfg)).1 = { m with flexAlgos := l } := by
  unfold addFlexAlgo
  repeat' split
  all_goals exact ⟨_, rfl⟩

/-- A definition is added where its algorithm has none, and refused where it has another. -/
theorem issue_addFlexAlgo {cfg : FlexAlgoConfig} (h : ¬ cfg.algo < 128)
    (hm : (m.flexAlgos.map (·.algo)).Nodup) :
    ((m.issue (m.addFlexAlgo cfg)).1.flexAlgos.map (·.algo)).Nodup ∧
    (∀ algo, (m.issue (m.addFlexAlgo cfg)).1.flexAlgo algo =
      if algo = cfg.algo then (m.flexAlgo algo).or (some cfg) else m.flexAlgo algo) ∧
    ((m.issue (m.addFlexAlgo cfg)).2 = none ↔
      m.flexAlgo cfg.algo = none ∨ m.flexAlgo cfg.algo = some cfg) := by
  unfold addFlexAlgo
  rw [if_neg h]
  cases hf : m.flexAlgos.find? (fun fa => fa.algo = cfg.algo) with
  | none =>
    have hnone : m.flexAlgo cfg.algo = none := hf
    refine ⟨nodup_append_singleton hm (find?_key_eq_none.mp hf), fun algo => ?_,
      iff_of_true rfl (.inl hnone)⟩
    refine (find?_append_singleton cfg algo).trans ?_
    change (m.flexAlgo algo).or _ = _
    by_cases ha : algo = cfg.algo
    · rw [if_pos ha, if_pos ha]
    · rw [if_neg ha, if_neg ha, or_none]
  | some fa =>
    have hsome : m.flexAlgo cfg.algo = some fa := hf
    have hkeep : ∀ algo, m.flexAlgo algo =
        if algo = cfg.algo then (m.flexAlgo algo).or (some cfg) else m.flexAlgo algo := by
      intro algo
      by_cases ha : algo = cfg.algo
      · rw [if_pos ha, ha, hsome]
        rfl
      · rw [if_neg ha]
    dsimp only
    by_cases heq : fa = cfg
    · rw [if_pos heq]
      exact ⟨hm, hkeep, iff_of_true rfl (.inr (heq ▸ hsome))⟩
    rw [if_neg heq]
    refine ⟨hm, hkeep, iff_of_false (by simp [issue, MutateError.alreadyInState]) ?_⟩
    rintro (hnone | hsame)
    · rw [hsome] at hnone
      cases hnone
    · exact heq (some.inj (hsome.symm.trans hsame))

theorem issue_deleteFlexAlgo_frame (algo : UInt8) :
    ∃ l, (m.issue (m.deleteFlexAlgo algo)).1 = { m with flexAlgos := l } := by
  unfold deleteFlexAlgo
  repeat' split
  all_goals exact ⟨_, rfl⟩

theorem bound_iff : m.Bound algo ↔ ∃ lc ∈ m.locators, lc.algo = algo := by
  constructor
  · rintro ⟨p, hp⟩
    obtain ⟨lc, hlc, -, ha⟩ := mem_listing.mp hp
    exact ⟨lc, hlc, ha⟩
  · rintro ⟨lc, hlc, ha⟩
    exact ⟨lc.pfx.masked, mem_listing.mpr ⟨lc, hlc, rfl, ha⟩⟩

open scoped Classical in
/-- An algorithm no locator is bound to goes; one that still has a locator is refused. -/
theorem issue_deleteFlexAlgo (algo : UInt8) (hm : (m.flexAlgos.map (·.algo)).Nodup) :
    ((m.issue (m.deleteFlexAlgo algo)).1.flexAlgos.map (·.algo)).Nodup ∧
    (∀ a, (m.issue (m.deleteFlexAlgo algo)).1.flexAlgo a =
      if a = algo then (if m.Bound algo then m.flexAlgo a else none) else m.flexAlgo a) ∧
    ((m.issue (m.deleteFlexAlgo algo)).2 = none ↔ m.flexAlgo algo = none ∨ ¬ m.Bound algo) := by
  unfold deleteFlexAlgo
  by_cases hany : m.flexAlgos.any (fun fa => fa.algo = algo) = true
  · have hsome : m.flexAlgo algo ≠ none := by
      simpa [flexAlgo, find?_eq_none] using hany
    rw [if_pos hany]
    cases hf : m.locators.find? (fun lc => lc.algo = algo) with
    | none =>
      have hfree : ¬ m.Bound algo := by
        rw [bound_iff]
        simpa [find?_eq_none] using hf
      refine ⟨nodup_eraseP_key hm _, fun a => ?_, iff_of_true rfl (.inr hfree)⟩
      rw [if_neg hfree]
      exact find?_eraseP_key hm algo a
    | some lc =>
      have hbound : m.Bound algo := bound_iff.mpr ⟨lc, find?_key_eq_some hf⟩
      refine ⟨hm, fun a => ?_, iff_of_false (by simp [issue, MutateError.alreadyInState]) ?_⟩
      · change m.flexAlgo a = _
        rw [if_pos hbound, ite_self]
      · rintro (hnone | hfree)
        · exact hsome hnone
        · exact hfree hbound
  · have hnone : m.flexAlgo algo = none := by
      simpa [flexAlgo, find?_eq_none] using hany
    rw [if_neg hany]
    refine ⟨hm, fun a => ?_, iff_of_true rfl (.inl hnone)⟩
    change m.flexAlgo a = _
    by_cases ha : a = algo
    · subst ha
      rw [if_pos rfl, hnone, ite_self]
    · rw [if_neg ha]

/-! ## Prefixes -/

theorem issue_addPrefix_frame (cfg : AdvertisedPrefix) :
    ∃ l, (m.issue (m.addPrefix cfg)).1 = { m with optionPrefixes := l } := by
  unfold addPrefix
  repeat' split
  all_goals exact ⟨_, rfl⟩

/-- A prefix is added where it is not named yet, and refused where it is at another metric. -/
theorem issue_addPrefix {cfg : AdvertisedPrefix} (h : checkAdvertisedPrefix cfg = .ok ()) :
    (∀ p, (m.issue (m.addPrefix cfg)).1.optionPrefixes.lookup p =
      if p = cfg.pfx.masked then (m.optionPrefixes.lookup p).or (some cfg.metric)
      else m.optionPrefixes.lookup p) ∧
    ((m.issue (m.addPrefix cfg)).2 = none ↔ m.optionPrefixes.lookup cfg.pfx.masked = none ∨
      m.optionPrefixes.lookup cfg.pfx.masked = some cfg.metric) := by
  unfold addPrefix
  rw [h]
  cases hf : m.optionPrefixes.lookup cfg.pfx.masked with
  | none =>
    refine ⟨fun p => ?_, iff_of_true rfl (.inl rfl)⟩
    refine (Map.lookup_insert_ite _ _ _ _).trans ?_
    by_cases hp : p = cfg.pfx.masked
    · rw [if_pos hp, if_pos hp, hp, hf]
      rfl
    · rw [if_neg hp, if_neg hp]
  | some metric =>
    have hkeep : ∀ p, m.optionPrefixes.lookup p =
        if p = cfg.pfx.masked then (m.optionPrefixes.lookup p).or (some cfg.metric)
        else m.optionPrefixes.lookup p := by
      intro p
      by_cases hp : p = cfg.pfx.masked
      · rw [if_pos hp, hp, hf]
        rfl
      · rw [if_neg hp]
    dsimp only
    by_cases heq : metric = cfg.metric
    · rw [if_pos heq]
      exact ⟨hkeep, iff_of_true rfl (.inr (by rw [heq]))⟩
    rw [if_neg heq]
    refine ⟨hkeep, iff_of_false (by simp [issue, MutateError.alreadyInState]) ?_⟩
    rintro (hnone | hsame)
    · cases hnone
    · exact heq (some.inj hsame)

theorem issue_deletePrefix_frame (p : Prefix) :
    ∃ l, (m.issue (m.deletePrefix p)).1 = { m with optionPrefixes := l } := by
  unfold deletePrefix
  repeat' split
  all_goals exact ⟨_, rfl⟩

/-- A prefix the configuration names goes; one only a circuit has connected is refused. -/
theorem issue_deletePrefix (p : Prefix) :
    (∀ p', (m.issue (m.deletePrefix p)).1.optionPrefixes.lookup p' =
      if p' = p.masked then none else m.optionPrefixes.lookup p') ∧
    ((m.issue (m.deletePrefix p)).2 = none ↔
      m.optionPrefixes.lookup p.masked ≠ none ∨ ¬ m.Connected p.masked) := by
  unfold deletePrefix
  by_cases hsome : (m.optionPrefixes.lookup p.masked).isSome = true
  · rw [if_pos hsome]
    exact ⟨Map.lookup_erase_ite _ _, iff_of_true rfl (.inl (isSome_iff_ne_none.mp hsome))⟩
  rw [if_neg hsome]
  have hnone : m.optionPrefixes.lookup p.masked = none := by simpa using hsome
  have hkeep : ∀ p', m.optionPrefixes.lookup p' =
      if p' = p.masked then none else m.optionPrefixes.lookup p' := by
    intro p'
    by_cases hp : p' = p.masked
    · rw [if_pos hp, hp, hnone]
    · rw [if_neg hp]
  cases hf : m.circuits.find? (fun c => (m.prefixesOf c.cfg.name).contains p.masked) with
  | none =>
    have hfree : ¬ m.Connected p.masked := by
      simpa [Connected, find?_eq_none] using hf
    exact ⟨hkeep, iff_of_true rfl (.inr hfree)⟩
  | some c =>
    have hconn : m.Connected p.masked :=
      ⟨c, mem_of_find?_eq_some hf, by simpa using find?_some hf⟩
    refine ⟨hkeep, iff_of_false (by simp [issue, MutateError.alreadyInState]) ?_⟩
    rintro (hnamed | hfree)
    · exact hnamed hnone
    · exact hfree hconn

/-! ## Circuits -/

theorem issue_deleteCircuit_frame (name : String) :
    ∃ cs ps, (m.issue (m.deleteCircuit name)).1 =
      { m with circuits := cs, circuitPrefixes := ps } := by
  unfold deleteCircuit
  split <;> exact ⟨_, _, rfl⟩

/-- The circuit goes with its subnets, if there is one; the call is never refused otherwise. -/
theorem issue_deleteCircuit (name : String) (hm : m.WellKept) :
    (m.issue (m.deleteCircuit name)).1.WellKept ∧
    (∀ name', (m.issue (m.deleteCircuit name)).1.circuit name' =
      if name' = name then none else m.circuit name') ∧
    (m.issue (m.deleteCircuit name)).2 = none := by
  unfold deleteCircuit
  by_cases hany : m.circuits.any (fun c => c.cfg.name = name) = true
  · rw [if_pos hany]
    have hcircuit : ∀ name', ((m.circuits.eraseP fun c => c.cfg.name = name).find?
        fun c => c.cfg.name = name').map (·.cfg) = if name' = name then none else
          m.circuit name' := by
      intro name'
      rw [find?_eraseP_key hm.circuits name name']
      by_cases hn : name' = name
      · rw [if_pos hn, if_pos hn]
        rfl
      · rw [if_neg hn, if_neg hn]
        rfl
    refine ⟨⟨hm.flexAlgos, nodup_eraseP_key hm.circuits _, fun name' => ?_⟩, hcircuit, rfl⟩
    refine (prefixesOf_set name name' [] m.circuitPrefixes).trans ?_
    refine Eq.trans ?_ (congrArg (fun c : Option CircuitConfig =>
      (c.map fun cfg => maskedSet cfg.connectedPrefixes).getD []) (hcircuit name').symm)
    by_cases hn : name' = name
    · rw [if_pos hn, if_pos hn]
      rfl
    · rw [if_neg hn, if_neg hn]
      exact hm.subnets name'
  · rw [if_neg hany]
    have hnone : m.circuit name = none := by
      simpa [circuit, find?_eq_none] using hany
    refine ⟨hm, fun name' => ?_, rfl⟩
    change m.circuit name' = _
    by_cases hn : name' = name
    · rw [if_pos hn, hn, hnone]
    · rw [if_neg hn]

theorem circuit_takeIn (cfg : CircuitConfig) (cursor : Nat) (name : String) :
    (m.takeIn cfg cursor).circuit name =
      (m.circuit name).or (if name = cfg.name then some cfg else none) := by
  change ((m.circuits ++ [RunningCircuit.mk cfg (UInt8.ofNat cursor)]).find?
    fun c => c.cfg.name = name).map _ = _
  rw [find?_append_singleton, circuit]
  by_cases hn : name = cfg.name
  · rw [if_pos hn, if_pos hn]
    cases m.circuits.find? fun c => c.cfg.name = name <;> rfl
  · rw [if_neg hn, if_neg hn, or_none, or_none]

theorem WellKept.takeIn (hm : m.WellKept) (hnew : m.circuit cfg.name = none) (cursor : Nat) :
    (m.takeIn cfg cursor).WellKept := by
  refine ⟨hm.flexAlgos, nodup_append_singleton hm.circuits (circuit_eq_none.mp hnew),
    fun name => ?_⟩
  rw [circuit_takeIn]
  refine (prefixesOf_set cfg.name name _ m.circuitPrefixes).trans ?_
  by_cases hn : name = cfg.name
  · rw [if_pos hn, if_pos hn, hn, hnew]
    rfl
  · rw [if_neg hn, if_neg hn, or_none]
    exact hm.subnets name

/-- The octets `allocCircuitIDs` sweeps before it gives up. -/
theorem nextPseudonode_eq_none {tries cursor : Nat} (h : nextPseudonode used tries cursor = none) :
    ∀ i < tries, UInt8.ofNat ((cursor + i) % 255 + 1) ∈ used := by
  induction tries generalizing cursor with
  | zero => exact fun i hi => absurd hi (Nat.not_lt_zero i)
  | succ tries ih =>
    rw [nextPseudonode] at h
    by_cases hu : used.contains (UInt8.ofNat (cursor % 255 + 1)) = true
    · rw [if_pos hu] at h
      intro i hi
      cases i with
      | zero => exact contains_iff_mem.mp hu
      | succ i =>
        have hmem := ih h i (Nat.lt_of_succ_lt_succ hi)
        have hnext : (cursor % 255 + 1 + i) % 255 = (cursor + (i + 1)) % 255 := by omega
        rwa [hnext] at hmem
    · rw [if_neg hu] at h
      cases h

/-- With fewer than 255 circuits an octet is free. -/
theorem nextPseudonode_of_lt (h : used.length < 255) (cursor : Nat) :
    ∃ next, nextPseudonode used 255 cursor = some next := by
  cases hf : nextPseudonode used 255 cursor with
  | some next => exact ⟨next, rfl⟩
  | none =>
    exfalso
    have hall := nextPseudonode_eq_none hf
    have hinj : Set.InjOn (fun i => UInt8.ofNat ((cursor + i) % 255 + 1)) (Finset.range 255) := by
      intro i hi j hj hij
      have hi : i < 255 := Finset.mem_range.mp hi
      have hj : j < 255 := Finset.mem_range.mp hj
      have hnat := congrArg UInt8.toNat hij
      simp only [UInt8.toNat_ofNat'] at hnat
      omega
    have hcard : (Finset.range 255).card ≤ used.toFinset.card :=
      Finset.card_le_card_of_injOn _
        (fun i hi => mem_toFinset.mpr (hall i (Finset.mem_range.mp hi))) hinj
    have hle := used.toFinset_card_le
    rw [Finset.card_range] at hcard
    omega

/-- An addition that is not refused takes a circuit in that was not there. -/
theorem addCircuit_ok {m' : Managed} (h : m.addCircuit cfg = .ok m') :
    m.circuit cfg.name = none ∧ ∃ cursor, m' = m.takeIn cfg.withDefaults cursor := by
  unfold addCircuit at h
  cases hv : cfg.validate with
  | error e =>
    rw [hv] at h
    cases h
  | ok u =>
    simp only [hv] at h
    cases hf : m.circuits.find? (fun c => c.cfg.name = cfg.withDefaults.name) with
    | some cur =>
      simp only [hf] at h
      split at h <;> cases h
    | none =>
      simp only [hf] at h
      split at h
      · cases h
      split at h
      · cases h
      · cases h
        exact ⟨map_eq_none_iff.mpr hf, _, rfl⟩

section AddCircuit

variable (hv : cfg.validate = .ok ())

include hv

theorem addCircuit_absent (hnew : m.circuit cfg.name = none) (hmtu : 512 ≤ cfg.mtu - 3)
    (hroom : m.circuits.length < 255) :
    ∃ cursor, m.addCircuit cfg = .ok (m.takeIn cfg.withDefaults cursor) := by
  have hf : m.circuits.find? (fun c => c.cfg.name = cfg.withDefaults.name) = none :=
    map_eq_none_iff.mp hnew
  have hfree : (m.circuits.map (·.pseudonodeID)).length < 255 := by simpa using hroom
  obtain ⟨cursor, hcursor⟩ := nextPseudonode_of_lt hfree m.pseudonodeCursor
  refine ⟨cursor, ?_⟩
  have hwide : ¬ cfg.withDefaults.mtu - 3 < 512 := not_lt.mpr hmtu
  simp only [addCircuit, hv, hf, hcursor, if_neg hwide]

theorem addCircuit_narrow (hnew : m.circuit cfg.name = none) (hmtu : cfg.mtu - 3 < 512) :
    m.addCircuit cfg = .error (.circuitMTU cfg.name (cfg.mtu - 3)) := by
  have hf : m.circuits.find? (fun c => c.cfg.name = cfg.withDefaults.name) = none :=
    map_eq_none_iff.mp hnew
  have hnarrow : cfg.withDefaults.mtu - 3 < 512 := hmtu
  simp only [addCircuit, hv, hf, if_pos hnarrow]
  rfl

/-- A circuit that is there is the one asked for, or the call is refused with what differs. -/
theorem addCircuit_present {cur : CircuitConfig} (hcur : m.circuit cfg.name = some cur) :
    ∃ e, m.addCircuit cfg = .error e ∧ (e.alreadyInState = true ↔
      { cur with connectedPrefixes := m.prefixesOf cfg.name }.canonical =
      cfg.withDefaults.canonical) := by
  obtain ⟨c, hf, rfl⟩ := map_eq_some_iff.mp hcur
  have hf : m.circuits.find? (fun c => c.cfg.name = cfg.withDefaults.name) = some c := hf
  rw [← circuitDifferences_eq_nil]
  simp only [addCircuit, hv, hf]
  by_cases hd : circuitDifferences
      { c.cfg with connectedPrefixes := m.prefixesOf cfg.withDefaults.name } cfg.withDefaults = []
  · rw [if_pos hd]
    exact ⟨_, rfl, iff_of_true rfl hd⟩
  · rw [if_neg hd]
    exact ⟨_, rfl, iff_of_false Bool.false_ne_true hd⟩

end AddCircuit

end Managed

end Goisis.Server
