import Goisis.Server.Mutate

/-!
# The configuration file

Model of the part of `pkg/config/config.go` a reload and a start share: the records of the file, the
readings of its texts, `CircuitConfig.circuit`, and `Options`, which translates a file into the
options of the server and runs the validation that needs no socket.

Prefixes stand parsed (`netip.ParsePrefix` gives a valid prefix or refuses the file), and the keys
only a restart applies stand in the form `Options` hands them on (`RestartOnly`). What the box
answers is a `Host`: the reading of durations, and for each interface its MTU, addresses and
connected subnets.

* `options_eq_ok` — a file is accepted with exactly the options it spells out, once these validate;
* `isOk_options_probe` — whether a file is accepted does not depend on its sockets, so `Diff` may
  validate with a probe for an opener.
-/

namespace Goisis.ConfigFile

open Lib Packet Server List NodeOptions

variable {host : Host} {b : Bytes}

/-! ## Texts -/

/-- `unicode.IsSpace`. -/
def isSpace (c : Char) : Bool :=
  let n := c.toNat
  (9 ≤ n && n ≤ 13) || n == 0x20 || n == 0x85 || n == 0xa0 || n == 0x1680 ||
    (0x2000 ≤ n && n ≤ 0x200a) || n == 0x2028 || n == 0x2029 || n == 0x202f || n == 0x205f ||
    n == 0x3000

/-- `strings.TrimSpace`. -/
def trimSpace (s : String) : String :=
  String.ofList ((s.toList.dropWhile isSpace).reverse.dropWhile isSpace).reverse

/-- What a file is refused with before and by the server's own validation. -/
inductive FileError where
  /-- `circuit %q: invalid level %q (want 1, 2, or 12)` -/
  | level (circuit : String) (text : String)
  /-- `circuit %q hello-auth-algorithm: invalid auth algorithm %q …` -/
  | helloAuthAlgorithm (circuit : String) (text : String)
  /-- `circuit %q hello-interval: %w` -/
  | helloInterval (circuit : String) (text : String)
  /-- `flex-algo %d: invalid metric-type %q (want igp, delay, or te)` -/
  | metricType (algo : UInt8) (text : String)
  /-- `server.ValidateOptions` -/
  | options (e : ConfigError)
deriving DecidableEq, Repr

/-- `levels(s)`. -/
def levels (s : String) : Option (Bool × Bool) :=
  if trimSpace s = "1" then some (true, false)
  else if trimSpace s = "2" then some (false, true)
  else if trimSpace s = "" ∨ trimSpace s = "12" then some (true, true)
  else none

/-- `authAlgorithm(s)`. -/
def authAlgorithm (s : String) : Option AuthAlgorithm :=
  if trimSpace s ∈ ["", "md5", "hmac-md5"] then some .md5
  else if trimSpace s ∈ ["sha1", "sha-1", "hmac-sha-1"] then some .sha1
  else if trimSpace s ∈ ["sha256", "sha-256", "hmac-sha-256"] then some .sha256
  else if trimSpace s ∈ ["sha384", "sha-384", "hmac-sha-384"] then some .sha384
  else if trimSpace s ∈ ["sha512", "sha-512", "hmac-sha-512"] then some .sha512
  else none

/-- `flexAlgoMetricType(s)`. -/
def flexAlgoMetricType (s : String) : Option UInt8 :=
  if trimSpace s ∈ ["", "igp"] then some 0
  else if trimSpace s = "delay" then some 1
  else if trimSpace s = "te" then some 2
  else none

/-! ## Records -/

/-- What `netip.ParsePrefix` returns. -/
abbrev ParsedPrefix := { p : Prefix // p.isValid = true }

/-- `PrefixConfig`. -/
structure PrefixConfig where
  pfx : ParsedPrefix
  metric : UInt32 := 0
deriving DecidableEq

/-- `PrefixConfig.metric()`. -/
def PrefixConfig.metricOrDefault (p : PrefixConfig) : UInt32 :=
  if p.metric = 0 then defaultMetric else p.metric

/-- `config.FlexAlgoConfig`. -/
structure FlexAlgoConfig where
  algo : UInt8
  metricType : String := ""
  priority : UInt8 := 0
  advertise : Bool := false
  locator : Option ParsedPrefix := none
deriving DecidableEq

/-- `config.CircuitConfig`. -/
structure CircuitConfig where
  interface : String
  level : String := ""
  p2p : Bool := false
  priority : Option UInt8 := none
  metric : UInt32 := 0
  adminGroup : List UInt32 := []
  helloInterval : String := ""
  holdMultiplier : Int := 0
  padding : Option Bool := none
  adjacencyLimit : Option Int := none
  helloPassword : Bytes := []
  helloAcceptPasswords : List Bytes := []
  helloAuthAlgorithm : String := ""
  helloKeyID : UInt16 := 0
deriving DecidableEq

/-- The keys a reload leaves to a restart, as `Options` hands them to the server. -/
structure RestartOnly where
  hmac : Hmac
  systemID : SystemID
  areaAddrs : List Bytes := []
  hostname : Bytes := []
  areaAuth : AuthConfig := {}
  domainAuth : AuthConfig := {}
  advertiseFilter : Option AdvertiseFilter := none
  l2LeakFilter : Option AdvertiseFilter := none
  lsdbEntryLimit : Int := 0
  lspMTU : Int := 0
  overloadUntil : Option Int := none

/-- `Config`; `locators` is `SRv6.Locators`, empty without the key. -/
structure Config where
  restart : RestartOnly
  circuits : List CircuitConfig := []
  prefixes : List PrefixConfig := []
  locators : List ParsedPrefix := []
  flexAlgo : List FlexAlgoConfig := []

/-- What the box answers: `time.ParseDuration`, and what opening an interface and reading its
addresses gives. -/
structure Host where
  parseDuration : String → Option Int
  mtu : String → Int
  localSNPA : String → SNPA
  ipv4Addrs : String → List Addr
  ipv6Addrs : String → List Addr
  connectedPrefixes : String → List Prefix

/-- The box as `Diff`'s probe sees it: no transport is opened and no hello address read. -/
def Host.probe (host : Host) : Host :=
  { host with
    mtu := fun _ => 0
    localSNPA := fun _ => Octets.zero 6
    ipv4Addrs := fun _ => []
    ipv6Addrs := fun _ => [] }

/-! ## Translation -/

/-- The reading of `hello-interval`; empty leaves it to the server. -/
def Host.duration (host : Host) (s : String) : Option Int :=
  if s = "" then some 0 else host.parseDuration s

/-- `cc.circuit(open)`, with the connected subnets its callers read from the interface. -/
def CircuitConfig.circuit (host : Host) (cc : CircuitConfig) :
    Except FileError Server.CircuitConfig := do
  let l ← (levels cc.level).elim (.error (.level cc.interface cc.level)) .ok
  let algo ← (authAlgorithm cc.helloAuthAlgorithm).elim
    (.error (.helloAuthAlgorithm cc.interface cc.helloAuthAlgorithm)) .ok
  let hello ← (host.duration cc.helloInterval).elim
    (.error (.helloInterval cc.interface cc.helloInterval)) .ok
  return {
    name := cc.interface
    mtu := host.mtu cc.interface
    localSNPA := host.localSNPA cc.interface
    p2p := cc.p2p
    level1 := l.1
    level2 := l.2
    priority := cc.priority
    helloInterval := hello
    holdingMultiplier := cc.holdMultiplier
    padding := cc.padding
    adjacencyLimit := cc.adjacencyLimit
    metric := cc.metric
    adminGroup := cc.adminGroup
    ipv4Addrs := host.ipv4Addrs cc.interface
    ipv6Addrs := host.ipv6Addrs cc.interface
    connectedPrefixes := host.connectedPrefixes cc.interface
    helloPassword := cc.helloPassword
    helloAcceptPasswords := cc.helloAcceptPasswords
    helloAuthAlgorithm := algo
    helloKeyID := cc.helloKeyID }

/-- One Flexible Algorithm in the form the server takes. -/
def FlexAlgoConfig.definition (fa : FlexAlgoConfig) : Except FileError Server.FlexAlgoConfig := do
  let mt ← (flexAlgoMetricType fa.metricType).elim (.error (.metricType fa.algo fa.metricType)) .ok
  return ⟨fa.algo, mt, fa.priority, fa.advertise⟩

/-- The locators of a file: the `srv6` list for algorithm 0, then each algorithm's own. -/
def Config.locatorConfigs (c : Config) : List SRv6LocatorConfig :=
  c.locators.map (fun p => ⟨p.val, 0⟩) ++
    c.flexAlgo.filterMap fun fa => fa.locator.map fun p => ⟨p.val, fa.algo⟩

/-- The prefixes of a file with their metrics. -/
def Config.prefixConfigs (c : Config) : List AdvertisedPrefix :=
  c.prefixes.map fun p => ⟨p.pfx.val, p.metricOrDefault⟩

/-- The options a file spells out. -/
def Config.assemble (c : Config) (algos : List Server.FlexAlgoConfig)
    (circuits : List Server.CircuitConfig) : NodeOptions where
  hmac := c.restart.hmac
  systemID := c.restart.systemID
  areaAddrs := c.restart.areaAddrs
  hostname := c.restart.hostname
  circuits := circuits
  prefixes := c.prefixConfigs
  locators := c.locatorConfigs
  flexAlgos := algos
  areaAuth := c.restart.areaAuth
  domainAuth := c.restart.domainAuth
  advertiseFilter := c.restart.advertiseFilter
  l2LeakFilter := c.restart.l2LeakFilter
  lsdbEntryLimit := c.restart.lsdbEntryLimit
  lspMTU := c.restart.lspMTU
  overloadUntil := c.restart.overloadUntil

/-- `Options()`. -/
def Config.options (host : Host) (c : Config) : Except FileError NodeOptions := do
  let algos ← c.flexAlgo.mapM (·.definition)
  let circuits ← c.circuits.mapM (·.circuit host)
  let o := c.assemble algos circuits
  match o.validate with
  | .error e => .error (.options e)
  | .ok () => .ok o

/-! ## What is accepted -/

theorem mapM_eq_ok {α β ε : Type} {f : α → Except ε β} {l : List α} {r : List β} :
    l.mapM f = .ok r ↔ Forall₂ (fun a b => f a = .ok b) l r := by
  induction l generalizing r with
  | nil =>
    rw [mapM_nil, forall₂_nil_left_iff]
    exact ⟨fun h => (Except.ok.inj h).symm, fun h => by rw [h]; rfl⟩
  | cons a l ih =>
    rw [mapM_cons, forall₂_cons_left_iff]
    simp only [bind_eq_ok, ih]
    constructor
    · rintro ⟨b, hb, r', hr', h⟩
      exact ⟨b, r', hb, hr', (Except.ok.inj h).symm⟩
    · rintro ⟨b, r', hb, hr', rfl⟩
      exact ⟨b, hb, r', hr', rfl⟩

/-- **A file is accepted with the options it spells out**, once these validate. -/
theorem options_eq_ok {c : Config} {o : NodeOptions} : c.options host = .ok o ↔
      Forall₂ (fun fa d => fa.definition = .ok d) c.flexAlgo o.flexAlgos ∧
      Forall₂ (fun cc cfg => cc.circuit host = .ok cfg) c.circuits o.circuits ∧
      o = c.assemble o.flexAlgos o.circuits ∧ o.validate = .ok () := by
  simp only [Config.options, bind_eq_ok, mapM_eq_ok]
  constructor
  · rintro ⟨algos, halgos, circuits, hcircuits, h⟩
    cases hv : (c.assemble algos circuits).validate with
    | error e =>
      rw [hv] at h
      cases h
    | ok u =>
      rw [hv] at h
      cases h
      exact ⟨halgos, hcircuits, rfl, hv⟩
  · rintro ⟨halgos, hcircuits, ho, hv⟩
    refine ⟨o.flexAlgos, halgos, o.circuits, hcircuits, ?_⟩
    rw [← ho, hv]

/-- What a circuit's definition reads of its interface. -/
theorem circuit_eq_ok {cc : CircuitConfig} {cfg : Server.CircuitConfig}
    (h : cc.circuit host = .ok cfg) :
    cfg.name = cc.interface ∧ cfg.mtu = host.mtu cc.interface ∧
      cfg.ipv4Addrs = host.ipv4Addrs cc.interface ∧ cfg.ipv6Addrs = host.ipv6Addrs cc.interface ∧
      cfg.connectedPrefixes = host.connectedPrefixes cc.interface ∧
      cfg.localSNPA = host.localSNPA cc.interface := by
  simp only [CircuitConfig.circuit, bind_eq_ok] at h
  obtain ⟨l, -, algo, -, hello, -, h⟩ := h
  cases h
  exact ⟨rfl, rfl, rfl, rfl, rfl, rfl⟩

/-- A circuit without what only a socket answers. -/
def probed (cfg : Server.CircuitConfig) : Server.CircuitConfig :=
  { cfg with mtu := 0, localSNPA := Octets.zero 6, ipv4Addrs := [], ipv6Addrs := [] }

theorem circuit_probe (host : Host) (cc : CircuitConfig) :
    cc.circuit host.probe = (cc.circuit host).map probed := by
  unfold CircuitConfig.circuit
  cases levels cc.level with
  | none => rfl
  | some l =>
    cases authAlgorithm cc.helloAuthAlgorithm with
    | none => rfl
    | some algo =>
      change Except.bind ((host.duration cc.helloInterval).elim _ _) _ =
        Except.map _ (Except.bind ((host.duration cc.helloInterval).elim _ _) _)
      cases host.duration cc.helloInterval <;> rfl

theorem checkCircuits_map_probed (seen : List String) (cs : List Server.CircuitConfig) :
    checkCircuits seen (cs.map probed) = checkCircuits seen cs := by
  induction cs generalizing seen with
  | nil => rfl
  | cons c cs ih =>
    change (c.validate >>= fun _ => if seen.contains c.name then _ else
      checkCircuits (c.name :: seen) _) = _
    rw [ih]
    rfl

theorem validate_probed (c : Config) (algos : List Server.FlexAlgoConfig)
    (cs : List Server.CircuitConfig) :
    (c.assemble algos (cs.map probed)).validate = (c.assemble algos cs).validate := by
  have hlen : (cs.map probed).length = cs.length := length_map probed
  simp only [validate, Config.assemble, hlen, checkCircuits_map_probed]
  rfl

/-- **Whether a file is accepted does not depend on its sockets.** -/
theorem isOk_options_probe {c : Config} :
    (∃ o, c.options host.probe = .ok o) ↔ ∃ o, c.options host = .ok o := by
  constructor
  · rintro ⟨o, ho⟩
    obtain ⟨halgos, hcircuits, ho, hv⟩ := options_eq_ok.mp ho
    have hall : ∀ l r, Forall₂ (fun cc cfg => CircuitConfig.circuit host.probe cc = .ok cfg) l r →
        ∃ r', Forall₂ (fun cc cfg => CircuitConfig.circuit host cc = .ok cfg) l r' ∧
          r = r'.map probed := by
      intro l r h
      induction h with
      | nil => exact ⟨[], .nil, rfl⟩
      | @cons cc cfg l r hcc hl ih =>
        obtain ⟨r', hr', rfl⟩ := ih
        rw [circuit_probe] at hcc
        cases hc : cc.circuit host with
        | error e =>
          rw [hc] at hcc
          cases hcc
        | ok cfg' =>
          rw [hc] at hcc
          cases hcc
          exact ⟨cfg' :: r', .cons hc hr', rfl⟩
    obtain ⟨cs, hcs, heq⟩ := hall _ _ hcircuits
    refine ⟨c.assemble o.flexAlgos cs, options_eq_ok.mpr ⟨halgos, hcs, rfl, ?_⟩⟩
    rw [← validate_probed, ← heq, ← ho]
    exact hv
  · rintro ⟨o, ho⟩
    obtain ⟨halgos, hcircuits, ho, hv⟩ := options_eq_ok.mp ho
    refine ⟨c.assemble o.flexAlgos (o.circuits.map probed), options_eq_ok.mpr ⟨halgos, ?_, rfl, ?_⟩⟩
    · refine forall₂_map_right_iff.mpr (hcircuits.imp fun cc cfg hcc => ?_)
      rw [circuit_probe, hcc]
      rfl
    · rw [validate_probed, ← ho]
      exact hv

/-! ## Masking -/

theorem take_maskOctets {n k : Nat} (h : 8 * k ≤ n) : (maskOctets n b).take k = b.take k := by
  induction b generalizing n k with
  | nil => rfl
  | cons x b ih =>
    cases k with
    | zero => rfl
    | succ k =>
      have hexp : 8 - n = 0 := by omega
      rw [maskOctets, take_succ_cons, take_succ_cons, ih (by omega), hexp]
      simp

/-- An octet of ones in a masked address has all its bits inside the mask. -/
theorem le_of_mask_ones {n i : Nat} (h : (maskOctets n b)[i]? = some 0xff) : 8 * (i + 1) ≤ n := by
  rw [getElem?_maskOctets] at h
  obtain ⟨x, -, hx⟩ := Option.map_eq_some_iff.mp h
  by_contra hlt
  obtain ⟨k, hk⟩ : ∃ k, 8 - (n - 8 * i) = k + 1 := ⟨8 - (n - 8 * i) - 1, by omega⟩
  rw [hk] at hx
  have hle : x.toNat / 2 ^ (k + 1) * 2 ^ (k + 1) ≤ x.toNat := Nat.div_mul_le_self _ _
  have hval := congrArg UInt8.toNat hx
  rw [UInt8.toNat_ofNat_of_lt' (lt_of_le_of_lt hle x.toNat_lt)] at hval
  have heven : 2 ∣ x.toNat / 2 ^ (k + 1) * 2 ^ (k + 1) :=
    Dvd.dvd.mul_left (dvd_pow_self 2 (Nat.succ_ne_zero k)) _
  rw [hval] at heven
  revert heven
  decide

theorem mapped4_of_mask {n : Nat} (h : mapped4 (maskOctets n b) = true) : mapped4 b = true := by
  have h12 : (maskOctets n b).take 12 = replicate 10 0 ++ [0xff, 0xff] := of_decide_eq_true h
  have hlast : (maskOctets n b)[11]? = some 0xff := by
    have hidx := congrArg (fun l => l[11]?) h12
    rwa [getElem?_take_of_lt (by decide)] at hidx
  have hle : 8 * 12 ≤ n := le_of_mask_ones hlast
  rw [take_maskOctets hle] at h12
  exact decide_eq_true h12

/-- Masking leaves an IPv6 prefix an IPv6 prefix. -/
theorem masked_ipv6 {p : Prefix} (hp : p.isValid = true)
    (h : (!p.addr.is6 || is4In6 p.addr) = false) :
    (!p.masked.addr.is6 || is4In6 p.masked.addr) = false := by
  have hbits : 0 ≤ p.bits := of_decide_eq_true hp
  obtain ⟨h6, h4⟩ := Bool.or_eq_false_iff.mp h
  rw [Prefix.masked, if_pos hbits]
  obtain ⟨a, bits⟩ := p
  refine Bool.or_eq_false_iff.mpr ⟨?_, ?_⟩
  · cases a <;> first | rfl | exact h6
  · rw [← Bool.not_eq_true] at h4 ⊢
    intro hm
    apply h4
    cases a with
    | zero => cases h6
    | v4 o => cases h6
    | v6 o => exact mapped4_of_mask hm
    | v6Zone o zone => exact mapped4_of_mask hm

theorem check_masked {p : Prefix} {metric : UInt32}
    (h : checkAdvertisedPrefix ⟨p, metric⟩ = .ok ()) :
    checkAdvertisedPrefix ⟨p.masked, metric⟩ = .ok () := by
  have hvalid : p.isValid = true := by
    by_contra hv
    rw [checkAdvertisedPrefix, if_pos (by simpa using hv)] at h
    cases h
  have hbits : 0 ≤ p.bits := of_decide_eq_true hvalid
  have hmasked : p.masked.isValid = true := by
    rw [Prefix.masked, if_pos hbits]
    exact hvalid
  simp only [checkAdvertisedPrefix, hvalid, hmasked, Prefix.masked_masked] at h ⊢
  exact h

/-! ## What an accepted file describes -/

theorem exists_of_forall₂ {α β : Type} {R : α → β → Prop} {l : List α} {r : List β}
    (h : Forall₂ R l r) {a : α} (ha : a ∈ l) : ∃ b ∈ r, R a b := by
  induction h with
  | nil => cases ha
  | cons hab _ ih =>
    rcases mem_cons.mp ha with rfl | ha
    · exact ⟨_, mem_cons_self, hab⟩
    · obtain ⟨b, hb, hR⟩ := ih ha
      exact ⟨b, mem_cons_of_mem _ hb, hR⟩

section Accepted

variable {host : Host} {c : Config} {o : NodeOptions} (h : c.options host = .ok o)

include h

theorem valid_of_options : o.Valid := valid_of_validate (options_eq_ok.mp h).2.2.2

/-- The masked form of a locator of the file is one `AddLocator` takes, for an algorithm the file
defines. -/
theorem locator_of_listed {p : Prefix} {algo : UInt8} (hp : algo ∈ o.managed.listed p) :
    (!p.addr.is6 || is4In6 p.addr) = false ∧ (algo = 0 ∨ o.managed.flexAlgo algo ≠ none) := by
  obtain ⟨lc, hlc, rfl, rfl⟩ := mem_listing.mp hp
  have hcheck := (valid_of_options h).locators lc hlc
  have hvalid : lc.pfx.isValid = true := by
    have hmem : lc ∈ c.locatorConfigs := by
      have heq : o.locators = c.locatorConfigs := by rw [(options_eq_ok.mp h).2.2.1]; rfl
      exact heq ▸ hlc
    rcases mem_append.mp hmem with hmem | hmem
    · obtain ⟨p, -, rfl⟩ := mem_map.mp hmem
      exact p.property
    · obtain ⟨fa, -, hfa⟩ := mem_filterMap.mp hmem
      obtain ⟨p, -, rfl⟩ := Option.map_eq_some_iff.mp hfa
      exact p.property
  by_cases h6 : (!lc.pfx.addr.is6 || is4In6 lc.pfx.addr) = true
  · rw [checkLocator, if_pos h6] at hcheck
    cases hcheck
  refine ⟨masked_ipv6 hvalid (by simpa using h6), ?_⟩
  rw [checkLocator, if_neg h6] at hcheck
  by_contra hpart
  rw [not_or, not_not] at hpart
  have hnot : lc.algo ∉ o.flexAlgos.map (·.algo) := find?_key_eq_none.mp hpart.2
  rw [if_pos ⟨hpart.1, by simpa using hnot⟩] at hcheck
  cases hcheck

/-- The masked form of a prefix of the file is one `AddPrefix` takes. -/
theorem check_of_named {p : Prefix} {metric : UInt32}
    (hp : o.managed.optionPrefixes.lookup p = some metric) :
    p.masked = p ∧ checkAdvertisedPrefix ⟨p, metric⟩ = .ok () := by
  have hp : (Map.ofList (o.prefixes.map fun p => (p.pfx.masked, p.metric))).lookup p =
      some metric := hp
  rw [Map.lookup_ofList_listing] at hp
  obtain ⟨q, hq, rfl, rfl⟩ := mem_listing.mp (mem_of_getLast? hp)
  exact ⟨Prefix.masked_masked _, check_masked ((valid_of_options h).prefixes q hq)⟩

theorem names_options : o.circuits.map (·.name) = c.circuits.map (·.interface) := by
  have hall : Forall₂ Eq (o.circuits.map (·.name)) (c.circuits.map (·.interface)) :=
    forall₂_map_left_iff.mpr (forall₂_map_right_iff.mpr
      ((options_eq_ok.mp h).2.1.flip.imp fun _ _ hcc => (circuit_eq_ok hcc).1))
  rwa [forall₂_eq_eq_eq] at hall

theorem interfaces_nodup : (c.circuits.map (·.interface)).Nodup :=
  names_options h ▸ (valid_of_options h).circuitsNodup

/-- A circuit of the file is one the options describe, under its interface. -/
theorem circuit_of_mem {cc : CircuitConfig} (hcc : cc ∈ c.circuits) :
    ∃ cfg ∈ o.circuits, cc.circuit host = .ok cfg ∧ cfg.name = cc.interface ∧
      o.managed.circuit cc.interface = some cfg.withDefaults := by
  obtain ⟨cfg, hcfg, hok⟩ := exists_of_forall₂ (options_eq_ok.mp h).2.1 hcc
  have hname := (circuit_eq_ok hok).1
  refine ⟨cfg, hcfg, hok, hname, ?_⟩
  rw [circuit_managed, ← hname, find?_key_of_mem (valid_of_options h).circuitsNodup hcfg]
  rfl

/-- A circuit the options describe stands in the file. -/
theorem mem_of_circuit {name : String} {cfg : Server.CircuitConfig}
    (hcfg : o.managed.circuit name = some cfg) : ∃ cc ∈ c.circuits, cc.interface = name := by
  rw [circuit_managed] at hcfg
  obtain ⟨cfg', hfind, -⟩ := Option.map_eq_some_iff.mp hcfg
  obtain ⟨hmem, hname⟩ := find?_key_eq_some hfind
  have hmem' : name ∈ c.circuits.map (·.interface) :=
    names_options h ▸ hname ▸ mem_map_of_mem hmem
  exact mem_map.mp hmem'

theorem circuit_eq_none_of_not_mem {name : String} (hname : name ∉ c.circuits.map (·.interface)) :
    o.managed.circuit name = none := by
  cases hcfg : o.managed.circuit name with
  | none => rfl
  | some cfg => exact absurd (mem_map.mpr (mem_of_circuit h hcfg)) hname

end Accepted

end Goisis.ConfigFile
