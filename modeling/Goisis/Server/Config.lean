import Goisis.Server.Rib
import Mathlib.Data.Prod.Lex
import Mathlib.Data.String.Basic

/-!
# Configuration

Model of `pkg/server/config.go`: the configuration records, what is refused at the trust boundary
(`CircuitConfig.validate`, `checkAdvertisedPrefix`, `options.validate`), and the records an LSP is
built from (`aslaSubTLVs`, `locatorEntry`), with the predicates and orders of `net/netip` these and
origination rest on.

A refusal is a `ConfigError`: one constructor per error text, with what the text prints. The
transport of a circuit is its MTU.

* `addrLE` — `Compare` of `netip.Addr` is a total order, so sorting by it is canonical.
-/

namespace Goisis.Server

open Lib Packet

/-! ## `net/netip` predicates -/

variable (a : Addr)

/-- `Addr.Is4In6`. -/
def is4In6 : Bool :=
  match a.withoutZone with
  | .v6 o => mapped4 o.val
  | _ => false

/-- `Addr.Unmap`. -/
def unmap : Addr := if is4In6 a then .v4 (Octets.ofList 4 (a.octets.drop 12)) else a

/-- `Addr.IsMulticast`. -/
def isMulticast : Bool :=
  match (unmap a).withoutZone with
  | .v4 o => at8 o.val 0 &&& 0xf0 == 0xe0
  | .v6 o => at8 o.val 0 == 0xff
  | _ => false

/-- `Addr.IsLoopback`. -/
def isLoopback : Bool :=
  match (unmap a).withoutZone with
  | .v4 o => at8 o.val 0 == 127
  | .v6 o => o.val == List.replicate 15 0 ++ [1]
  | _ => false

/-- `Addr.IsUnspecified`. -/
def isUnspecified : Bool := a == .v4 (Octets.zero 4) || a == .v6 (Octets.zero 16)

/-- The IPv4 broadcast address, which `IsGlobalUnicast` leaves out. -/
def isBroadcast : Bool :=
  match a with
  | .v4 o => o.val == List.replicate 4 0xff
  | _ => false

/-- `Addr.IsGlobalUnicast`. -/
def isGlobalUnicast : Bool :=
  a.isValid && !isBroadcast (unmap a) && !isUnspecified (unmap a) && !isLoopback a &&
    !isMulticast a && !isLinkLocalUnicast a

/-! ## `net/netip` orders -/

/-- `Addr.Zone`, told apart from no zone, which comes first. -/
def zoneKey : Addr → ℕ ×ₗ String
  | .v6Zone _ zone => toLex (1, zone)
  | _ => toLex (0, "")

/-- What `Addr.Compare` compares, in its order. -/
def addrKey : ℕ ×ₗ List ℕ ×ₗ ℕ ×ₗ String :=
  toLex (a.bitLen, toLex (a.octets.map UInt8.toNat, zoneKey a))

/-- What `Prefix.Compare` compares, in its order. -/
def prefixKey (p : Prefix) : (ℕ ×ₗ List ℕ ×ₗ ℕ ×ₗ String) ×ₗ ℤ ×ₗ ℕ ×ₗ List ℕ ×ₗ ℕ ×ₗ String :=
  toLex (addrKey p.masked.addr, toLex (p.bits, addrKey p.addr))

/-- `a.Compare(b) <= 0` on addresses. -/
def addrLE (a b : Addr) : Prop := addrKey a ≤ addrKey b

/-- `a.Compare(b) <= 0` on prefixes. -/
def prefixLE (a b : Prefix) : Prop := prefixKey a ≤ prefixKey b

instance : DecidableRel addrLE := fun a b => inferInstanceAs (Decidable (addrKey a ≤ addrKey b))

instance : DecidableRel prefixLE :=
    fun a b => inferInstanceAs (Decidable (prefixKey a ≤ prefixKey b))

instance : IsTrans Addr addrLE := ⟨fun _ _ _ => le_trans⟩

instance : Std.Total addrLE := ⟨fun a b => le_total (addrKey a) (addrKey b)⟩

theorem octets_inj {n : Nat} {a b : Octets n} (h : a.val.map UInt8.toNat = b.val.map UInt8.toNat) :
    a = b :=
  Subtype.ext (List.map_injective_iff.mpr (fun _ _ => UInt8.toNat_inj.mp) h)

theorem addrKey_injective : Function.Injective addrKey := by
  intro a b h
  have hlen : a.bitLen = b.bitLen := congrArg (fun k => (ofLex k).1) h
  have hoct : a.octets.map UInt8.toNat = b.octets.map UInt8.toNat :=
    congrArg (fun k => (ofLex (ofLex k).2).1) h
  have hzone : zoneKey a = zoneKey b := congrArg (fun k => (ofLex (ofLex k).2).2) h
  have hflag := congrArg (fun k => (ofLex k).1) hzone
  have hname := congrArg (fun k => (ofLex k).2) hzone
  cases a with
  | zero => cases b <;> first | rfl | cases hlen
  | v4 o =>
    cases b with
    | v4 o' => exact congrArg Addr.v4 (octets_inj hoct)
    | _ => cases hlen
  | v6 o =>
    cases b with
    | v6 o' => exact congrArg Addr.v6 (octets_inj hoct)
    | v6Zone o' zone => cases hflag
    | _ => cases hlen
  | v6Zone o zone =>
    cases b with
    | v6 o' => cases hflag
    | v6Zone o' zone' =>
      have hz : zone = zone' := hname
      rw [octets_inj hoct, hz]
    | _ => cases hlen

instance : Std.Antisymm addrLE := ⟨fun _ _ h h' => addrKey_injective (le_antisymm h h')⟩

/-! ## Records -/

/-- `AdvertisedPrefix`. -/
structure AdvertisedPrefix where
  pfx : Prefix
  metric : UInt32
deriving DecidableEq, Repr

/-- `AdvertiseFilter`, over the fields of its `AdvertisedPrefix`. -/
abbrev AdvertiseFilter := Prefix → UInt32 → Bool

/-- `FlexAlgoConfig`. -/
structure FlexAlgoConfig where
  algo : UInt8
  metricType : UInt8 := 0
  priority : UInt8 := 0
  advertiseDefinition : Bool := false
deriving DecidableEq, Repr

/-- `AuthConfig`. -/
structure AuthConfig where
  algorithm : AuthAlgorithm := .md5
  keyID : UInt16 := 0
  secret : Bytes := []
  acceptSecrets : List Bytes := []
deriving DecidableEq, Repr

/-- `acceptKeys(passwords)`: an empty entry is dropped. -/
def acceptKeys (passwords : List Bytes) : List Bytes := passwords.filter fun pw => !pw.isEmpty

/-- `AuthConfig.spec`. -/
def AuthConfig.spec (a : AuthConfig) : AuthSpec :=
  if a.secret.isEmpty then {} else ⟨a.algorithm, a.keyID, a.secret, acceptKeys a.acceptSecrets⟩

/-- `SRv6LocatorConfig`. -/
structure SRv6LocatorConfig where
  pfx : Prefix
  algo : UInt8 := 0
deriving DecidableEq, Repr

/-- `SRv6BehaviorEnd`. -/
def srv6BehaviorEnd : UInt16 := 1

/-- `SRv6BehaviorEndX`. -/
def srv6BehaviorEndX : UInt16 := 5

/-- `uint8(n)`. -/
def toUInt8 (n : Int) : UInt8 := UInt8.ofNat (n % 256).toNat

namespace SRv6LocatorConfig

variable (l : SRv6LocatorConfig)

/-- `endSID()`. -/
def endSID : Addr := l.pfx.masked.addr

/-- The length of the function part of `sidStructure()`: 16 bits where there is room. -/
def functionBits : Int :=
  if l.pfx.bits + 16 > 128 then 128 - l.pfx.bits else 16

/-- `sidStructure()`. -/
def sidStructure : SIDStructure where
  locatorBlock := toUInt8 (min l.pfx.bits 32)
  locatorNode := toUInt8 (l.pfx.bits - min l.pfx.bits 32)
  function := toUInt8 l.functionBits
  argument := 0

/-- `locatorEntry()`. -/
def locatorEntry : SRv6Locator where
  metric := 0
  flags := 0
  algorithm := l.algo
  locator := l.pfx.masked
  endSIDs := [⟨0, srv6BehaviorEnd, l.endSID, some l.sidStructure, []⟩]
  unknown := []

end SRv6LocatorConfig

/-! ## Link attributes -/

/-- `maxSubTLVArea`: the TLV value less the header of an entry. -/
def maxSubTLVArea : Nat := 255 - 11

/-- `maxLinkAttrArea`. -/
def maxLinkAttrArea : Nat := maxSubTLVArea / 2

/-- `subTLVLen(sub)`: one that does not serialize counts as too long for any area. -/
def subTLVLen (sub : SubTLV) : Nat :=
  match sub.serialize with
  | .error _ => maxSubTLVArea + 1
  | .ok b => b.length

/-- `subTLVsLen(subs)`. -/
def subTLVsLen (subs : List SubTLV) : Nat := (subs.map subTLVLen).sum

/-- `(*CircuitConfig).aslaSubTLVs`: colours that fit one word go out in the plain encoding. -/
def CircuitConfig.aslaSubTLVs (c : CircuitConfig) : List SubTLV :=
  if c.adminGroup.isEmpty then []
  else [.asla ⟨false, [aslaAppFlexAlgo], [],
    [.adminGroup ⟨decide (c.adminGroup.length > 1), c.adminGroup⟩]⟩]

/-! ## Refusals -/

/-- The scope `requirePrimaryPassword` names. -/
inductive AuthScope where
  /-- `goisis: area authentication` -/
  | area
  /-- `goisis: domain authentication` -/
  | domain
  /-- `circuit %q hello authentication` -/
  | hello (circuit : String)
deriving DecidableEq, Repr

/-- What a configuration is refused with. -/
inductive ConfigError where
  /-- `circuit: empty name` -/
  | emptyName
  /-- `circuit %q: priority %d exceeds 127` -/
  | priorityExceeds (circuit : String) (priority : UInt8)
  /-- `circuit %q: link attributes are %d octets, over the 122 an IS reachability entry can spare
  for them (admin group: %d words)` -/
  | linkAttributes (circuit : String) (octets words : Nat)
  /-- `%s: accept passwords require a primary password` -/
  | acceptWithoutPrimary (scope : AuthScope)
  /-- `goisis: prefix %s is not a valid prefix` -/
  | invalidPrefix (p : Prefix)
  /-- `goisis: prefix %s is not routable; multicast, unspecified, link-local and IPv4-mapped
  prefixes are never originated` -/
  | notRoutable (p : Prefix)
  /-- `goisis: prefix %s metric %d is at or above the reachability ceiling 4261412864` -/
  | unreachableMetric (p : Prefix) (metric : UInt32)
  /-- `goisis: Flex-Algo %d is reserved; use 128-255` -/
  | reservedFlexAlgo (algo : UInt8)
  /-- `goisis: duplicate Flex-Algo %d configuration` -/
  | duplicateFlexAlgo (algo : UInt8)
  /-- `goisis: SRv6 locator %s must be IPv6` -/
  | locatorNotIPv6 (p : Prefix)
  /-- `goisis: SRv6 locator %s is bound to Flex-Algo %d but the node does not participate in it` -/
  | locatorNotParticipating (p : Prefix) (algo : UInt8)
  /-- `goisis: %d circuits exceed the 255 pseudonode octets available` -/
  | tooManyCircuits (n : Nat)
  /-- `goisis: circuit %q is configured twice` -/
  | circuitTwice (circuit : String)
  /-- `goisis: all 255 pseudonode octets are in use` -/
  | noPseudonode
  /-- `goisis: LSP MTU %d is below the 512-octet minimum` -/
  | lspMTU (size : Int)
deriving DecidableEq, Repr

/-- `requirePrimaryPassword(scope, primary, accept)`. -/
def requirePrimaryPassword (scope : AuthScope) (primary : Bytes) (accept : List Bytes) :
    Except ConfigError Unit :=
  if primary.isEmpty ∧ accept.length > 0 then .error (.acceptWithoutPrimary scope) else .ok ()

/-- `MaxPriority`. -/
def maxPriority : UInt8 := 127

/-- `(*CircuitConfig).validate`. -/
def CircuitConfig.validate (c : CircuitConfig) : Except ConfigError Unit :=
  if c.name = "" then .error .emptyName
  else if c.priority.getD 0 > maxPriority then .error (.priorityExceeds c.name (c.priority.getD 0))
  else if subTLVsLen c.aslaSubTLVs > maxLinkAttrArea then
    .error (.linkAttributes c.name (subTLVsLen c.aslaSubTLVs) c.adminGroup.length)
  else requirePrimaryPassword (.hello c.name) c.helloPassword c.helloAcceptPasswords

/-- `DefaultMetric`. -/
def defaultMetric : UInt32 := 10

/-- `DefaultHelloInterval`. -/
def defaultHelloInterval : Int := 3 * second

/-- `DefaultHoldingMultiplier`. -/
def defaultHoldingMultiplier : Int := 10

/-- The defaults `(*CircuitConfig).applyDefaults` fills in once the circuit has validated. -/
def CircuitConfig.withDefaults (c : CircuitConfig) : CircuitConfig :=
  { c with
    level1 := c.level1 || !c.level2
    level2 := c.level2 || !c.level1
    helloInterval := if c.helloInterval = 0 then defaultHelloInterval else c.helloInterval
    holdingMultiplier :=
      if c.holdingMultiplier = 0 then defaultHoldingMultiplier else c.holdingMultiplier
    metric := if c.metric = 0 then defaultMetric else c.metric }

/-- `checkAdvertisedPrefix(p)`. -/
def checkAdvertisedPrefix (p : AdvertisedPrefix) : Except ConfigError Unit :=
  let want := p.pfx.masked
  let a := want.addr
  if !p.pfx.isValid then .error (.invalidPrefix p.pfx)
  else if is4In6 a || isMulticast a || isLinkLocalUnicast a ||
    (isUnspecified a && want.bits != 0) then
    .error (.notRoutable want)
  else if p.metric.toNat ≥ maxPathMetric then .error (.unreachableMetric want p.metric)
  else .ok ()

/-- The options `NewIsisServer` reads. -/
structure NodeOptions where
  hmac : Hmac
  systemID : SystemID
  areaAddrs : List Bytes := []
  hostname : Bytes := []
  circuits : List CircuitConfig := []
  prefixes : List AdvertisedPrefix := []
  connected : List Prefix := []
  locators : List SRv6LocatorConfig := []
  flexAlgos : List FlexAlgoConfig := []
  areaAuth : AuthConfig := {}
  domainAuth : AuthConfig := {}
  advertiseFilter : Option AdvertiseFilter := none
  l2LeakFilter : Option AdvertiseFilter := none
  lsdbEntryLimit : Int := 0
  lspMTU : Int := 0
  overloadUntil : Option Int := none

/-- The loop of `validate` over the Flexible Algorithms; `participated` holds those before. -/
def checkFlexAlgos (participated : List UInt8) : List FlexAlgoConfig → Except ConfigError Unit
  | [] => .ok ()
  | fa :: rest =>
    if fa.algo < 128 then .error (.reservedFlexAlgo fa.algo)
    else if participated.contains fa.algo then .error (.duplicateFlexAlgo fa.algo)
    else checkFlexAlgos (fa.algo :: participated) rest

/-- A locator is IPv6, and its algorithm is 0 or one the node participates in. -/
def checkLocator (participated : List UInt8) (l : SRv6LocatorConfig) : Except ConfigError Unit :=
  if !l.pfx.addr.is6 || is4In6 l.pfx.addr then .error (.locatorNotIPv6 l.pfx)
  else if l.algo ≠ 0 ∧ ¬ participated.contains l.algo then
    .error (.locatorNotParticipating l.pfx l.algo)
  else .ok ()

/-- The loop of `validate` over the circuits; `seen` holds the names before. -/
def checkCircuits (seen : List String) : List CircuitConfig → Except ConfigError Unit
  | [] => .ok ()
  | c :: rest => do
    c.validate
    if seen.contains c.name then .error (.circuitTwice c.name) else
      checkCircuits (c.name :: seen) rest

/-- `options.validate`. -/
def NodeOptions.validate (o : NodeOptions) : Except ConfigError Unit := do
  requirePrimaryPassword .area o.areaAuth.secret o.areaAuth.acceptSecrets
  requirePrimaryPassword .domain o.domainAuth.secret o.domainAuth.acceptSecrets
  o.prefixes.forM checkAdvertisedPrefix
  checkFlexAlgos [] o.flexAlgos
  o.locators.forM (checkLocator (o.flexAlgos.map (·.algo)))
  if o.circuits.length > 255 then .error (.tooManyCircuits o.circuits.length)
  else checkCircuits [] o.circuits

end Goisis.Server
