import Goisis.Server.State

/-!
# Flexible Algorithms

Model of `pkg/server/flexalgo.go`: the election of a definition among the advertised ones
(`flexAlgoState`), its translation into the admin-group rules SPF prunes with
(`flexAlgoAffinityOf`), and the pruning of one IS-reachability entry (`prunesLink`).

The state of a level maps an algorithm to its elected definition, which is all that SPF reads; the
participant list of a `FlexAlgoInfo` is for display and follows in `Goisis.Server.Election`.
Refusals keep no text: nothing but the log reads it.
-/

namespace Goisis.Server

open Lib Packet

/-! ## Link colours -/

/-- `ASLAAppFlexAlgo`, the X-bit of the standard application mask. -/
def aslaAppFlexAlgo : UInt8 := 0x10

/-- `(*ASLASubTLV).Apps(app)`. -/
def aslaApps (a : ASLA) (app : UInt8) : Bool := a.sabm.length > 0 && at8 a.sabm 0 &&& app != 0

/-- `(*ASLASubTLV).AnyApp()`. -/
def aslaAnyApp (a : ASLA) : Bool := a.sabm.length == 0 && a.udabm.length == 0

/-- `flexAlgoASLAs(subs)`: those that name the application, else those for any application. -/
def flexAlgoASLAs (subs : List SubTLV) : List ASLA :=
  let aslas := subs.filterMap fun sub =>
    match sub with
    | .asla a => some a
    | _ => none
  let forFlexAlgo := aslas.filter (aslaApps · aslaAppFlexAlgo)
  if forFlexAlgo.length = 0 then
    aslas.filter fun a => !aslaApps a aslaAppFlexAlgo && aslaAnyApp a
  else forFlexAlgo

/-- The union of two colour masks, the shorter one padded with zero words. -/
def orWords : List UInt32 → List UInt32 → List UInt32
  | [], ws => ws
  | vs, [] => vs
  | v :: vs, w :: ws => (v ||| w) :: orWords vs ws

/-- `adminGroupColors(subs)`, over the admin groups of a sub-TLV list. -/
def adminGroupColors (groups : List AdminGroup) : List UInt32 :=
  groups.foldl (fun out g => orWords out g.groups) []

/-- `flexAlgoLinkColors(subs)`: one L-flag sends the application to the legacy sub-TLVs. -/
def flexAlgoLinkColors (subs : List SubTLV) : List UInt32 :=
  let aslas := flexAlgoASLAs subs
  if aslas.any (·.legacy) then
    adminGroupColors (subs.filterMap fun sub =>
      match sub with
      | .adminGroup g => some g
      | _ => none)
  else
    adminGroupColors (aslas.flatMap fun a => a.subSubTLVs.filterMap fun attr =>
      match attr with
      | .adminGroup g => some g
      | .unknown _ => none)

/-! ## Affinity rules -/

/-- `flexAlgoAffinity`. -/
structure FlexAlgoAffinity where
  exclude : List UInt32 := []
  includeAny : List UInt32 := []
  includeAll : List UInt32 := []
deriving DecidableEq, Repr

/-- `empty()`. -/
def FlexAlgoAffinity.empty (a : FlexAlgoAffinity) : Bool :=
  a.exclude.length == 0 && a.includeAny.length == 0 && a.includeAll.length == 0

/-- `anyColorSet(rule, color)`. -/
def anyColorSet : List UInt32 → List UInt32 → Bool
  | w :: ws, c :: cs => w &&& c != 0 || anyColorSet ws cs
  | _, _ => false

/-- `allColorsSet(rule, color)`: a word the link does not advertise is all zeros. -/
def allColorsSet : List UInt32 → List UInt32 → Bool
  | [], _ => true
  | w :: ws, [] => w &&& 0 == w && allColorsSet ws []
  | w :: ws, c :: cs => w &&& c == w && allColorsSet ws cs

/-- `prunesLink(subs)`: whether the entry is pruned, and whether it carries attributes of its
own. -/
def FlexAlgoAffinity.prunesLink (a : FlexAlgoAffinity) (subs : List SubTLV) : Bool × Bool :=
  if a.empty then (false, false)
  else
    let hasAttrs := (flexAlgoASLAs subs).length > 0
    let color := flexAlgoLinkColors subs
    (anyColorSet a.exclude color || a.includeAny.length > 0 && !anyColorSet a.includeAny color ||
      a.includeAll.length > 0 && !allColorsSet a.includeAll color, hasAttrs)

/-! ## The election -/

/-- `FlexAlgoDefinition` with its advertiser, a candidate of the election. -/
structure ElectedDefinition where
  metricType : UInt8
  calcType : UInt8
  priority : UInt8
  advertiser : SystemID
  constraints : List FlexAlgoSubSub
deriving DecidableEq, Repr

/-- `FlexAlgoMetricIGP`. -/
def flexAlgoMetricIGP : UInt8 := 0

/-- `repeatedConstraint(cons)`. -/
def repeatedConstraint (cons : List FlexAlgoSubSub) : Bool :=
  !decide (cons.map (·.subSubTLVType)).Nodup

/-- `winsElection(cand, best)`. -/
def winsElection (cand : ElectedDefinition) (best : Option ElectedDefinition) : Bool :=
  match best with
  | none => true
  | some best =>
    if cand.priority ≠ best.priority then cand.priority > best.priority
    else best.advertiser.val < cand.advertiser.val

/-- The definitions one LSP contributes: its first for each algorithm, unless that one repeats a
constraint. -/
def contributedFADs (sys : SystemID) (tlvs : List TLV) : List (UInt8 × ElectedDefinition) :=
  let fads := tlvs.flatMap fun tlv =>
    match tlv with
    | .routerCapability _ _ subs => subs.filterMap fun sub =>
        match sub with
        | .flexAlgoDef d => some d
        | _ => none
    | _ => []
  let first := fads.foldl (fun acc d =>
    if acc.any (·.flexAlgo == d.flexAlgo) then acc else acc ++ [d]) []
  (first.filter fun d => !repeatedConstraint d.subSubTLVs).map fun d =>
    (d.flexAlgo, ⟨d.metricType, d.calcType, d.priority, sys, d.subSubTLVs⟩)

/-- `flexAlgoState(level, now)`: the elected definition of every algorithm that has one. -/
def IsisServer.flexAlgoState (s : IsisServer) (level : Level) (now : Int) :
    Map UInt8 ElectedDefinition :=
  match s.dbs level with
  | none => ∅
  | some db =>
    (db.entries.flatMap fun entry =>
      if !entry.2.live now || entry.1.fragmentID != 0 then []
      else contributedFADs entry.1.nodeID.systemID entry.2.lsp.tlvs).foldl
      (fun out cand =>
        if winsElection cand.2 (out.lookup cand.1) then out.insert cand.1 cand.2 else out) ∅

/-! ## From a definition to rules -/

/-- `flexAlgoWords(v)`. -/
def flexAlgoWords (v : Bytes) : Option (List UInt32) :=
  if v.length = 0 ∨ v.length % 4 ≠ 0 then none
  else some ((List.range (v.length / 4)).map fun i => u32At v (4 * i))

/-- `flexAlgoFlagsSupported(v)`: every bit but the M-flag of the first octet has to be clear. -/
def flexAlgoFlagsSupported : Bytes → Bool
  | [] => true
  | b :: bs => b &&& 0x7f == 0 && bs.all (· == 0)

/-- `flexAlgoAffinityOf(def)`; `none` for a constraint that is not evaluated. -/
def flexAlgoAffinityOf (d : ElectedDefinition) : Option FlexAlgoAffinity :=
  d.constraints.foldlM (fun a ss =>
    if ss.subSubTLVType = 4 then
      if flexAlgoFlagsSupported ss.value then some a else none
    else if ss.subSubTLVType = 1 then
      (flexAlgoWords ss.value).map fun ws => { a with exclude := ws }
    else if ss.subSubTLVType = 2 then
      (flexAlgoWords ss.value).map fun ws => { a with includeAny := ws }
    else if ss.subSubTLVType = 3 then
      (flexAlgoWords ss.value).map fun ws => { a with includeAll := ws }
    else none) {}

end Goisis.Server
