import Goisis.Lib.Packing
import Goisis.Server.EndX
import Goisis.Server.Run
import Goisis.Server.Snp

/-!
# Originating our own LSPs

Model of `pkg/server/origination.go`: what this node says about itself (the TLVs of its node LSP and
of the pseudonode LSPs it is responsible for), how they are cut into entries, TLVs and fragments,
and the regeneration that brings the database in line with it (`regenerateLSPs`).

The three splitters are instances of greedy packing (`Goisis.Lib.Packing`): `appendISReach` spreads
sub-TLVs over entries, `tlvChunks` entries over TLVs, `packLSPFragments` TLVs over fragments. The
random draw behind each refresh deadline is an argument, by level and LSP ID.

* `splitters_minimal` — the source's loop for `tlvChunks` ends with these TLVs, the fewest that
  carry the entries, and only a fragment that could not be smaller exceeds the budget.
-/

namespace Goisis.Server

open Lib Packet

/-! ## The splitters -/

/-- `appendISReach`: the entries it appends for one neighbour. The link attributes `attrs` are
repeated on each, the sub-TLVs `subs` are spread over them. -/
def appendISReach (id : NodeID) (metric : UInt32) (attrs subs : List SubTLV) : List ISReachEntry :=
  (pack (fun taken sub => !taken.isEmpty &&
      decide (subTLVsLen attrs + subTLVsLen (taken ++ [sub]) > maxSubTLVArea)) [] subs).map
    fun taken => ⟨id, metric, attrs ++ taken⟩

/-- `tlvChunks(entries, mk)`. -/
def tlvChunks {E : Type} (mk : List E → TLV) (entries : List E) : List TLV :=
  (chunks (fun es => (mk es).serialize.isOk) entries).map mk

/-- `tlvsLen(tlvs)`. -/
def tlvsLen (tlvs : List TLV) : Nat := (tlvs.map tlvLen).sum

/-- `packLSPFragments(fixed, variable, budget)`. -/
def packLSPFragments (fixed vars : List TLV) (budget : Int) : List (List TLV) :=
  pack (fun cur t => !cur.isEmpty && decide ((tlvsLen (cur ++ [t]) : Int) > budget)) fixed vars

/-! ## Storing fragments -/

/-- The order `regeneratePseudonodeLSPs` sorts the members of a LAN in. -/
def nodeIDLE (a b : NodeID) : Prop := a.toBytes ≤ b.toBytes

instance : DecidableRel nodeIDLE := fun a b => inferInstanceAs (Decidable (a.toBytes ≤ b.toBytes))

namespace IsisServer

variable (s : IsisServer)

/-- The fragment ID a system's LSP gets: `lspIDFrag(s.systemID, pseudonode, fragment)`. -/
def ownID (pseudonode fragment : UInt8) : LSPID := ⟨⟨s.systemID, pseudonode⟩, fragment⟩

/-- The octets `originateFragmented` leaves for the TLVs of a fragment. -/
def fragmentBudget (level : Level) : Int :=
  s.lspBufferSize - lspHeaderLen -
    if (s.authKey level).on then (tlvLen (authTLVPlaceholder (s.authKey level)) : Int) else 0

/-- One entry of `purgeStaleFragments`. -/
def purgeStale (level : Level) (pseudonode : UInt8) (keep : Nat) (now : Int) (id : LSPID) :
    IsisServer :=
  if id.nodeID = ⟨s.systemID, pseudonode⟩ ∧ keep ≤ id.fragmentID.toNat then s.purgeLive level id now
  else s

/-- `purgeStaleFragments(level, pseudonode, keep, now)`, in the order of the database. -/
def purgeStaleFragments (level : Level) (pseudonode : UInt8) (keep : Nat) (now : Int) :
    IsisServer :=
  match s.dbs level with
  | none => s
  | some db => db.keys.foldl (fun s id => s.purgeStale level pseudonode keep now id) s

/-- One fragment of `originateFragmented`, with its number. -/
def originateFragment (level : Level) (pseudonode : UInt8) (att force : Bool) (now : Int)
    (jitter : Level → LSPID → Int) (x : List TLV × Nat) : IsisServer :=
  let id := s.ownID pseudonode (UInt8.ofNat x.2)
  s.originate level id x.1 (att && x.2 == 0) force now (jitter level id)

/-- The loop of `originateFragmented` over the fragments. -/
def originateFragments (level : Level) (pseudonode : UInt8) (frags : List (List TLV))
    (att force : Bool) (now : Int) (jitter : Level → LSPID → Int) : IsisServer :=
  frags.zipIdx.foldl (fun s x => s.originateFragment level pseudonode att force now jitter x) s

/-- `originateFragmented`: what does not fit in 256 fragments is cut off. -/
def originateFragmented (level : Level) (pseudonode : UInt8) (fixed vars : List TLV)
    (att force : Bool) (now : Int) (jitter : Level → LSPID → Int) : IsisServer :=
  let frags := packLSPFragments fixed vars (s.fragmentBudget level)
  (s.originateFragments level pseudonode (frags.take 256) att force now jitter).purgeStaleFragments
    level pseudonode (min frags.length 256) now

/-- The TLVs of a pseudonode LSP: ourselves and the advertised adjacencies, at metric 0. -/
def memberTLVs (level : Level) (c : Circuit) : List TLV :=
  let members : List NodeID :=
    ⟨s.systemID, 0⟩ :: (c.advertisedAdjacencies level).map fun a => ⟨a.systemID, 0⟩
  tlvChunks .extendedISReachability ((members.insertionSort nodeIDLE).map fun n => ⟨n, 0, []⟩)

/-- One circuit of `regeneratePseudonodeLSPs`. -/
def regeneratePseudonode (level : Level) (force : Bool) (now : Int) (jitter : Level → LSPID → Int)
    (c : Circuit) : IsisServer :=
  if c.cfg.p2p then s
  else if !c.isDIS level s.systemID then s.purgeStaleFragments level c.pseudonodeID 0 now
  else s.originateFragmented level c.pseudonodeID [] (s.memberTLVs level c) false force now jitter

/-- `regeneratePseudonodeLSPs(level, forceRefresh, now)`. -/
def regeneratePseudonodeLSPs (level : Level) (force : Bool) (now : Int)
    (jitter : Level → LSPID → Int) : IsisServer :=
  s.circuits.foldl (fun s c => s.regeneratePseudonode level force now jitter c) s

end IsisServer

/-! ## What this node says about itself -/

namespace NodeServer

variable (s : NodeServer)

/-- `routerCapabilitySubTLVs(level)`. -/
def routerCapabilitySubTLVs (level : Level) : List SubTLV :=
  (if s.locators.isEmpty then [] else [.srv6Capabilities 0 []]) ++
    if s.flexAlgos.isEmpty then []
    else
      -- an algorithm not computed at this level keeps its definition only
      .srAlgorithm (0 :: (s.flexAlgos.filter fun fa => (level, fa.algo) ∈ s.flexAlgoComputed).map
        (·.algo)) ::
      (s.flexAlgos.filter (·.advertiseDefinition)).map fun fa =>
        .flexAlgoDef ⟨fa.algo, fa.metricType, 0, fa.priority, []⟩

/-- `routerID()`. -/
def routerID : Addr :=
  ((s.circuits.flatMap (·.cfg.ipv4Addrs)).find? (·.is4)).getD .zero

/-- `lspIPv6Addrs()`. -/
def lspIPv6Addrs : List Addr :=
  (s.circuits.flatMap (·.cfg.ipv6Addrs)).foldl (fun out a =>
    if !a.is6 || is4In6 a || !isGlobalUnicast a || out.contains a then out else out ++ [a]) []

/-- The TLVs that stay in fragment 0. -/
def fixedTLVs (level : Level) : List TLV :=
  [.areaAddresses s.areaAddrs, .protocolsSupported [nlpidIPv4, nlpidIPv6]] ++
    (if s.hostname.isEmpty then [] else [.dynamicHostname s.hostname]) ++
    (if (s.routerCapabilitySubTLVs level).isEmpty then []
      else [.routerCapability s.routerID 0 (s.routerCapabilitySubTLVs level)]) ++
    tlvChunks .ipv6InterfaceAddresses s.lspIPv6Addrs

/-- The Extended IS Reachability entries of one circuit: the neighbour on point-to-point, the
pseudonode on a LAN. -/
def circuitReach (level : Level) (c : Circuit) : List ISReachEntry :=
  if c.cfg.p2p then
    match c.p2pAdj with
    | none => []
    | some adj =>
      if adj.state = .up ∧ adj.levels.has level ∧ !adj.suppressed then
        appendISReach ⟨adj.systemID, 0⟩ c.cfg.metric c.cfg.aslaSubTLVs (s.endXSubTLVs c adj)
      else []
  else
    match c.adjs level with
    | none => []
    | some _ =>
      if c.dis level = zeroNodeID ∨ (c.advertisedAdjacencies level).length = 0 then []
      else appendISReach (c.dis level) c.cfg.metric c.cfg.aslaSubTLVs (s.lanEndXSubTLVs c level)

/-- The list `neighbors` of `regenerateNodeLSP`. -/
def isReach (level : Level) : List ISReachEntry :=
  s.circuits.flatMap (s.circuitReach level)

/-- One prefix of one circuit in `originatedPrefixes()`: the better of two metrics. -/
def offerPrefix (metric : UInt32) (m : Map Prefix UInt32) (p : Prefix) : Map Prefix UInt32 :=
  match m.lookup p with
  | none => m.insert p metric
  | some cur => if metric < cur then m.insert p metric else m

/-- The map of `originatedPrefixes()`: connected subnets, and over them the prefixes an option or
`AddPrefix` named. -/
def originatedMetrics : Map Prefix UInt32 :=
  s.optionPrefixes.entries.foldl (fun m e => m.insert e.1 e.2)
    (s.circuits.foldl (fun m c => (s.prefixesOf c.cfg.name).foldl (offerPrefix c.cfg.metric) m) ∅)

/-- `originatedPrefixes()`. -/
def originatedPrefixes : List AdvertisedPrefix :=
  (s.originatedMetrics.sorted prefixLE).map fun e => ⟨e.1, e.2⟩

/-- The export policy on one prefix. -/
def advertises (p : Prefix) (metric : UInt32) : Bool :=
  match s.advertiseFilter with
  | none => true
  | some f => f p metric

/-- `min(m, maxPathMetric-1)`. -/
def clampMetric (m : UInt32) : UInt32 := min m (UInt32.ofNat (maxPathMetric - 1))

/-- The prefixes of our own that the export policy lets out. -/
def ownReach : List PrefixReach :=
  (s.originatedPrefixes.filter fun p => s.advertises p.pfx p.metric).map fun p =>
    { metric := p.metric, down := false, pfx := p.pfx, subTLVs := [] }

/-- The algorithm 0 locators, mirrored at metric 0. -/
def mirroredReach : List PrefixReach :=
  (s.locators.filter (·.algo = 0)).map fun lc =>
    { metric := 0, down := false, pfx := lc.pfx.masked, subTLVs := [] }

/-- What an L1L2 node carries up from its area, through the export policy. -/
def exportedReach (level : Level) : List PrefixReach :=
  if level = .level2 ∧ s.levelCap.has .level1 then
    ((s.l1Export.sorted prefixLE).filter fun e => s.advertises e.1 (clampMetric e.2)).map fun e =>
      { metric := clampMetric e.2, down := false, pfx := e.1, subTLVs := [] }
  else []

/-- What an L1L2 node leaks down, marked as such. -/
def leakedReach (level : Level) : List PrefixReach :=
  if level = .level1 ∧ s.levelCap.has .level2 then
    (s.l2Leak.sorted prefixLE).map fun e =>
      { metric := clampMetric e.2, down := true, pfx := e.1, subTLVs := [] }
  else []

/-- The list `v4` of `regenerateNodeLSP`. -/
def reach4 (level : Level) : List PrefixReach :=
  (s.ownReach ++ s.exportedReach level ++ s.leakedReach level).filter (·.pfx.addr.is4)

/-- The list `v6` of `regenerateNodeLSP`. -/
def reach6 (level : Level) : List PrefixReach :=
  s.ownReach.filter (!·.pfx.addr.is4) ++ s.mirroredReach ++
    (s.exportedReach level ++ s.leakedReach level).filter (!·.pfx.addr.is4)

/-- The TLVs that may spill into further fragments. -/
def variableTLVs (level : Level) : List TLV :=
  tlvChunks .extendedISReachability (s.isReach level) ++
    tlvChunks .extendedIPReachability (s.reach4 level) ++
    tlvChunks .ipv6Reachability (s.reach6 level) ++
    tlvChunks (.srv6Locator 0) (s.locators.map (·.locatorEntry))

/-- The attached bit of our node LSP: a Level 1 node that reaches Level 2. -/
def attached (level : Level) : Bool := level == .level1 && s.levelCap.has .level2

/-- The same node around another server. -/
def withBase (b : IsisServer) : NodeServer := { s with toIsisServer := b }

/-- The fragments of our node LSP. -/
def nodeFragments (level : Level) : List (List TLV) :=
  packLSPFragments (s.fixedTLVs level) (s.variableTLVs level) (s.fragmentBudget level)

/-! ## Regeneration -/

/-- `regenerateNodeLSP(level, forceRefresh, now)`. -/
def regenerateNodeLSP (level : Level) (force : Bool) (now : Int) (jitter : Level → LSPID → Int) :
    NodeServer :=
  { s with
    toIsisServer := s.originateFragmented level 0 (s.fixedTLVs level) (s.variableTLVs level)
      (s.attached level) force now jitter }

/-- One level of `regenerateLSPs`. -/
def regenerateLevel (force : Bool) (now : Int) (jitter : Level → LSPID → Int) (level : Level) :
    NodeServer :=
  let s := s.regenerateNodeLSP level force now jitter
  { s with toIsisServer := s.regeneratePseudonodeLSPs level force now jitter }

/-- `regenerateLSPs(forceRefresh, now)`. -/
def regenerateLSPs (force : Bool) (now : Int) (jitter : Level → LSPID → Int) : NodeServer :=
  let s := s.syncEndXSIDs now
  s.levelCap.levels.foldl (fun s level => s.regenerateLevel force now jitter level) s

end NodeServer

/-! ## What the splitters return -/

section Splitters

open List

variable {E : Type} {mk : List E → TLV}

/-- The loop of `tlvChunks`: the chunk under way begins at `start`, and an entry that no longer fits
is looked at again. `none` is out of fuel. -/
def tlvChunksLoop (mk : List E → TLV) (entries : List E) :
    Nat → Nat → Nat → List TLV → Option (List TLV)
  | 0, _, _, _ => none
  | fuel + 1, start, i, out =>
    if i < entries.length then
      if (mk ((entries.take (i + 1)).drop start)).serialize.isOk then
        tlvChunksLoop mk entries fuel start (i + 1) out
      else if i = start then
        tlvChunksLoop mk entries fuel (i + 1) (i + 1)
        (out ++ [mk ((entries.take (i + 1)).drop start)])
      else
        -- `i--`, undone by the loop's own `i++`
        tlvChunksLoop mk entries fuel i i (out ++ [mk ((entries.take i).drop start)])
    else if start < entries.length then some (out ++ [mk (entries.drop start)])
    else some out

/-- The loop with `d` behind it and `g` under way. Each turn takes an entry or ends a chunk. -/
theorem tlvChunksLoop_eq {fuel : Nat} {d g r : List E} {o : List TLV}
    (hg : g = [] ∨ (mk g).serialize.isOk = true)
    (hfuel : 2 * r.length + (if g = [] then 0 else 1) < fuel) :
    tlvChunksLoop mk (d ++ (g ++ r)) fuel d.length (d.length + g.length) o =
      some (o ++ (if (g ++ r).isEmpty then [] else
        pack (overflows fun es => (mk es).serialize.isOk) g r).map mk) := by
  induction fuel generalizing d g r o with
  | zero => omega
  | succ fuel ih =>
    cases r with
    | nil =>
      unfold tlvChunksLoop
      cases g with
      | nil => simp
      | cons b g => simp [pack]
    | cons a as =>
      have hlt : d.length + g.length < (d ++ (g ++ a :: as)).length := by simp
      have hnext : ((d ++ (g ++ a :: as)).take (d.length + g.length + 1)).drop d.length =
          g ++ [a] := by
        rw [Nat.add_assoc, take_length_add_append, drop_left, take_length_add_append]
        simp
      have hnow : ((d ++ (g ++ a :: as)).take (d.length + g.length)).drop d.length = g := by
        rw [take_length_add_append, drop_left, take_left]
      have hne : (g ++ a :: as).isEmpty = false := by simp
      unfold tlvChunksLoop
      rw [if_pos hlt, hnext, hnow, hne, if_neg Bool.false_ne_true, pack]
      by_cases hfit : (mk (g ++ [a])).serialize.isOk = true
      · have hroom : overflows (fun es => (mk es).serialize.isOk) g a = false :=
          overflows_eq_false.mpr (hg.imp_right fun hg => ⟨hg, hfit⟩)
        have hgrown := ih (d := d) (g := g ++ [a]) (r := as) (o := o) (.inr hfit)
          (by simp at hfuel ⊢; omega)
        rw [if_pos hfit, hroom, if_neg Bool.false_ne_true]
        simpa [Nat.add_assoc] using hgrown
      · rw [if_neg hfit]
        by_cases hnil : g = []
        · -- the entry does not fit by itself
          subst hnil
          have halone := ih (d := d ++ [a]) (g := []) (r := as) (o := o ++ [mk [a]]) (.inl rfl)
            (by simp at hfuel ⊢; omega)
          rw [if_pos (by simp), overflows_nil, if_neg Bool.false_ne_true, nil_append]
          rw [nil_append] at hfit
          cases as with
          | nil => simpa [pack] using halone
          | cons b bs =>
            have hover : overflows (fun es => (mk es).serialize.isOk) [a] b = true := by
              simp [overflows, hfit]
            simpa [pack, hover, overflows_nil] using halone
        · have hfresh := ih (d := d ++ g) (g := []) (r := a :: as) (o := o ++ [mk g])
            (.inl rfl) (by simp [hnil] at hfuel ⊢; omega)
          have hover : overflows (fun es => (mk es).serialize.isOk) g a = true := by
            simp [overflows, hnil, hfit]
          rw [if_neg (by simpa using hnil), hover, if_pos rfl]
          simpa [pack, overflows_nil] using hfresh

/-- A fragment after the first is not empty, and one that exceeds the budget is a single TLV; the
first may also be what it was given. -/
theorem packLSPFragments_cases (fixed vars : List TLV) (budget : Int) :
    ∃ first rest, packLSPFragments fixed vars budget = first :: rest ∧ fixed <+: first ∧
      (first = fixed ∨ (tlvsLen first : Int) ≤ budget ∨ first.length = 1) ∧
      ∀ f ∈ rest, f ≠ [] ∧ ((tlvsLen f : Int) ≤ budget ∨ f.length = 1) := by
  have hgrow : ∀ (g : List TLV) t,
      (!g.isEmpty && decide ((tlvsLen (g ++ [t]) : Int) > budget)) = false →
      g ++ [t] ≠ [] ∧ ((tlvsLen (g ++ [t]) : Int) ≤ budget ∨ (g ++ [t]).length = 1) := by
    intro g t hfull
    refine ⟨by simp, ?_⟩
    cases g with
    | nil => exact .inr rfl
    | cons u g => exact .inl (by simpa using hfull)
  obtain ⟨first, rest, heq, hfirst, hrest⟩ := pack_forall
    (P := fun f => f ≠ [] ∧ ((tlvsLen f : Int) ≤ budget ∨ f.length = 1)) (by simp) hgrow fixed vars
  obtain ⟨more, rest', heq'⟩ := pack_eq_cons
    (fun g t => !g.isEmpty && decide ((tlvsLen (g ++ [t]) : Int) > budget)) fixed vars
  obtain ⟨rfl, -⟩ := cons_eq_cons.mp (heq.symm.trans heq')
  exact ⟨_, rest, heq, prefix_append fixed more, hfirst.imp_right And.right, hrest⟩

/-- **The splitters lose nothing and split no more than they must.** The loop of `tlvChunks` ends,
and its chunks are the entries in order, each of several entries serializing; where serializing
passes to the parts of a list, no partition like it has fewer chunks. The fragments are the TLVs in
order, only the first may be empty, and one exceeds the budget only as the fixed TLVs alone or as a
single TLV. -/
theorem splitters_minimal (mk : List E → TLV) (entries : List E) (fixed vars : List TLV)
    (budget : Int) (hmono : ∀ g h, g <:+: entries → h <:+: g → (mk g).serialize.isOk = true →
      (mk h).serialize.isOk = true) :
    (∀ fuel, 2 * entries.length < fuel →
      tlvChunksLoop mk entries fuel 0 0 [] = some (tlvChunks mk entries)) ∧
    (∃ parts : List (List E), tlvChunks mk entries = parts.map mk ∧ parts.flatten = entries ∧
      (∀ c ∈ parts, 1 < c.length → (mk c).serialize.isOk = true) ∧
      (∀ c ∈ parts, (mk c).serialize.isOk = false → c.length = 1) ∧
      ∀ p : List (List E), p.flatten = entries →
        (∀ c ∈ p, 1 < c.length → (mk c).serialize.isOk = true) → parts.length ≤ p.length) ∧
    ∃ first rest, packLSPFragments fixed vars budget = first :: rest ∧
      (first :: rest).flatten = fixed ++ vars ∧ fixed <+: first ∧ (∀ f ∈ rest, f ≠ []) ∧
      ((tlvsLen first : Int) > budget → first = fixed ∨ first.length = 1) ∧
      ∀ f ∈ rest, (tlvsLen f : Int) > budget → f.length = 1 := by
  refine ⟨fun fuel hfuel => ?_, ?_, ?_⟩
  · exact tlvChunksLoop_eq (d := []) (g := []) (.inl rfl) (by simpa using hfuel)
  · refine ⟨_, rfl, flatten_chunks _ entries, fun c hc => (chunks_fit hc).2, ?_, ?_⟩
    · intro c hc hfail
      obtain ⟨hne, hfit⟩ := chunks_fit hc
      have hpos := length_pos_of_ne_nil hne
      by_contra hlen
      simp [hfit (by omega)] at hfail
    · rintro p rfl hp
      exact length_chunks_le hmono infix_rfl hp
  · obtain ⟨first, rest, heq, hfixed, hfirst, hrest⟩ := packLSPFragments_cases fixed vars budget
    refine ⟨first, rest, heq, ?_, hfixed, fun f hf => (hrest f hf).1, ?_, ?_⟩
    · rw [← heq, packLSPFragments, flatten_pack]
    · intro hover
      exact hfirst.imp_right fun h => h.resolve_left (by omega)
    · intro f hf hover
      exact (hrest f hf).2.resolve_left (by omega)

theorem splitters_minimal_protocols :
    tlvChunksLoop .protocolsSupported (replicate 300 0xcc) 601 0 0 [] =
        some [.protocolsSupported (replicate 255 0xcc), .protocolsSupported (replicate 45 0xcc)] ∧
      ∀ p : List Bytes, p.flatten = replicate 300 0xcc → (∀ c ∈ p, c.length ≤ 255) →
        2 ≤ p.length := by
  have hok : ∀ g : Bytes, (TLV.protocolsSupported g).serialize.isOk = decide (g.length ≤ 255) := by
    intro g
    simp only [TLV.serialize, encodeTLV, frame]
    by_cases hg : g.length > 255
    · rw [if_pos hg, decide_eq_false (by omega)]
      rfl
    · rw [if_neg hg, decide_eq_true (by omega)]
      rfl
  obtain ⟨hloop, ⟨parts, hparts, -, -, -, hmin⟩, -⟩ :=
    splitters_minimal .protocolsSupported (replicate 300 0xcc) [] [] 0 (by
      intro g h _ hh hfit
      rw [hok, decide_eq_true_eq] at hfit ⊢
      exact hh.length_le.trans hfit)
  have hchunks : tlvChunks .protocolsSupported (replicate 300 0xcc) =
      [.protocolsSupported (replicate 255 0xcc), .protocolsSupported (replicate 45 0xcc)] := by
    decide +kernel
  refine ⟨(hloop 601 (by rw [length_replicate]; decide)).trans (congrArg some hchunks),
    fun p hp hfit => ?_⟩
  have hlen : parts.length = 2 := by
    rw [← length_map (f := TLV.protocolsSupported), ← hparts, hchunks]
    rfl
  have hle := hmin p hp fun c hc _ => by rw [hok, decide_eq_true (hfit c hc)]
  omega

end Splitters

end Goisis.Server
