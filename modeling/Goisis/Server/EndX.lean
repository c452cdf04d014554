import Goisis.Server.Node

/-!
# End.X SIDs

Model of `pkg/server/srv6_endx.go`: which adjacencies get an End.X SID from which locator
(`endXAdjs`, `endXNexthop`, `endXParticipates`), the allocation of function values
(`allocEndXSID`), and the reconciliation that runs in front of every regeneration (`syncEndXSIDs`).
Programming the SIDs into the forwarding plane and the warnings are left out.

A SID that stays wanted keeps its address and function.

* `keeps_foldl_assignSID` — the allocation loop takes no SID away;
* `settled_foldl_assignSID` — after it every wanted key is served, or its locator has nothing left.
-/

namespace Goisis.Server

open Lib Packet List

/-! ## Adjacencies -/

/-- The adjacencies a range over a circuit's adjacency maps collects by system ID, in order. -/
def adjacenciesByID (adjs : List Adjacency) : List Adjacency :=
  let seen : Map SystemID Adjacency := adjs.foldl (fun m a => m.insert a.systemID a) ∅
  (seen.sorted hopLE).map (·.2)

/-- The Up adjacencies of a circuit that get End.X SIDs, one per neighbour. -/
def Circuit.endXNeighbors (c : Circuit) : List Adjacency :=
  if c.cfg.p2p then c.p2pAdj.toList.filter (·.state = .up)
  else adjacenciesByID (c.cfg.levels.flatMap c.upAdjacencies)

/-- A SID an adjacency should have: its key, the locator it comes from, and where it forwards to. -/
structure WantedSID where
  key : EndXKey
  locator : SRv6LocatorConfig
  nexthop : Addr
deriving DecidableEq, Repr

namespace NodeServer

variable (s : NodeServer)

/-- `endXAdjs()`. -/
def endXAdjs : List (Circuit × Adjacency) :=
  s.circuits.flatMap fun c => c.endXNeighbors.map fun a => (c, a)

/-- `onLinkAddr(c, addrs)`; `none` is the invalid address. -/
def onLinkAddr (c : Circuit) (addrs : List Addr) : Option Addr :=
  addrs.find? fun a => a.is6 && !is4In6 a && isGlobalUnicast a &&
    ((s.prefixesOf c.cfg.name).any (containsAddr · a) || s.optionConnected.any (containsAddr · a))

/-- `neighborLSP(level, id, now)`. -/
def neighborLSP (level : Level) (id : SystemID) (now : Int) : Option LspEntry :=
  (s.entryAt level ⟨⟨id, 0⟩, 0⟩).filter (·.live now)

/-- `endXNexthop(c, adj, now)`. -/
def endXNexthop (c : Circuit) (adj : Adjacency) (now : Int) : Option Addr :=
  (s.onLinkAddr c adj.neighborIPv6).or <| adj.levels.levels.findSome? fun l =>
      (s.neighborLSP l adj.systemID now).bind fun e =>
        e.lsp.tlvs.findSome? fun tlv =>
          match tlv with
          | .ipv6InterfaceAddresses addrs => s.onLinkAddr c addrs
          | _ => none

/-- `endXParticipates(lc, adj, now)`. -/
def endXParticipates (lc : SRv6LocatorConfig) (adj : Adjacency) (now : Int) : Bool :=
  lc.algo == 0 || adj.levels.levels.any fun l =>
    (s.neighborLSP l adj.systemID now).any (lspParticipatesInAlgo · lc.algo)

/-- What `syncEndXSIDs` wants, in the order it allocates. -/
def wantedSIDs (now : Int) : List WantedSID :=
  s.endXAdjs.flatMap fun ea =>
    (s.endXNexthop ea.1 ea.2 now).toList.flatMap fun nh =>
      (s.locators.filter (s.endXParticipates · ea.2 now)).map fun lc =>
        ⟨⟨lc.pfx.masked, ea.1.cfg.name, ea.2.systemID⟩, lc, nh⟩

end NodeServer

/-! ## Allocation -/

/-- `b[pos/8] |= 1 << (7 - pos%8)`, with the truncated division of the source. -/
def setBit (b : Bytes) (pos : Int) : Bytes :=
  b.modify (pos.tdiv 8).toNat (· ||| UInt8.ofNat (2 ^ (7 - pos.tmod 8).toNat))

/-- `locatorSID(loc, fnBits, fn)`. -/
def locatorSID (loc : Prefix) (fnBits fn : Nat) : Addr :=
  .v6 (Octets.ofList 16 ((range fnBits).foldl
    (fun b i => if fn.testBit (fnBits - 1 - i) then setBit b (loc.bits + i) else b) loc.addr.as16))

variable (sids : Map EndXKey AllocatedSID)

/-- The functions of a locator in use. -/
def usedFunctions (loc : Prefix) : List Nat :=
  (sids.entries.filter fun e => e.1.locator = loc).map fun e => e.2.function

/-- The smallest unused function of a locator: function 0 is the End SID. -/
def freeFunction (lc : SRv6LocatorConfig) : Option Nat :=
  (range' 1 (2 ^ lc.sidStructure.function.toNat - 1)).find?
    fun fn => !(usedFunctions sids lc.pfx.masked).contains fn

/-- `allocEndXSID(lc)`: `none` when the locator has no function bits or no function is left. -/
def allocEndXSID (lc : SRv6LocatorConfig) : Option AllocatedSID :=
  (freeFunction sids lc).map fun fn =>
    ⟨locatorSID lc.pfx.masked lc.sidStructure.function.toNat fn, fn, .zero⟩

/-- One wanted SID of the allocation loop of `syncEndXSIDs`. -/
def assignSID (w : WantedSID) : Map EndXKey AllocatedSID :=
  match (sids.lookup w.key).or (allocEndXSID sids w.locator) with
  | none => sids
  | some e => sids.insert w.key { e with nexthop := w.nexthop }

/-- The release loop of `syncEndXSIDs`: what is no longer wanted goes. -/
def releaseSIDs (wanted : List WantedSID) : Map EndXKey AllocatedSID :=
  sids.filterMap fun k e => if k ∈ wanted.map (·.key) then some e else none

namespace NodeServer

variable (s : NodeServer)

/-- `syncEndXSIDs(now)`: the SIDs it leaves. Without locators and SIDs the source returns at once,
which is what the loops come to. -/
def syncedSIDs (now : Int) : Map EndXKey AllocatedSID :=
  (s.wantedSIDs now).foldl assignSID (releaseSIDs s.endXSIDs (s.wantedSIDs now))

/-- `syncEndXSIDs(now)`. -/
def syncEndXSIDs (now : Int) : NodeServer :=
  { s with endXSIDs := s.syncedSIDs now }

/-! ## Advertising -/

/-- `endXSubTLV(lc, c, adj)`. -/
def endXSubTLV (lc : SRv6LocatorConfig) (c : Circuit) (adj : Adjacency) : Option EndXSID :=
  (s.endXSIDs.lookup ⟨lc.pfx.masked, c.cfg.name, adj.systemID⟩).map fun e =>
    ⟨0, lc.algo, 0, srv6BehaviorEndX, e.sid, some lc.sidStructure, []⟩

/-- `endXSubTLVs(c, adj)`. -/
def endXSubTLVs (c : Circuit) (adj : Adjacency) : List SubTLV :=
  (s.locators.filterMap fun lc => s.endXSubTLV lc c adj).map .endXSID

/-- `lanEndXSubTLVs(c, level)`. -/
def lanEndXSubTLVs (c : Circuit) (level : Level) : List SubTLV :=
  (adjacenciesByID (c.advertisedAdjacencies level)).flatMap fun adj =>
    (s.locators.filterMap fun lc => s.endXSubTLV lc c adj).map (.lanEndXSID adj.systemID)

end NodeServer

/-! ## What an allocation depends on -/

/-- What stays of a SID while it is wanted. -/
def AllocatedSID.identity (e : AllocatedSID) : Addr × Nat := (e.sid, e.function)

/-- Every SID of the first table is in the second. -/
def KeepsSIDs (a b : Map EndXKey AllocatedSID) : Prop :=
  ∀ k i, (a.lookup k).map (·.identity) = some i → (b.lookup k).map (·.identity) = some i

theorem KeepsSIDs.trans {a b c : Map EndXKey AllocatedSID} (h : KeepsSIDs a b)
    (h' : KeepsSIDs b c) :
    KeepsSIDs a c := fun k i hk => h' k i (h k i hk)

theorem mem_usedFunctions {sids : Map EndXKey AllocatedSID} {loc : Prefix} {fn : Nat} :
    fn ∈ usedFunctions sids loc ↔
      ∃ k i, (sids.lookup k).map (·.identity) = some i ∧ k.locator = loc ∧ i.2 = fn := by
  unfold usedFunctions
  rw [mem_map]
  constructor
  · rintro ⟨⟨k, e⟩, he, rfl⟩
    rw [mem_filter] at he
    have hk : sids.lookup k = some e := AList.mem_lookup_iff.mpr he.1
    exact ⟨k, e.identity, by rw [hk, Option.map_some], by simpa using he.2, rfl⟩
  · rintro ⟨k, i, he, hloc, rfl⟩
    obtain ⟨e, hk, rfl⟩ := Option.map_eq_some_iff.mp he
    exact ⟨⟨k, e⟩, mem_filter.mpr ⟨AList.mem_lookup_iff.mp hk, by simpa using hloc⟩, rfl⟩

theorem usedFunctions_subset {a b : Map EndXKey AllocatedSID} (h : KeepsSIDs a b) (loc : Prefix) :
    usedFunctions a loc ⊆ usedFunctions b loc := by
  intro fn hfn
  obtain ⟨k, i, hk, hloc, hi⟩ := mem_usedFunctions.mp hfn
  exact mem_usedFunctions.mpr ⟨k, i, h k i hk, hloc, hi⟩

/-- A locator that is exhausted stays so while no SID is released. -/
theorem freeFunction_eq_none {a b : Map EndXKey AllocatedSID} (h : KeepsSIDs a b)
    {lc : SRv6LocatorConfig} (hnone : freeFunction a lc = none) : freeFunction b lc = none := by
  unfold freeFunction at hnone ⊢
  rw [find?_eq_none] at hnone ⊢
  intro fn hfn
  have hused := hnone fn hfn
  simp only [Bool.not_eq_true', Bool.not_eq_false, contains_iff_mem] at hused ⊢
  exact usedFunctions_subset h _ hused

/-! ## One wanted SID -/

/-- What a wanted SID is afterwards: the one it had, or a fresh one if there is one. -/
theorem identity_assignSID (w : WantedSID) (k : EndXKey) :
    ((assignSID sids w).lookup k).map (·.identity) =
      if k = w.key then ((sids.lookup k).or (allocEndXSID sids w.locator)).map (·.identity)
      else (sids.lookup k).map (·.identity) := by
  unfold assignSID
  by_cases hk : k = w.key
  · subst hk
    rw [if_pos rfl]
    cases he : (sids.lookup w.key).or (allocEndXSID sids w.locator) with
    | none => rw [(Option.or_eq_none_iff.mp he).1]
    | some e =>
      simp only [Map.lookup_insert_ite, if_true, Option.map_some, AllocatedSID.identity]
  · rw [if_neg hk]
    cases (sids.lookup w.key).or (allocEndXSID sids w.locator) with
    | none => rfl
    | some e => simp only [Map.lookup_insert_ite, if_neg hk]

theorem keeps_assignSID (w : WantedSID) : KeepsSIDs sids (assignSID sids w) := by
  intro k i hk
  rw [identity_assignSID]
  split
  · obtain ⟨e, he, rfl⟩ := Option.map_eq_some_iff.mp hk
    rw [he, Option.some_or, Option.map_some]
  · exact hk

/-! ## The loop -/

theorem keeps_foldl_assignSID (ws : List WantedSID) (sids : Map EndXKey AllocatedSID) :
    KeepsSIDs sids (ws.foldl assignSID sids) := by
  induction ws generalizing sids with
  | nil => exact fun _ _ h => h
  | cons w ws ih => exact (keeps_assignSID sids w).trans (ih _)

/-- After the loop every wanted key is served, or its locator has nothing left. -/
theorem settled_foldl_assignSID {ws : List WantedSID} (sids : Map EndXKey AllocatedSID)
    {w : WantedSID} (hw : w ∈ ws) : ((ws.foldl assignSID sids).lookup w.key).isSome = true ∨
      freeFunction (ws.foldl assignSID sids) w.locator = none := by
  induction ws generalizing sids with
  | nil => cases hw
  | cons x ws ih =>
    rcases mem_cons.mp hw with rfl | hw
    · have hkeep := keeps_foldl_assignSID ws (assignSID sids w)
      cases hfree : freeFunction sids w.locator with
      | none => exact .inr (freeFunction_eq_none ((keeps_assignSID sids w).trans hkeep) hfree)
      | some fn =>
        left
        have hserved : (((assignSID sids w).lookup w.key).map (·.identity)).isSome = true := by
          rw [identity_assignSID, if_pos rfl, Option.isSome_map, allocEndXSID, hfree,
            Option.map_some, Option.isSome_or, Option.isSome_some, Bool.or_true]
        obtain ⟨i, hi⟩ := Option.isSome_iff_exists.mp hserved
        rw [foldl_cons, ← Option.isSome_map (f := (·.identity)), hkeep _ _ hi, Option.isSome_some]
    · exact ih (assignSID sids x) hw

theorem lookup_releaseSIDs (wanted : List WantedSID) (k : EndXKey) :
    (releaseSIDs sids wanted).lookup k =
      if k ∈ wanted.map (·.key) then sids.lookup k else none := by
  rw [releaseSIDs, Map.lookup_filterMap]
  by_cases hk : k ∈ wanted.map (·.key)
  · simp only [if_pos hk]
    cases sids.lookup k <;> rfl
  · simp only [if_neg hk]
    cases sids.lookup k <;> rfl

theorem key_of_foldl_assignSID {ws wanted : List WantedSID} {sids : Map EndXKey AllocatedSID}
    (hsub : ∀ w ∈ ws, w ∈ wanted)
    (hsids : ∀ k, (sids.lookup k).isSome = true → k ∈ wanted.map (·.key)) (k : EndXKey)
    (hk : ((ws.foldl assignSID sids).lookup k).isSome = true) : k ∈ wanted.map (·.key) := by
  induction ws generalizing sids with
  | nil => exact hsids k hk
  | cons w ws ih =>
    refine ih (fun x hx => hsub x (mem_cons_of_mem w hx)) (fun k' hk' => ?_) hk
    rw [← Option.isSome_map (f := (·.identity)), identity_assignSID] at hk'
    split at hk'
    · rename_i heq
      rw [heq]
      exact mem_map_of_mem (hsub w mem_cons_self)
    · exact hsids k' (by rwa [Option.isSome_map] at hk')

end Goisis.Server
