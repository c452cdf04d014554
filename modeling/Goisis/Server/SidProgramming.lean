import Goisis.Server.LocalSIDs

/-!
# Programming the local SIDs

Model of `programSID` and `unprogramSID` (`pkg/server/server.go`) and of the paths that call them:
`installLocalSIDs` at start and in `housekeeping`, `AddLocator`, `DeleteLocator`, `syncEndXSIDs` and
the retry of failed removals. The forwarding plane is a map from addresses to SIDs; every
`AddLocalSID` and `RemoveLocalSID` takes full effect or fails without one.

A path is the list of its calls, each with its outcome, in any order the `range` loops take. A call
concerns one address, and the last call about an address decides what becomes of it
(`settled_runCalls`).

* `tracks_of_run` — what the records say about the forwarding plane after any run;
* `sid_programming` — no SID leaks, and one tick without failures repairs everything.
-/

namespace Goisis.Server

open Lib Packet NodeServer List

variable {ok : Bool} {m : Managed}

/-! ## Calls -/

/-- `SIDBehavior`, as far as this node uses it. -/
inductive SIDBehavior where
  | behaviorEnd
  | behaviorEndX
deriving DecidableEq, Repr

/-- `fib.LocalSID`; no SID of this node names a table. -/
structure LocalSID where
  sid : Addr
  behavior : SIDBehavior
  nexthop : Addr := .zero
  interface : String := ""
deriving DecidableEq, Repr

/-- The forwarding plane, `s.sidPending`, and the keys of `s.sidFailed`. -/
structure SidPlane where
  sids : Map Addr LocalSID
  pending : Finset Addr
  failed : Finset Addr

/-- A write to the forwarding plane. -/
inductive SidCall where
  | programSID (sid : LocalSID)
  | unprogramSID (sid : Addr)
deriving DecidableEq, Repr

namespace SidCall

/-- The address a call concerns. -/
def addr : SidCall → Addr
  | programSID x => x.sid
  | unprogramSID a => a

/-- `programSID(sid)` or `unprogramSID(sid)`, where `ok` is what the forwarding plane answers. -/
def run (ok : Bool) (p : SidPlane) : SidCall → SidPlane
  | programSID x =>
    if ok then ⟨p.sids.insert x.sid x, p.pending.erase x.sid, p.failed.erase x.sid⟩
    else ⟨p.sids, p.pending.erase x.sid, insert x.sid p.failed⟩
  | unprogramSID a =>
    if ok then ⟨p.sids.erase a, p.pending.erase a, p.failed.erase a⟩
    else ⟨p.sids, insert a p.pending, insert a p.failed⟩

/-- What a call leaves at its address. -/
def Settled (ok : Bool) (p : SidPlane) : SidCall → Prop
  | programSID x => x.sid ∉ p.pending ∧ if ok then p.sids.lookup x.sid = some x else
    x.sid ∈ p.failed
  | unprogramSID a => if ok then p.sids.lookup a = none else a ∈ p.pending

end SidCall

/-- Calls with their outcomes, one after the other. -/
def SidPlane.runCalls (p : SidPlane) (done : List (SidCall × Bool)) : SidPlane :=
  done.foldl (fun p d => d.1.run d.2 p) p

/-- Two planes agree on an address. -/
structure SidPlane.SameAt (p q : SidPlane) (a : Addr) : Prop where
  sids : q.sids.lookup a = p.sids.lookup a
  pending : a ∈ q.pending ↔ a ∈ p.pending
  failed : a ∈ q.failed ↔ a ∈ p.failed

variable {p q : SidPlane} {done : List (SidCall × Bool)} {c : SidCall}

section Calls

variable {a : Addr}

theorem sameAt_run (c : SidCall) (ok : Bool) (h : c.addr ≠ a) : p.SameAt (c.run ok p) a := by
  cases c with
  | programSID x =>
    have hne : a ≠ x.sid := fun heq => h heq.symm
    cases ok <;> constructor <;> simp [SidCall.run, hne]
  | unprogramSID b =>
    have hne : a ≠ b := fun heq => h heq.symm
    cases ok <;> constructor <;> simp [SidCall.run, hne]

theorem settled_run (p : SidPlane) (c : SidCall) (ok : Bool) : c.Settled ok (c.run ok p) := by
  cases c with
  | programSID x => cases ok <;> simp [SidCall.run, SidCall.Settled]
  | unprogramSID b => cases ok <;> simp [SidCall.run, SidCall.Settled]

theorem SidCall.Settled.congr (h : c.Settled ok p) (hs : p.SameAt q c.addr) : c.Settled ok q := by
  cases c with
  | programSID x =>
    refine ⟨fun hp => h.1 (hs.pending.mp hp), ?_⟩
    have h := h.2
    cases ok with
    | true => exact hs.sids.trans h
    | false => exact hs.failed.mpr h
  | unprogramSID b =>
    cases ok with
    | true => exact hs.sids.trans h
    | false => exact hs.pending.mpr h

theorem sameAt_runCalls (h : ∀ d ∈ done, d.1.addr ≠ a) : p.SameAt (p.runCalls done) a := by
  refine foldlRecOn (motive := fun q => p.SameAt q a) _ _ ⟨rfl, Iff.rfl, Iff.rfl⟩
    fun q hq d hd => ?_
  have hstep := sameAt_run (p := q) d.1 d.2 (h d hd)
  exact ⟨hstep.sids.trans hq.sids, hstep.pending.trans hq.pending, hstep.failed.trans hq.failed⟩

/-- **The last call about an address decides**: where all calls about it are the same one. -/
theorem settled_runCalls (hc : c ∈ done.map Prod.fst)
    (honly : ∀ d ∈ done, d.1.addr = c.addr → d.1 = c) :
    ∃ ok, (c, ok) ∈ done ∧ c.Settled ok (p.runCalls done) := by
  induction done using reverseRecOn with
  | nil => cases hc
  | append_singleton done d ih =>
    unfold SidPlane.runCalls
    rw [foldl_append, foldl_cons, foldl_nil]
    by_cases hd : d.1.addr = c.addr
    · obtain rfl : d.1 = c := honly d (by simp) hd
      exact ⟨d.2, by simp, settled_run _ _ _⟩
    have hc : c ∈ done.map Prod.fst := by
      rw [map_append, mem_append] at hc
      refine hc.resolve_right fun hlast => hd ?_
      rw [mem_singleton.mp hlast]
    obtain ⟨ok, hmem, hset⟩ := ih hc fun d hd => honly d (mem_append_left _ hd)
    exact ⟨ok, mem_append_left _ hmem, hset.congr (sameAt_run d.1 d.2 hd)⟩

end Calls

/-! ## The paths -/

/-- The End SID of a locator as it is programmed. -/
def SRv6LocatorConfig.endLocalSID (lc : SRv6LocatorConfig) : LocalSID :=
  ⟨lc.endSID, .behaviorEnd, .zero, ""⟩

/-- An End.X SID as it is programmed. -/
def endXLocalSID (e : (_ : EndXKey) × AllocatedSID) : LocalSID :=
  ⟨e.2.sid, .behaviorEndX, e.2.nexthop, e.1.circuit⟩

namespace NodeServer

variable (s : NodeServer)

/-- What should be in the forwarding plane. -/
def localEntries : List LocalSID :=
  s.locators.map (·.endLocalSID) ++ s.endXSIDs.entries.map endXLocalSID

/-- The calls of `installLocalSIDs()`. -/
def installLocalSIDs : List SidCall := s.localEntries.map .programSID

/-- The calls of the release loop of `syncEndXSIDs(now)`. -/
def releaseCalls (now : Int) : List SidCall :=
  (s.endXSIDs.entries.filter fun e => e.1 ∉ (s.wantedSIDs now).map (·.key)).map fun e =>
    .unprogramSID e.2.sid

/-- The calls of `installEndXSIDs()`. -/
def installEndXSIDs : List SidCall := (s.endXSIDs.entries.map endXLocalSID).map .programSID

theorem sids_localEntries : s.localEntries.map (·.sid) = s.localSIDs := by
  simp only [localEntries, localSIDs, map_append, List.map_map]
  rfl

end NodeServer

/-- The node, the forwarding plane, and `s.ticks`. -/
structure SidServer where
  node : NodeServer
  plane : SidPlane
  ticks : Nat

/-- `sidReassertTicks`. -/
def sidReassertTicks : Nat := 30

/-- A tick re-asserts the local SIDs. -/
def SidServer.sweeps (x : SidServer) : Bool :=
  (!x.node.locators.isEmpty || !x.node.endXSIDs.entries.isEmpty) &&
    (x.plane.failed.card != 0 || (x.ticks + 1) % sidReassertTicks == 0)

/-- The SID part of `housekeeping`: the sweep if it is due, then a removal for every address pending
after it. -/
structure SidServer.Tick (x : SidServer) (sweep retry : List (SidCall × Bool)) (y : SidServer) :
    Prop where
  swept : (sweep.map Prod.fst).Perm (if x.sweeps then x.node.installLocalSIDs else [])
  nodup : (retry.map Prod.fst).Nodup
  retried : ∀ c, c ∈ retry.map Prod.fst ↔ ∃ a ∈ (x.plane.runCalls sweep).pending,
    c = .unprogramSID a
  result : y = ⟨x.node, (x.plane.runCalls sweep).runCalls retry, x.ticks + 1⟩

/-- Runs in which `localSIDs()` never contains a duplicate. At start the plane has nothing but what
the startup sweep retained, and a regeneration finds a node that may have changed in anything but
its locators and its table. -/
inductive SidRun : SidServer → Prop where
  | start {s : NodeServer} {sids : Map Addr LocalSID} {done : List (SidCall × Bool)}
      (hswept : ∀ a, sids.lookup a ≠ none → a ∈ s.localSIDs)
      (hcalls : (done.map Prod.fst).Perm s.installLocalSIDs) (hnodup : s.localSIDs.Nodup) :
      SidRun ⟨s, SidPlane.runCalls ⟨sids, ∅, ∅⟩ done, 0⟩
  | addLocator {x : SidServer} {cfg : SRv6LocatorConfig} {m : Managed} (ok : Bool) (hx : SidRun x)
      (hm : x.node.managed.addLocator cfg = .ok m)
      (hnodup : (x.node.configure (.ok m)).localSIDs.Nodup) :
      SidRun ⟨x.node.configure (.ok m), (SidCall.programSID cfg.endLocalSID).run ok x.plane,
        x.ticks⟩
  | deleteLocator {x : SidServer} {p : Prefix} {lc : SRv6LocatorConfig} {m : Managed} (ok : Bool)
      (hx : SidRun x) (hlc : x.node.locators.find? (fun lc => lc.pfx.masked = p.masked) = some lc)
      (hm : x.node.managed.deleteLocator p = .ok m) :
      SidRun ⟨x.node.configure (.ok m), (SidCall.unprogramSID lc.endSID).run ok x.plane, x.ticks⟩
  | regenerate {x : SidServer} {t : NodeServer} {released installed : List (SidCall × Bool)}
      (now : Int) (hx : SidRun x) (hloc : t.locators = x.node.locators)
      (hsids : t.endXSIDs = x.node.endXSIDs)
      (hreleased : (released.map Prod.fst).Perm (t.releaseCalls now))
      (hinstalled : (installed.map Prod.fst).Perm (t.syncEndXSIDs now).installEndXSIDs)
      (hnodup : (t.syncEndXSIDs now).localSIDs.Nodup) :
      SidRun ⟨t.syncEndXSIDs now, (x.plane.runCalls released).runCalls installed, x.ticks⟩
  | tick {x y : SidServer} {sweep retry : List (SidCall × Bool)} (hx : SidRun x)
      (htick : x.Tick sweep retry y) : SidRun y

/-! ## What the records say -/

/-- A SID that should be there is, or its last write failed, and no removal of it is pending; any
other address is clear, or its removal is pending. -/
structure SidPlane.Tracks (p : SidPlane) (sids : List LocalSID) : Prop where
  here : ∀ x ∈ sids, x.sid ∉ p.pending ∧ (p.sids.lookup x.sid = some x ∨ x.sid ∈ p.failed)
  gone : ∀ a ∉ sids.map (·.sid), p.sids.lookup a = none ∨ a ∈ p.pending

variable {sids' : List LocalSID}

section Tracks

variable {sids : List LocalSID} {x y : SidServer}

variable {v : LocalSID} {a : Addr}

theorem SidPlane.SameAt.here (h : p.SameAt q v.sid)
    (hp : v.sid ∉ p.pending ∧ (p.sids.lookup v.sid = some v ∨ v.sid ∈ p.failed)) :
    v.sid ∉ q.pending ∧ (q.sids.lookup v.sid = some v ∨ v.sid ∈ q.failed) :=
  ⟨fun hq => hp.1 (h.pending.mp hq), hp.2.imp h.sids.trans h.failed.mpr⟩

theorem SidPlane.SameAt.gone (h : p.SameAt q a) (hp : p.sids.lookup a = none ∨ a ∈ p.pending) :
    q.sids.lookup a = none ∨ a ∈ q.pending :=
  hp.imp h.sids.trans h.pending.mpr

theorem SidCall.Settled.here (h : (SidCall.programSID v).Settled ok p) :
    v.sid ∉ p.pending ∧ (p.sids.lookup v.sid = some v ∨ v.sid ∈ p.failed) := by
  refine ⟨h.1, ?_⟩
  have h := h.2
  cases ok with
  | true => exact .inl h
  | false => exact .inr h

theorem SidCall.Settled.gone (h : (SidCall.unprogramSID a).Settled ok p) :
    p.sids.lookup a = none ∨ a ∈ p.pending := by
  cases ok with
  | true => exact .inl h
  | false => exact .inr h

/-- Of the SIDs to install, each address has one. -/
theorem settled_installs (hcalls : (done.map Prod.fst).Perm (sids.map .programSID))
    (hnodup : (sids.map (·.sid)).Nodup) (hv : v ∈ sids) :
    ∃ ok, (SidCall.programSID v, ok) ∈ done ∧
      (SidCall.programSID v).Settled ok (p.runCalls done) := by
  refine settled_runCalls (hcalls.mem_iff.mpr (mem_map_of_mem hv)) fun d hd haddr => ?_
  obtain ⟨w, hw, heq⟩ := mem_map.mp (hcalls.mem_iff.mp (mem_map_of_mem hd))
  rw [← heq] at haddr ⊢
  rw [inj_on_of_nodup_map hnodup hw hv haddr]

theorem sameAt_installs (hcalls : (done.map Prod.fst).Perm (sids.map .programSID))
    (ha : a ∉ sids.map (·.sid)) : p.SameAt (p.runCalls done) a := by
  refine sameAt_runCalls fun d hd haddr => ha ?_
  obtain ⟨w, hw, heq⟩ := mem_map.mp (hcalls.mem_iff.mp (mem_map_of_mem hd))
  rw [← heq] at haddr
  exact haddr ▸ mem_map_of_mem hw

/-- A sweep keeps the records right. -/
theorem SidPlane.Tracks.sweep (h : p.Tracks sids) (hnodup : (sids.map (·.sid)).Nodup) {due : Bool}
    (hcalls : (done.map Prod.fst).Perm (if due then sids.map .programSID else [])) :
    (p.runCalls done).Tracks sids := by
  cases due with
  | false =>
    have hnil := map_eq_nil_iff.mp hcalls.eq_nil
    rwa [hnil]
  | true =>
    refine ⟨fun v hv => ?_, fun a ha => (sameAt_installs hcalls ha).gone (h.gone a ha)⟩
    obtain ⟨ok, -, hset⟩ := settled_installs hcalls hnodup hv
    exact hset.here

/-- Removals, one for every address of a set and in any order: what is in the set is settled, and
nothing else is touched. -/
theorem removals_cases {P : Addr → Prop}
    (hcalls : ∀ c, c ∈ done.map Prod.fst ↔ ∃ a, P a ∧ c = .unprogramSID a) (a : Addr) :
    ¬P a ∧ p.SameAt (p.runCalls done) a ∨ P a ∧ ∃ ok, (SidCall.unprogramSID a, ok) ∈ done ∧
      (SidCall.unprogramSID a).Settled ok (p.runCalls done) := by
  have hof : ∀ d ∈ done, ∃ b, P b ∧ d.1 = .unprogramSID b := fun d hd =>
    (hcalls d.1).mp (mem_map_of_mem hd)
  by_cases ha : P a
  · refine .inr ⟨ha, settled_runCalls ((hcalls _).mpr ⟨a, ha, rfl⟩) fun d hd haddr => ?_⟩
    obtain ⟨b, -, heq⟩ := hof d hd
    rw [heq] at haddr ⊢
    exact congrArg _ haddr
  · refine .inl ⟨ha, sameAt_runCalls fun d hd haddr => ha ?_⟩
    obtain ⟨b, hb, heq⟩ := hof d hd
    rw [heq] at haddr
    exact haddr ▸ hb

theorem SidPlane.Tracks.retry (h : p.Tracks sids)
    (hcalls : ∀ c, c ∈ done.map Prod.fst ↔ ∃ a ∈ p.pending, c = .unprogramSID a) :
    (p.runCalls done).Tracks sids := by
  refine ⟨fun v hv => ?_, fun a ha => ?_⟩
  · rcases removals_cases hcalls v.sid with ⟨-, hsame⟩ | ⟨hpending, -⟩
    · exact hsame.here (h.here v hv)
    · exact absurd hpending (h.here v hv).1
  · rcases removals_cases hcalls a with ⟨-, hsame⟩ | ⟨-, ok, -, hset⟩
    · exact hsame.gone (h.gone a ha)
    · exact hset.gone

theorem SidPlane.Tracks.program (h : p.Tracks sids) (hperm : sids'.Perm (v :: sids))
    (hnodup : (sids'.map (·.sid)).Nodup) (ok : Bool) :
    ((SidCall.programSID v).run ok p).Tracks sids' := by
  obtain ⟨hv, -⟩ := nodup_cons.mp ((hperm.map (·.sid)).nodup_iff.mp hnodup)
  refine ⟨fun w hw => ?_, fun a ha => ?_⟩
  · rcases mem_cons.mp (hperm.mem_iff.mp hw) with rfl | hw
    · exact (settled_run p (.programSID w) ok).here
    · have hne : v.sid ≠ w.sid := fun heq => hv (mem_map.mpr ⟨w, hw, heq.symm⟩)
      exact (sameAt_run (.programSID v) ok hne).here (h.here w hw)
  · rw [(hperm.map (·.sid)).mem_iff, map_cons, mem_cons, not_or] at ha
    exact (sameAt_run (.programSID v) ok (Ne.symm ha.1)).gone (h.gone a ha.2)

theorem SidPlane.Tracks.unprogram (h : p.Tracks sids) (hperm : sids.Perm (v :: sids'))
    (hnodup : (sids.map (·.sid)).Nodup) (ok : Bool) :
    ((SidCall.unprogramSID v.sid).run ok p).Tracks sids' := by
  obtain ⟨hv, -⟩ := nodup_cons.mp ((hperm.map (·.sid)).nodup_iff.mp hnodup)
  refine ⟨fun w hw => ?_, fun a ha => ?_⟩
  · have hne : v.sid ≠ w.sid := fun heq => hv (mem_map.mpr ⟨w, hw, heq.symm⟩)
    exact (sameAt_run (.unprogramSID v.sid) ok hne).here
      (h.here w (hperm.mem_iff.mpr (mem_cons_of_mem v hw)))
  · by_cases heq : v.sid = a
    · exact heq ▸ (settled_run p (.unprogramSID v.sid) ok).gone
    · refine (sameAt_run (.unprogramSID v.sid) ok heq).gone (h.gone a ?_)
      rw [(hperm.map (·.sid)).mem_iff, map_cons, mem_cons, not_or]
      exact ⟨Ne.symm heq, ha⟩

/-- **A reconciliation keeps the records right**: what is released is removed before what is
allocated is installed. -/
theorem SidPlane.Tracks.sync {t : NodeServer} {now : Int}
    {released installed : List (SidCall × Bool)} (h : p.Tracks t.localEntries)
    (hold : t.localSIDs.Nodup) (hnew : (t.syncEndXSIDs now).localSIDs.Nodup)
    (hreleased : (released.map Prod.fst).Perm (t.releaseCalls now))
    (hinstalled : (installed.map Prod.fst).Perm (t.syncEndXSIDs now).installEndXSIDs) :
    ((p.runCalls released).runCalls installed).Tracks (t.syncEndXSIDs now).localEntries := by
  have hsids : ∀ s : NodeServer, (s.endXSIDs.entries.map endXLocalSID).map (·.sid) =
      s.endXSIDs.entries.map (·.2.sid) := fun s => List.map_map
  rw [localSIDs, nodup_append, ← hsids] at hold hnew
  have hcalls : ∀ c, c ∈ released.map Prod.fst ↔ ∃ a, (∃ e ∈ t.endXSIDs.entries,
      e.1 ∉ (t.wantedSIDs now).map (·.key) ∧ e.2.sid = a) ∧ c = .unprogramSID a := by
    intro c
    simp only [hreleased.mem_iff, releaseCalls, mem_map, mem_filter, decide_eq_true_eq]
    grind
  refine ⟨fun v hv => ?_, fun a ha => ?_⟩
  · rcases mem_append.mp hv with hv' | hv'
    · obtain ⟨lc, hlc, rfl⟩ := mem_map.mp hv'
      have hend : lc.endSID ∈ t.locators.map (·.endSID) := mem_map_of_mem hlc
      have hstay := sameAt_installs (p := p.runCalls released) hinstalled fun hmem =>
        hnew.2.2 _ hend _ hmem rfl
      rcases removals_cases hcalls lc.endSID with ⟨-, hsame⟩ | ⟨⟨e, he, -, heq⟩, -⟩
      · exact hstay.here (hsame.here (h.here _ (mem_append_left _ hv')))
      · exact absurd heq.symm (hold.2.2 _ hend _ (mem_map_of_mem (mem_map_of_mem he)))
    · obtain ⟨ok, -, hset⟩ := settled_installs hinstalled hnew.2.1 hv'
      exact hset.here
  · rw [sids_localEntries, localSIDs, mem_append, not_or, ← hsids] at ha
    refine (sameAt_installs hinstalled ha.2).gone ?_
    rcases removals_cases hcalls a with ⟨hkept, hsame⟩ | ⟨-, ok, -, hset⟩
    · refine hsame.gone (h.gone a fun hmem => ?_)
      rw [sids_localEntries] at hmem
      rcases mem_append.mp hmem with hmem | hmem
      · exact ha.1 hmem
      -- an End.X SID that is not released keeps its address
      · obtain ⟨e, he, rfl⟩ := mem_map.mp hmem
        have hlive : e.1 ∈ (t.wantedSIDs now).map (·.key) :=
          not_not.mp fun hfree => hkept ⟨e, he, hfree, rfl⟩
        obtain ⟨w, hw, hkey⟩ := mem_map.mp hlive
        obtain ⟨e', he', hsid, -⟩ := syncedSIDs_keeps hw (hkey ▸ AList.mem_lookup_iff.mpr he)
        exact ha.2 (mem_map.mpr ⟨_, mem_map_of_mem (AList.mem_lookup_iff.mp he'), hsid⟩)
    · exact hset.gone

/-! ## Runs -/

theorem locators_deleteLocator {m' : Managed} {p : Prefix} {lc : SRv6LocatorConfig}
    (hlc : m.locators.find? (fun lc => lc.pfx.masked = p.masked) = some lc)
    (h : m.deleteLocator p = .ok m') : m.locators.Perm (lc :: m'.locators) := by
  obtain ⟨hp, l₁, l₂, heq, hbefore⟩ := find?_eq_some_iff_append.mp hlc
  unfold Managed.deleteLocator at h
  split at h
  · cases h
    have herase : m.locators.eraseP (fun lc => lc.pfx.masked = p.masked) = l₁ ++ l₂ := by
      rw [heq, eraseP_append_right _ fun b hb => by simpa using hbefore b hb]
      exact congrArg (l₁ ++ ·) (eraseP_cons_of_pos hp)
    simp only [herase]
    exact heq ▸ perm_middle
  · cases h

/-- **What the records say, in every state of every run.** -/
theorem tracks_of_run (h : SidRun x) :
    x.node.localSIDs.Nodup ∧ x.plane.Tracks x.node.localEntries := by
  induction h with
  | @start s sids done hswept hcalls hnodup =>
    have hnodup' := hnodup
    rw [← sids_localEntries] at hnodup'
    refine ⟨hnodup, fun v hv => ?_, fun a ha => (sameAt_installs hcalls ha).gone (.inl ?_)⟩
    · obtain ⟨ok, -, hset⟩ := settled_installs hcalls hnodup' hv
      exact hset.here
    · rw [sids_localEntries] at ha
      exact not_not.mp fun hne => ha (hswept a hne)
  | @addLocator x cfg m ok hx hm hnodup ih =>
    have hperm :
        (x.node.configure (.ok m)).localEntries.Perm (cfg.endLocalSID :: x.node.localEntries) := by
      change (m.locators.map _ ++ _).Perm _
      rw [(locators_addLocator hm).2, map_append, append_assoc]
      exact perm_middle
    exact ⟨hnodup, ih.2.program hperm (sids_localEntries _ ▸ hnodup) ok⟩
  | @deleteLocator x p lc m ok hx hlc hm ih =>
    have hperm :
        x.node.localEntries.Perm (lc.endLocalSID :: (x.node.configure (.ok m)).localEntries) :=
      ((locators_deleteLocator hlc hm).map _).append_right _
    have hnodup := (sids_localEntries x.node).symm ▸ ih.1
    refine ⟨?_, ih.2.unprogram hperm hnodup ok⟩
    have hcons := (hperm.map (·.sid)).nodup_iff.mp hnodup
    rw [map_cons, sids_localEntries] at hcons
    exact (nodup_cons.mp hcons).2
  | regenerate now hx hloc hsids hreleased hinstalled hnodup ih =>
    rename_i x t _ _
    have heq : t.localEntries = x.node.localEntries := by
      rw [localEntries, hloc, hsids]
      rfl
    refine ⟨hnodup, SidPlane.Tracks.sync (heq ▸ ih.2) ?_ hnodup hreleased hinstalled⟩
    rw [← sids_localEntries, heq, sids_localEntries]
    exact ih.1
  | tick hx htick ih =>
    rw [htick.result]
    have hnodup := ih.1
    rw [← sids_localEntries] at hnodup
    exact ⟨ih.1, (ih.2.sweep hnodup htick.swept).retry htick.retried⟩

/-- **No SID leaks, and one tick repairs everything.** In every state of every run a SID in the
forwarding plane is local or its removal is pending, and none is both. A tick without a failed call
leaves exactly the End SIDs of the locators and the End.X SIDs of the table, each with its current
next hop and interface. -/
theorem sid_programming (h : SidRun x) :
    (∀ a, x.plane.sids.lookup a ≠ none → a ∈ x.node.localSIDs ∨ a ∈ x.plane.pending) ∧
    (∀ a ∈ x.node.localSIDs, a ∉ x.plane.pending) ∧
    ∀ sweep retry y, x.Tick sweep retry y → (∀ d ∈ sweep ++ retry, d.2 = true) →
      y.node = x.node ∧ ∀ a v, y.plane.sids.lookup a = some v ↔ v ∈ x.node.localEntries ∧
      v.sid = a := by
  obtain ⟨hnodup, htracks⟩ := tracks_of_run h
  refine ⟨fun a ha => ?_, fun a ha => ?_, fun sweep retry y htick hok => ?_⟩
  · by_cases hmem : a ∈ x.node.localEntries.map (·.sid)
    · exact .inl (x.node.sids_localEntries ▸ hmem)
    · exact .inr ((htracks.gone a hmem).resolve_left ha)
  · rw [← NodeServer.sids_localEntries] at ha
    obtain ⟨v, hv, rfl⟩ := mem_map.mp ha
    exact (htracks.here v hv).1
  · rw [← NodeServer.sids_localEntries] at hnodup
    have hswept := htracks.sweep hnodup htick.swept
    -- after the sweep, or without one, every local SID is in place
    have hplace : ∀ v ∈ x.node.localEntries, (x.plane.runCalls sweep).sids.lookup v.sid =
        some v := by
      intro v hv
      have hcalls := htick.swept
      cases hdue : x.sweeps with
      | true =>
        rw [hdue] at hcalls
        obtain ⟨ok, hmem, hset⟩ := settled_installs (p := x.plane) hcalls hnodup hv
        obtain rfl : ok = true := hok _ (mem_append_left _ hmem)
        exact hset.2
      | false =>
        rw [hdue] at hcalls
        rw [map_eq_nil_iff.mp hcalls.eq_nil]
        refine (htracks.here v hv).2.resolve_right fun hfail => ?_
        have hcard : x.plane.failed.card ≠ 0 := Finset.card_ne_zero_of_mem hfail
        have hsome : x.node.locators ≠ [] ∨ x.node.endXSIDs.entries ≠ [] := by
          rcases mem_append.mp hv with hv | hv
          · exact .inl fun hnil => by rw [hnil] at hv; cases hv
          · exact .inr fun hnil => by rw [hnil] at hv; cases hv
        simp [SidServer.sweeps, hcard, hsome] at hdue
    rw [htick.result]
    have hat : ∀ v ∈ x.node.localEntries,
        ((x.plane.runCalls sweep).runCalls retry).sids.lookup v.sid = some v := by
      intro v hv
      rcases removals_cases htick.retried v.sid with ⟨-, hsame⟩ | ⟨hpending, -⟩
      · exact hsame.sids.trans (hplace v hv)
      · exact absurd hpending (hswept.here v hv).1
    refine ⟨rfl, fun a v => ⟨fun hv => ?_, fun hv => hv.2 ▸ hat v hv.1⟩⟩
    by_cases hmem : a ∈ x.node.localEntries.map (·.sid)
    · obtain ⟨w, hw, rfl⟩ := mem_map.mp hmem
      obtain rfl := Option.some.inj ((hat w hw).symm.trans hv)
      exact ⟨hw, rfl⟩
    -- what is not a local SID is removed by a retry, or was not there
    · have hnone : ((x.plane.runCalls sweep).runCalls retry).sids.lookup a = none := by
        rcases removals_cases htick.retried a with ⟨hfree, hsame⟩ | ⟨-, ok, hcall, hset⟩
        · exact hsame.sids.trans ((hswept.gone a hmem).resolve_right hfree)
        · obtain rfl : ok = true := hok _ (mem_append_right _ hcall)
          exact hset
      cases hnone.symm.trans hv

/-- A node none of whose SIDs could be installed at start. -/
def failedStart (s : NodeServer) : SidServer :=
  ⟨s, SidPlane.runCalls ⟨∅, ∅, ∅⟩ (s.installLocalSIDs.map (·, false)), 0⟩

theorem sid_programming_repaired :
    ∃ s, newNodeServer locatorNode = .ok s ∧ (failedStart s).plane.failed ≠ ∅ ∧
    ∀ v ∈ s.localEntries,
      ((failedStart s).plane.runCalls (s.installLocalSIDs.map (·, true))).sids.lookup v.sid =
      some v := by
  have hrun : (newNodeServer locatorNode).toOption.any (fun s => s.localSIDs.Nodup &&
    (failedStart s).sweeps &&
      (failedStart s).plane.failed ≠ ∅ &&
      ((failedStart s).plane.runCalls (s.installLocalSIDs.map (·, true))).pending = ∅) = true := by
    decide +kernel
  obtain ⟨s, hs, hrun⟩ := (Option.any_eq_true _ _).mp hrun
  simp only [Bool.and_eq_true, decide_eq_true_eq] at hrun
  obtain ⟨⟨⟨hnodup, hdue⟩, hfailed⟩, hpending⟩ := hrun
  have hfst : ∀ ok : Bool, (s.installLocalSIDs.map (·, ok)).map Prod.fst = s.installLocalSIDs :=
    fun ok => List.map_map.trans (List.map_id _)
  have hstart : SidRun (failedStart s) :=
    .start (fun a ha => absurd rfl ha) (.of_eq (hfst false)) hnodup
  have htick : (failedStart s).Tick (s.installLocalSIDs.map (·, true)) [] ⟨s, _, 1⟩ :=
    ⟨by rw [if_pos hdue]; exact .of_eq (hfst true), nodup_nil, by simp [hpending], rfl⟩
  refine ⟨s, toOption_eq_some.mp hs, hfailed, fun v hv => ?_⟩
  exact (((sid_programming hstart).2.2 _ _ _ htick (by simp)).2 v.sid v).mpr ⟨hv, rfl⟩

end Tracks

end Goisis.Server
