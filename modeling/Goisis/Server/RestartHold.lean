import Goisis.Server.NodeRun

/-!
# The hold of a restarting neighbour

A neighbour that restarts sets the RR bit in its hellos, and `noteRestart` (`pkg/server/restart.go`)
keeps its adjacency Up without what the hellos lack. Of these requests only the first refreshes the
adjacency, none installs its own holding time, and each is acknowledged with the seconds that are
left (`restartRemainingTime`). So a neighbour that asks over and over is held no longer than its own
holding time from the first request on, and the acknowledgements promise no more than that.

Both hello handlers are followed, from an adjacency that is Up, through any list of requests that
pass their checks.

* `neighborAt_hear` — one request;
* `restart_hold` — any number of them;
* `late_request` — an acknowledgement of an adjacency that ran out and is not yet removed, and a
  hello that is no request because its holding time is zero.
-/

namespace Goisis.Server

open Lib Packet Circuit Option

variable {c : Circuit} {self : SystemID} {areas : List Bytes} {src : SNPA} {id : SystemID}
  {a : Adjacency} {now : Int} {h : P2PHello} {d : Circuit} {b : Adjacency}

/-! ## Hellos of either kind -/

/-- A hello. -/
inductive Hello where
  | lan (h : LANHello)
  | p2p (h : P2PHello)

/-- Where a circuit keeps an adjacency: under a level of a LAN, or as the neighbour of a link. -/
inductive Seat where
  | lan (l : Level)
  | link
deriving DecidableEq, Repr

namespace Hello

def sourceID : Hello → SystemID
  | .lan h => h.sourceID
  | .p2p h => h.sourceID

def tlvs : Hello → List TLV
  | .lan h => h.tlvs
  | .p2p h => h.tlvs

/-- The adjacency a hello is about. -/
def seat : Hello → Seat
  | .lan h => .lan h.level
  | .p2p _ => .link

end Hello

namespace Circuit

/-- The adjacency to a system. -/
def neighborAt (c : Circuit) (seat : Seat) (id : SystemID) : Option Adjacency :=
  match seat with
  | .lan l => (c.adjs l).bind (·.lookup id)
  | .link => c.p2pAdj.filter (·.systemID = id)

/-- The checks of the handler of a hello. -/
def admits (c : Circuit) (self : SystemID) (areas : List Bytes) : Hello → Bool
  | .lan h => c.admitsLAN self areas h
  | .p2p h => c.admitsP2P self areas h

/-- The circuit after a hello. -/
def hear (c : Circuit) (self : SystemID) (areas : List Bytes) (src : SNPA) (h : Hello) (now : Int)
    (scan : AdjScan) : Circuit :=
  match h with
  | .lan h => (c.processLANHello self areas src h now scan).circuit
  | .p2p h => (c.processP2PHello self areas src h now).circuit

end Circuit

/-- A received hello and its instant. -/
structure Arrival where
  hello : Hello
  time : Int
  scan : AdjScan

/-- The circuit after hellos from one source. -/
def Circuit.hearAll (c : Circuit) (self : SystemID) (areas : List Bytes) (src : SNPA)
    (xs : List Arrival) : Circuit :=
  xs.foldl (fun c x => c.hear self areas src x.hello x.time x.scan) c

/-! ## One request -/

variable {seat : Seat}

section Request

variable {scan : AdjScan}

/-- What a request makes of the adjacency it holds. -/
structure Adjacency.Requested (a b : Adjacency) (now : Int) : Prop where
  systemID : b.systemID = a.systemID
  state : b.state = .up
  snpa : b.snpa = a.snpa
  holding : b.holding = a.holding
  restartMode : b.restartMode = true
  lastHeard : b.lastHeard = if a.restartMode then a.lastHeard else now

theorem noteRestart_held {rt : Option Restart} (hrt : rt.any (·.restartRequest) = true)
    (a : Adjacency) (holding : UInt16) (now : Int) :
    (a.noteRestart rt true holding now).systemID = a.systemID ∧
      (a.noteRestart rt true holding now).snpa = a.snpa ∧
      (a.noteRestart rt true holding now).holding = a.holding ∧
      (a.noteRestart rt true holding now).restartMode = true ∧
      (a.noteRestart rt true holding now).lastHeard = if a.restartMode then a.lastHeard else
      now := by
  unfold Adjacency.noteRestart
  cases hmode : a.restartMode <;> exact ⟨rfl, rfl, rfl, hrt, rfl⟩

theorem requested_lanHeard {h : LANHello} (ha : c.neighborAt (.lan h.level) h.sourceID = some a)
    (hup : a.state = .up) (hrr : requestsRestart h.tlvs = true) :
    a.Requested (c.lanHeard a.snpa h now) now := by
  have hbefore : c.lanNeighbor h = a := by
    unfold lanNeighbor
    rw [show (c.adjs h.level).bind (·.lookup h.sourceID) = some a from ha, getD_some]
  have hheld : c.holdsLAN a.snpa h = true := by
    unfold holdsLAN
    rw [hbefore, hup, hrr]
    simp
  have hstate : c.lanState a.snpa h = .up := by
    unfold lanState
    rw [hheld]
    rfl
  obtain ⟨hid, hsnpa, hhold, hmode, hheard⟩ := noteRestart_held hrr
    { a with snpa := a.snpa, priority := h.priority, lanID := h.lanID } h.holdingTime now
  unfold lanHeard
  rw [hbefore, hheld, hstate]
  exact ⟨hid, rfl, hsnpa, hhold, hmode, hheard⟩

theorem holdsP2P_of_up (ha : c.neighborAt .link h.sourceID = some a) (hup : a.state = .up)
    (hrr : requestsRestart h.tlvs = true) : c.holdsP2P a.snpa h = true := by
  obtain ⟨hadj, hid⟩ := filter_eq_some_iff.mp ha
  unfold holdsP2P
  rw [hrr, hadj, any_some, hup, of_decide_eq_true hid]
  simp

theorem requested_p2pHeard (ha : c.neighborAt .link h.sourceID = some a) (hup : a.state = .up)
    (hrr : requestsRestart h.tlvs = true) :
    a.Requested (c.p2pHeard self areas a.snpa h now) now := by
  have hheld := holdsP2P_of_up ha hup hrr
  have hbefore : c.p2pNeighbor h = a := by
    unfold p2pNeighbor
    rw [show c.p2pAdj.filter (·.systemID = h.sourceID) = some a from ha, getD_some]
  have hstate : c.p2pState self a.snpa h = .up := by
    unfold p2pState
    rw [hheld]
    rfl
  obtain ⟨hid, hsnpa, hhold, hmode, hheard⟩ := noteRestart_held hrr { a with snpa := a.snpa }
    h.holdingTime now
  unfold p2pHeard
  rw [hbefore, hheld, hstate]
  exact ⟨hid, rfl, hsnpa, hhold, hmode, hheard⟩

theorem cfg_hear (h : Hello) : (c.hear self areas src h now scan).cfg = c.cfg := by
  cases h with
  | lan h => exact congrArg (·.cfg) (c.lanChange_processLANHello self areas src h now scan).shell
  | p2p h => exact congrArg (·.cfg) (c.shell_processP2PHello self areas src h now)

/-- **One request**: the adjacency stays Up, and keeps its holding time. -/
theorem neighborAt_hear {h : Hello} (ha : c.neighborAt h.seat h.sourceID = some a)
    (hup : a.state = .up) (hadmits : c.admits self areas h = true)
    (hrr : requestsRestart h.tlvs = true) :
    ∃ b, (c.hear self areas a.snpa h now scan).neighborAt h.seat h.sourceID = some b ∧
      a.Requested b now := by
  cases h with
  | lan h =>
    refine ⟨_, ?_, requested_lanHeard ha hup hrr⟩
    have hadmits' : c.admitsLAN self areas h = true := hadmits
    have hlevel : (c.adjs h.level).isSome = true := by
      cases hm : c.adjs h.level with
      | none =>
        have hnone : c.neighborAt (.lan h.level) h.sourceID = none := by
          unfold neighborAt
          simp only [hm, bind_none]
        cases hnone.symm.trans ha
      | some m => rfl
    have hstored : ∀ d : Circuit,
        d.adjs = onLevel c.adjs h.level (·.insert h.sourceID (c.lanHeard a.snpa h now)) →
        d.neighborAt (.lan h.level) h.sourceID = some (c.lanHeard a.snpa h now) := by
      intro d hd
      unfold neighborAt
      simp only
      rw [hd, lookup_onLevel_insert, if_pos ⟨rfl, rfl, hlevel⟩]
    unfold hear processLANHello
    simp only [hadmits', Bool.not_true, Bool.false_eq_true, if_false]
    split
    · refine hstored _ ?_
      obtain ⟨lan, heq⟩ := dis_electDIS
        { c with adjs := onLevel c.adjs h.level (·.insert h.sourceID (c.lanHeard a.snpa h now)) }
        self h.level scan
      rw [heq]
    · exact hstored _ rfl
  | p2p h =>
    have hreq : a.Requested (c.p2pHeard self areas a.snpa h now) now :=
      requested_p2pHeard ha hup hrr
    refine ⟨_, ?_, hreq⟩
    have hadmits' : c.admitsP2P self areas h = true := hadmits
    have hstays : c.turnedAway self a.snpa h = false := by
      unfold turnedAway
      rw [holdsP2P_of_up ha hup hrr]
      rfl
    have hid : a.systemID = h.sourceID := of_decide_eq_true (filter_eq_some_iff.mp ha).2
    unfold hear processP2PHello
    simp only [hadmits', hstays, Bool.not_true, Bool.false_eq_true, if_false]
    have hkept : (c.p2pHeard self areas a.snpa h now).systemID = h.sourceID :=
      hreq.systemID.trans hid
    simp [neighborAt, Hello.seat, Hello.sourceID, Option.filter, hkept]

/-- A circuit that has the neighbour passes the hellos it passed before. -/
theorem admits_of_cfg {h : Hello} (hcfg : d.cfg = c.cfg)
    (hb : d.neighborAt h.seat h.sourceID = some b) (hadmits : c.admits self areas h = true) :
    d.admits self areas h = true := by
  cases h with
  | lan h =>
    have hlook : (d.adjs h.level).bind (·.lookup h.sourceID) = some b := hb
    have hlevel : (d.adjs h.level).isSome = true := by
      cases hm : d.adjs h.level with
      | none =>
        rw [hm] at hlook
        cases hlook
      | some m => rfl
    unfold admits admitsLAN at hadmits ⊢
    simp only [Bool.and_eq_true] at hadmits ⊢
    obtain ⟨⟨⟨⟨⟨hlan, hholding⟩, hself⟩, -⟩, harea⟩, -⟩ := hadmits
    refine ⟨⟨⟨⟨⟨by rw [hcfg]; exact hlan, hholding⟩, hself⟩, hlevel⟩, harea⟩, ?_⟩
    rw [hlook]
    rfl
  | p2p h =>
    unfold admits admitsP2P p2pLevels at hadmits ⊢
    rw [hcfg]
    exact hadmits

end Request

/-! ## Any number of requests -/

variable {xs : List Arrival}

/-- Requests of a neighbour: hellos that pass the checks of their handler and have the RR bit. -/
def Circuit.Requests (c : Circuit) (self : SystemID) (areas : List Bytes) (seat : Seat)
    (id : SystemID) (xs : List Arrival) : Prop :=
  ∀ x ∈ xs, c.admits self areas x.hello = true ∧ x.hello.seat = seat ∧ x.hello.sourceID = id ∧
    requestsRestart x.hello.tlvs = true

theorem Circuit.Requests.congr (hcfg : d.cfg = c.cfg) (hb : d.neighborAt seat id = some b)
    (h : c.Requests self areas seat id xs) : d.Requests self areas seat id xs := by
  intro x hx
  obtain ⟨hadmits, rfl, rfl, hrr⟩ := h x hx
  exact ⟨admits_of_cfg hcfg hb hadmits, rfl, rfl, hrr⟩

/-- Of requests only the first refreshes the adjacency, and only when it is not in restart mode
yet. -/
theorem neighborAt_hearAll (ha : c.neighborAt seat id = some a) (hup : a.state = .up)
    (hsrc : a.snpa = src) (hxs : c.Requests self areas seat id xs) :
    ∃ b, (c.hearAll self areas src xs).neighborAt seat id = some b ∧ b.holding = a.holding ∧
      (b.lastHeard = a.lastHeard ∨
        a.restartMode = false ∧ ∃ x, xs.head? = some x ∧ b.lastHeard = x.time) := by
  induction xs generalizing c a with
  | nil => exact ⟨a, ha, rfl, .inl rfl⟩
  | cons x xs ih =>
    obtain ⟨hadmits, rfl, rfl, hrr⟩ := hxs x List.mem_cons_self
    obtain ⟨b, hb, hreq⟩ : ∃ b, (c.hear self areas a.snpa x.hello x.time x.scan).neighborAt
      x.hello.seat
        x.hello.sourceID = some b ∧ a.Requested b x.time := neighborAt_hear ha hup hadmits hrr
    rw [hsrc] at hb
    have hrest := Circuit.Requests.congr (cfg_hear x.hello) hb
      fun y hy => hxs y (List.mem_cons_of_mem x hy)
    obtain ⟨e, he, hholding, hheard | ⟨hmode, -⟩⟩ := ih hb hreq.state (hreq.snpa.trans hsrc) hrest
    · refine ⟨e, he, hholding.trans hreq.holding, ?_⟩
      rw [hheard, hreq.lastHeard]
      cases a.restartMode with
      | false => exact .inr ⟨rfl, x, rfl, rfl⟩
      | true => exact .inl rfl
    · cases hreq.restartMode.symm.trans hmode

/-! ## What is left of the hold -/

section Remaining

variable {t : Int}

theorem expired_iff : a.expired now = true ↔ a.holding.toNat * second < now - a.lastHeard := by
  exact decide_eq_true_iff

/-- The seconds left fit in front of the expiry. -/
theorem remainingTime_le (h : a.expired t = false) :
    (a.remainingTime t).toNat * second ≤ a.holding.toNat * second - (t - a.lastHeard) ∨
      (t ≤ a.lastHeard ∧ a.remainingTime t = a.holding) := by
  have hleft : t - a.lastHeard ≤ a.holding.toNat * second := by
    by_contra hlt
    rw [expired_iff.mpr (not_le.mp hlt)] at h
    cases h
  have hsecond : (0 : Int) < second := by decide
  have hfits : (a.holding.toNat : Int) < 2 ^ 16 := by exact_mod_cast a.holding.toNat_lt
  unfold Adjacency.remainingTime
  simp only
  split
  · refine .inl ?_
    simp only [UInt16.toNat_zero]
    omega
  · split
    · exact .inr ⟨by omega, rfl⟩
    · rename_i hpos hcap
      refine .inl ?_
      generalize hl : (a.holding.toNat * second - (t - a.lastHeard) : Int) = left at *
      have hdiv : left / second < 2 ^ 16 := by
        refine Int.ediv_lt_of_lt_mul hsecond (lt_trans (not_le.mp hcap) ?_)
        exact Int.mul_lt_mul_of_pos_right hfits hsecond
      have hnonneg : 0 ≤ left / second := Int.ediv_nonneg (by omega) hsecond.le
      rw [UInt16.toNat_ofNat_of_lt'
        (by simpa [UInt16.size] using (by omega : (left / second).toNat < 65536)),
        Int.toNat_of_nonneg hnonneg]
      exact Int.ediv_mul_le left hsecond.ne'

/-- **The seconds an acknowledgement carries are there**: the adjacency does not expire before
them. -/
theorem not_expired_of_remaining (h : a.expired t = false)
    (hle : now ≤ t + (a.remainingTime t).toNat * second) : a.expired now = false := by
  cases hexp : a.expired now with
  | false => rfl
  | true =>
    have hlate := expired_iff.mp hexp
    rcases remainingTime_le h with hfit | ⟨hahead, hcap⟩
    · omega
    · rw [hcap] at hle
      omega

end Remaining

/-- **A restarting neighbour cannot extend its own hold**: through any number of requests the
adjacency keeps its holding time and expires with it, counted from the first request; and the time
an acknowledgement carries is left, unless the adjacency has run out already, and then it is
zero. -/
theorem restart_hold {c : Circuit} {self : SystemID} {areas : List Bytes} {src : SNPA}
    {id : SystemID} {seat : Seat} {a : Adjacency} (ha : c.neighborAt seat id = some a)
    (hup : a.state = .up) (hsrc : a.snpa = src) {x : Arrival} (hlast : a.lastHeard ≤ x.time)
    {xs : List Arrival} (hxs : c.Requests self areas seat id (x :: xs)) :
    ∃ b, (c.hearAll self areas src (x :: xs)).neighborAt seat id = some b ∧ b.holding = a.holding ∧
      (∀ now, x.time + a.holding.toNat * second < now → b.expired now = true) ∧
      ∀ y, (x :: xs).getLast? = some y →
        (b.expired y.time = false → ∀ now, now ≤ y.time + (b.remainingTime y.time).toNat * second →
          b.expired now = false) ∧
        (b.expired y.time = true → b.remainingTime y.time = 0) := by
  obtain ⟨e, he, hholding, hheard⟩ := neighborAt_hearAll ha hup hsrc hxs
  refine ⟨e, he, hholding, fun now hnow => ?_, fun y _ => ?_⟩
  · have hfirst : e.lastHeard ≤ x.time := by
      rcases hheard with hheard | ⟨-, y, hy, hheard⟩
      · exact hheard.trans_le hlast
      · cases hy
        exact hheard.le
    rw [expired_iff, hholding]
    omega
  · refine ⟨fun hleft now hnow => not_expired_of_remaining hleft hnow, fun h => ?_⟩
    exact if_pos (by have := expired_iff.mp h; omega)

/-! ## A request after the holding time -/

/-- A LAN neighbour that is Up with a holding time of one second, last heard at the start. -/
def brieflyHeld (restartMode : Bool) : Circuit :=
  { newCircuit (ethernet "eth0" false 10) 1 1 with
    adjs := fun _ => some ((∅ : Map SystemID Adjacency).insert (octets6 0 0 0 0 0 2)
      { Adjacency.unheard (octets6 0 0 0 0 0 2) with
        state := .up
        holding := 1
        restartMode := restartMode }) }

/-- A restart request of it. -/
def restartRequest (holdingTime : UInt16) : Hello :=
  .lan ⟨.level1, 1, octets6 0 0 0 0 0 2, holdingTime, 64, zeroNodeID,
    [.areaAddresses [[0x49]], .restart ⟨true, false, false, none, none⟩]⟩

/-- The adjacency after hellos with these holding times at these instants. -/
def afterRequests (restartMode : Bool) (xs : List (UInt16 × Int)) : Option Adjacency :=
  ((brieflyHeld restartMode).hearAll (octets6 0 0 0 0 0 1) [[0x49]] (Octets.zero 6)
    (xs.map fun x => ⟨restartRequest x.1, x.2, .inOrder⟩)).neighborAt (.lan .level1)
    (octets6 0 0 0 0 0 2)

/-- A request that comes after the hold ran out and before a tick removes the adjacency is
acknowledged with no time left of an adjacency that is expired already; and a hello with the holding
time zero is dropped, so the request after it refreshes the adjacency instead. -/
theorem late_request :
    (afterRequests true [(30, 2 * second)]).any
      (fun a => a.remainingTime (2 * second) = 0 ∧ a.expired (2 * second) = true) = true ∧
    (afterRequests false [(0, 0), (30, second)]).any
      (fun a => a.expired (2 * second) = false) = true := by decide +kernel

theorem restart_hold_brief : ∃ b, afterRequests false [(30, 0), (30, second)] = some b ∧
    b.holding = 1 ∧ ∀ now, 0 + (1 : UInt16).toNat * second < now → b.expired now = true := by
  have hrequests : (brieflyHeld false).Requests (octets6 0 0 0 0 0 1) [[0x49]] (.lan .level1)
      (octets6 0 0 0 0 0 2) [⟨restartRequest 30, 0, .inOrder⟩,
        ⟨restartRequest 30, second, .inOrder⟩] := by
    intro x hx
    simp only [List.mem_cons, List.not_mem_nil, or_false] at hx
    rcases hx with rfl | rfl <;> decide +kernel
  obtain ⟨b, hb, hholding, hexpired, -⟩ := restart_hold (c := brieflyHeld false) rfl rfl rfl
    (by decide) hrequests
  exact ⟨b, hb, hholding, hexpired⟩

end Goisis.Server
