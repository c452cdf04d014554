import Goisis.Lib.Trace
import Goisis.Server.Config

/-!
# The forwarding plane

Model of `programFIB` (`pkg/server/rib.go`) with the retry of `housekeeping`
(`pkg/server/server.go`) and of the route events both send to a subscriber. The forwarding plane is
a map from prefixes to next hops; every `Update` and `Withdraw` takes full effect or fails without
one.

A pass makes at most one call for a prefix, so which calls of a pass fail is a property of prefixes
(`FibFaults`). The routing table is handed over as a whole (`RouteTable`): its keys are the prefixes
of its routes, as `updateRIB` builds it. Everything a pass does for one prefix depends on that
prefix alone (`cell_programFIB`), whichever order the two `range` loops take.

* `inv_exec` — what the records say about the forwarding plane after any run;
* `stale_iff_since` — a route is left behind exactly by a failed `Withdraw` no later `Update` made
  good;
* `fib_converges_iff` — when the forwarding plane converges once no call fails any more.
-/

namespace Goisis.Server

open Lib Packet List RouteInfo

variable {r : RouteInfo} {view : Map Prefix RouteInfo} {p : Prefix}

/-! ## Tables, events and the state -/

/-- A route set by prefix: `map[netip.Prefix]RouteInfo` as `updateRIB` fills it. -/
structure RouteTable where
  routes : Map Prefix RouteInfo
  keyed : ∀ p r, routes.lookup p = some r → r.pfx = p

variable {t : RouteTable}

namespace RouteTable

/-- The table without routes. -/
def empty : RouteTable := ⟨∅, fun _ _ h => nomatch h⟩

/-- The routes, in the order a `range` over the table takes. -/
def list (t : RouteTable) : List RouteInfo := t.routes.entries.map (·.2)

/-- The table with one route. -/
def single (r : RouteInfo) : RouteTable where
  routes := (∅ : Map Prefix RouteInfo).insert r.pfx r
  keyed p q h := by
    rw [Map.lookup_insert_ite] at h
    split at h
    · rename_i hp
      rw [← Option.some.inj h, hp]
    · cases h

theorem mem_list : r ∈ t.list ↔ t.routes.lookup r.pfx = some r := by
  rw [list, mem_map]
  constructor
  · rintro ⟨e, he, rfl⟩
    have hlookup : t.routes.lookup e.1 = some e.2 := AList.mem_lookup_iff.mpr he
    rwa [t.keyed _ _ hlookup]
  · intro h
    exact ⟨⟨r.pfx, r⟩, AList.mem_lookup_iff.mp h, rfl⟩

theorem nodup_list (t : RouteTable) : (t.list.map (·.pfx)).Nodup := by
  have hkeys : t.list.map (·.pfx) = t.routes.entries.map Sigma.fst := by
    rw [list, List.map_map]
    refine map_congr_left fun e he => ?_
    exact t.keyed _ _ (AList.mem_lookup_iff.mpr he)
  rw [hkeys]
  exact t.routes.nodupKeys

end RouteTable

/-- The table `updateRIB` computes. -/
def RoutingServer.table (s : RoutingServer) (o : Level → UInt8 → SpfOrder) (now : Int) :
    RouteTable where
  routes := (s.updateRIB o now).rib
  keyed p r h := by
    rw [lookup_rib] at h
    obtain ⟨m, -, hm⟩ := Option.bind_eq_some_iff.mp h
    exact routeInfo_pfx hm

/-- A route `Event`. -/
structure RouteEvent where
  route : RouteInfo
  withdrawn : Bool
deriving DecidableEq, Repr

/-- `fib.Nexthop`. -/
structure Nexthop where
  interface : String
  gateway : Addr
deriving DecidableEq, Repr

/-- `FIBFilter`; none programs every route. -/
abbrev FIBFilter := Option (RouteInfo → Bool)

/-- The policy lets the route into the forwarding plane. -/
def FIBFilter.accepts (filter : FIBFilter) (r : RouteInfo) : Bool := filter.all fun f => f r

/-- The prefixes whose `Update` or `Withdraw` fails in a pass. -/
structure FibFaults where
  update : Prefix → Bool
  withdraw : Prefix → Bool

/-- No call fails. -/
def FibFaults.none : FibFaults := ⟨fun _ => false, fun _ => false⟩

/-- The fields `programFIB` works on, the forwarding plane, and the route events sent so far to a
subscriber that keeps up. -/
structure FibServer where
  rib : RouteTable
  fibInstalled : Finset Prefix
  fibPending : Finset Prefix
  fib : Map Prefix (List Nexthop)
  sent : List RouteEvent

/-- The next hops of a route as they are written. -/
def RouteInfo.nexthops (r : RouteInfo) : List Nexthop :=
  r.nextHops.map fun nh => ⟨nh.interface, nh.gateway⟩

/-- `sameRoute(a, b)`. -/
def sameRoute (a b : RouteInfo) : Bool :=
  if a.metric ≠ b.metric ∨ a.algorithm ≠ b.algorithm ∨
    a.nextHops.length ≠ b.nextHops.length then false
  else a.nextHops == b.nextHops

theorem sameRoute_iff {a b : RouteInfo} : sameRoute a b = true ↔
    a.metric = b.metric ∧ a.algorithm = b.algorithm ∧ a.nextHops = b.nextHops := by
  unfold sameRoute
  split
  · rename_i h
    simp only [Bool.false_eq_true, false_iff, not_and]
    intro hm ha hn
    rcases h with h | h | h
    · exact h hm
    · exact h ha
    · exact h (congrArg length hn)
  · rename_i h
    simp only [not_or, not_not] at h
    simp [h.1, h.2.1]

/-! ## A pass -/

/-- The route differs from the one the table has, as far as `programFIB` looks. -/
def changedRoute (old : Option RouteInfo) (r : RouteInfo) : Bool := !old.any fun o => sameRoute o r

namespace FibServer

/-- The server before its first computation, with the forwarding plane swept. -/
def new : FibServer := ⟨RouteTable.empty, ∅, ∅, ∅, []⟩

variable (s : FibServer)

/-- `emitRoute(r, withdrawn)`. -/
def emitRoute (r : RouteInfo) (withdrawn : Bool) : FibServer :=
  { s with sent := s.sent ++ [⟨r, withdrawn⟩] }

/-- The removal of an unwanted prefix, the same in both loops. Its record is dropped whether or not
the call fails. -/
def withdraw (fails : Bool) (p : Prefix) : FibServer :=
  { s with
    fib := if p ∈ s.fibInstalled ∧ fails = false then s.fib.erase p else s.fib
    fibInstalled := s.fibInstalled.erase p
    fibPending := s.fibPending.erase p }

/-- One turn of the loop over the new routes. -/
def programRoute (filter : FIBFilter) (faults : FibFaults) (s : FibServer) (r : RouteInfo) :
    FibServer :=
  let p := r.pfx
  let changed := changedRoute (s.rib.routes.lookup p) r
  let s := if changed then s.emitRoute r false else s
  if !filter.accepts r then s.withdraw (faults.withdraw p) p
  else if !changed && decide (p ∈ s.fibInstalled) && !decide (p ∈ s.fibPending) then s
  else if faults.update p then { s with fibPending := insert p s.fibPending }
  else
    { s with
      fib := s.fib.insert p r.nexthops
      fibPending := s.fibPending.erase p
      fibInstalled := insert p s.fibInstalled }

/-- One turn of the loop over the old routes. -/
def withdrawGone (faults : FibFaults) (next : RouteTable) (s : FibServer) (old : RouteInfo) :
    FibServer :=
  if (next.routes.lookup old.pfx).isSome then s
  else (s.emitRoute old true).withdraw (faults.withdraw old.pfx) old.pfx

/-- `programFIB(next)`. -/
def programFIB (filter : FIBFilter) (faults : FibFaults) (next : RouteTable) : FibServer :=
  s.rib.list.foldl (withdrawGone faults next) (next.list.foldl (programRoute filter faults) s)

/-- The end of `updateRIB`: the new table is programmed and kept. -/
def updateRIB (filter : FIBFilter) (faults : FibFaults) (next : RouteTable) : FibServer :=
  { s.programFIB filter faults next with rib := next }

/-- The retry at the end of `housekeeping`. -/
def housekeeping (filter : FIBFilter) (faults : FibFaults) : FibServer :=
  if 0 < s.fibPending.card then s.programFIB filter faults s.rib else s

end FibServer

/-! ## A pass, prefix by prefix -/

/-- What a subscriber makes of an event. -/
def RouteEvent.apply (view : Map Prefix RouteInfo) (ev : RouteEvent) : Map Prefix RouteInfo :=
  if ev.withdrawn then view.erase ev.route.pfx else view.insert ev.route.pfx ev.route

/-- The routes a subscriber knows after the events. -/
def replayRoutes (view : Map Prefix RouteInfo) (events : List RouteEvent) : Map Prefix RouteInfo :=
  events.foldl RouteEvent.apply view

/-- Everything about one prefix: the records, what the forwarding plane has, and what a subscriber
has been told. -/
structure FibCell where
  installed : Bool
  pending : Bool
  routes : Option (List Nexthop)
  seen : Option RouteInfo
deriving DecidableEq

namespace FibCell

/-- The removal of the prefix. -/
def withdraw (c : FibCell) (fails : Bool) : FibCell :=
  ⟨false, false, if c.installed && !fails then none else c.routes, c.seen⟩

/-- The turn for a new route. -/
def program (c : FibCell) (filter : FIBFilter) (faults : FibFaults) (old : Option RouteInfo)
    (r : RouteInfo) : FibCell :=
  let changed := changedRoute old r
  let c := if changed then { c with seen := some r } else c
  if !filter.accepts r then c.withdraw (faults.withdraw r.pfx)
  else if !changed && c.installed && !c.pending then c
  else if faults.update r.pfx then { c with pending := true }
  else { c with pending := false, installed := true, routes := some r.nexthops }

/-- A whole pass from the table `old` to the table `next`, at one prefix. -/
def pass (c : FibCell) (filter : FIBFilter) (faults : FibFaults) (old next : RouteTable)
    (p : Prefix) : FibCell :=
  match next.routes.lookup p, old.routes.lookup p with
  | some r, cur => c.program filter faults cur r
  | none, some _ => { c with seen := none }.withdraw (faults.withdraw p)
  | none, none => c

end FibCell

/-- What the server, and a subscriber that started from `view`, have about a prefix. -/
def FibServer.cell (view : Map Prefix RouteInfo) (s : FibServer) (p : Prefix) : FibCell :=
  ⟨p ∈ s.fibInstalled, p ∈ s.fibPending, s.fib.lookup p, (replayRoutes view s.sent).lookup p⟩

open FibServer

variable {s : FibServer} {filter : FIBFilter} {faults : FibFaults} {next : RouteTable}

section Cells

variable {q : Prefix}

theorem cell_emitRoute (withdrawn : Bool) : (s.emitRoute r withdrawn).cell view q =
    if q = r.pfx then { s.cell view q with seen := if withdrawn then none else some r }
    else s.cell view q := by
  have hseen : (replayRoutes view (s.emitRoute r withdrawn).sent).lookup q =
      if q = r.pfx then (if withdrawn then none else some r)
      else (replayRoutes view s.sent).lookup q := by
    simp only [emitRoute, replayRoutes, foldl_concat, RouteEvent.apply]
    cases withdrawn with
    | false => exact Map.lookup_insert_ite _ _ _ _
    | true => exact Map.lookup_erase_ite _ _ _
  unfold cell
  rw [hseen]
  split <;> rfl

theorem cell_withdraw (fails : Bool) : (s.withdraw fails p).cell view q =
    if q = p then (s.cell view q).withdraw fails else s.cell view q := by
  by_cases hq : q = p
  · subst hq
    by_cases hin : q ∈ s.fibInstalled
    · cases fails with
      | false => simp [cell, withdraw, FibCell.withdraw, hin, AList.lookup_erase]
      | true => simp [cell, withdraw, FibCell.withdraw]
    · simp [cell, withdraw, FibCell.withdraw, hin]
  · unfold cell withdraw
    simp only [Finset.mem_erase, ne_eq, hq, not_false_eq_true, true_and]
    congr 1
    split
    · exact AList.lookup_erase_ne hq
    · rfl

theorem cell_programRoute_self : (s.programRoute filter faults r).cell view r.pfx =
    (s.cell view r.pfx).program filter faults (s.rib.routes.lookup r.pfx) r := by
  unfold programRoute FibCell.program
  simp only
  -- both sides announce first; what follows reads the announced state only through its cell
  generalize hann : (if changedRoute (s.rib.routes.lookup r.pfx) r = true then s.emitRoute r false
    else s) = ann
  have hcell : ann.cell view r.pfx = if changedRoute (s.rib.routes.lookup r.pfx) r = true
      then { s.cell view r.pfx with seen := some r } else s.cell view r.pfx := by
    rw [← hann]
    split
    · rw [cell_emitRoute, if_pos rfl]
      rfl
    · rfl
  rw [← hcell]
  split
  · rw [cell_withdraw, if_pos rfl]
  have hskip : (!changedRoute (s.rib.routes.lookup r.pfx) r && decide (r.pfx ∈ ann.fibInstalled) &&
      !decide (r.pfx ∈ ann.fibPending)) = (!changedRoute (s.rib.routes.lookup r.pfx) r &&
      (ann.cell view r.pfx).installed && !(ann.cell view r.pfx).pending) := rfl
  rw [hskip]
  split
  · rfl
  split
  · simp [cell]
  · simp [cell, AList.lookup_insert]

theorem cell_programRoute_other (hq : q ≠ r.pfx) :
    (s.programRoute filter faults r).cell view q = s.cell view q := by
  unfold programRoute
  simp only
  generalize hann : (if changedRoute (s.rib.routes.lookup r.pfx) r = true then s.emitRoute r false
    else s) = ann
  have hcell : ann.cell view q = s.cell view q := by
    rw [← hann]
    split
    · rw [cell_emitRoute, if_neg hq]
    · rfl
  rw [← hcell]
  split
  · rw [cell_withdraw, if_neg hq]
  split
  · rfl
  split
  · simp [cell, hq]
  · simp [cell, hq, AList.lookup_insert_ne hq]

@[simp] theorem rib_programRoute : (s.programRoute filter faults r).rib = s.rib := by
  unfold programRoute
  simp only
  repeat' split
  all_goals rfl

theorem keyedLoop_programRoute (old : RouteTable) :
    KeyedLoop (programRoute filter faults) (·.pfx) (cell view)
      (fun r c => c.program filter faults (old.routes.lookup r.pfx) r) (fun s => s.rib = old) where
  keeps _ _ hs := rib_programRoute.trans hs
  self _ _ hs := by rw [cell_programRoute_self, hs]
  other _ _ _ _ hk := cell_programRoute_other hk

theorem keyedLoop_withdrawGone (next : RouteTable) :
    KeyedLoop (withdrawGone faults next) (·.pfx) (cell view)
      (fun r c => if (next.routes.lookup r.pfx).isSome then c
        else { c with seen := none }.withdraw (faults.withdraw r.pfx)) (fun _ => True) where
  keeps _ _ _ := trivial
  self _ _ _ := by
    unfold withdrawGone
    split
    · rfl
    · rw [cell_withdraw, if_pos rfl, cell_emitRoute, if_pos rfl]
      rfl
  other _ _ _ _ hk := by
    unfold withdrawGone
    split
    · rfl
    · rw [cell_withdraw, if_neg hk, cell_emitRoute, if_neg hk]

theorem cell_foldl_programRoute : (next.list.foldl (programRoute filter faults) s).cell view p =
    (next.routes.lookup p).elim (s.cell view p)
      ((s.cell view p).program filter faults (s.rib.routes.lookup p)) := by
  cases hp : next.routes.lookup p with
  | none =>
    refine (keyedLoop_programRoute s.rib).read_of_forall_ne rfl fun r hr heq => ?_
    rw [RouteTable.mem_list, heq, hp] at hr
    cases hr
  | some r =>
    have hpfx : r.pfx = p := next.keyed p r hp
    subst hpfx
    exact (keyedLoop_programRoute s.rib).read_of_mem rfl next.nodup_list
      (RouteTable.mem_list.mpr hp)

/-- **A pass acts on every prefix by itself.** -/
theorem cell_programFIB : (s.programFIB filter faults next).cell view p =
    (s.cell view p).pass filter faults s.rib next p := by
  unfold programFIB FibCell.pass
  cases hold : s.rib.routes.lookup p with
  | none =>
    have hkeep : ∀ d : FibServer, (s.rib.list.foldl (withdrawGone faults next) d).cell view p =
        d.cell view p := by
      intro d
      refine (keyedLoop_withdrawGone next).read_of_forall_ne trivial fun r hr heq => ?_
      rw [RouteTable.mem_list, heq, hold] at hr
      cases hr
    rw [hkeep, cell_foldl_programRoute, hold]
    cases next.routes.lookup p <;> rfl
  | some o =>
    have hpfx : o.pfx = p := s.rib.keyed p o hold
    subst hpfx
    rw [(keyedLoop_withdrawGone next).read_of_mem trivial s.rib.nodup_list
      (RouteTable.mem_list.mpr hold), cell_foldl_programRoute, hold]
    cases next.routes.lookup o.pfx <;> rfl

end Cells

/-! ## Runs -/

/-- The calls that reach `programFIB`. -/
inductive FibOp where
  /-- A recomputation ends with this table. -/
  | updateRIB (next : RouteTable)
  /-- A tick. -/
  | housekeeping

/-- A call, with the policy's verdicts and the failures of its moment. -/
structure FibCall where
  op : FibOp
  filter : FIBFilter
  faults : FibFaults

/-- The table a call programs, if it programs one. -/
def FibCall.table (c : FibCall) (s : FibServer) : Option RouteTable :=
  match c.op with
  | .updateRIB next => some next
  | .housekeeping => if 0 < s.fibPending.card then some s.rib else none

namespace FibServer

/-- The state after a call. -/
def exec (s : FibServer) (c : FibCall) : FibServer :=
  match c.op with
  | .updateRIB next => s.updateRIB c.filter c.faults next
  | .housekeeping => s.housekeeping c.filter c.faults

/-- The state after a sequence of calls. -/
def run (s : FibServer) (calls : List FibCall) : FibServer := calls.foldl exec s

end FibServer

/-- The route the policy wants in the forwarding plane for a prefix. -/
def wanted (filter : FIBFilter) (next : RouteTable) (p : Prefix) : Option RouteInfo :=
  (next.routes.lookup p).filter filter.accepts

variable {c : FibCall} {calls : List FibCall}

theorem rib_foldl {f : FibServer → RouteInfo → FibServer} (hf : ∀ d r, (f d r).rib = d.rib)
    (l : List RouteInfo) (d : FibServer) : (l.foldl f d).rib = d.rib :=
  foldl_keeps hf l d

@[simp] theorem rib_programFIB : (s.programFIB filter faults next).rib = s.rib := by
  have hgone : ∀ d r, (withdrawGone faults next d r).rib = d.rib := by
    intro d r
    unfold withdrawGone
    split <;> rfl
  rw [programFIB, rib_foldl hgone, rib_foldl fun _ _ => rib_programRoute]

/-- A call without a table does nothing. -/
theorem exec_of_table_none (h : c.table s = none) : s.exec c = s := by
  obtain ⟨op, filter, faults⟩ := c
  cases op with
  | updateRIB next => cases h
  | housekeeping =>
    simp only [FibCall.table] at h
    split at h
    · cases h
    · rename_i hcard
      exact if_neg hcard

/-- Any other call programs its table, which is the table from then on. -/
theorem exec_of_table (h : c.table s = some t) :
    s.exec c = { s.programFIB c.filter c.faults t with rib := t } := by
  obtain ⟨op, filter, faults⟩ := c
  cases op with
  | updateRIB next =>
    cases h
    rfl
  | housekeeping =>
    simp only [FibCall.table] at h
    split at h
    · rename_i hcard
      cases h
      have hself : ∀ {d : FibServer} {t : RouteTable}, d.rib = t → d = { d with rib := t } := by
        rintro d t rfl
        rfl
      exact (if_pos hcard).trans (hself rib_programFIB)
    · cases h

theorem cell_exec (h : c.table s = some t) : (s.exec c).cell view p =
    (s.cell view p).pass c.filter c.faults s.rib t p := by
  rw [exec_of_table h, ← cell_programFIB]
  rfl

theorem rib_exec (h : c.table s = some t) : (s.exec c).rib = t := by rw [exec_of_table h]

/-! ## What the records say -/

/-- The records of a prefix tell the truth: only prefixes of the table are recorded, what is
recorded as installed is there, and unless a write is outstanding it is what the table asks for. -/
structure FibCell.Inv (c : FibCell) (cur : Option RouteInfo) : Prop where
  listed : c.installed = true ∨ c.pending = true → cur ≠ none
  present : c.installed = true → c.routes ≠ none
  written : c.installed = true → c.pending = false → c.routes = cur.map RouteInfo.nexthops

/-- The forwarding plane has a route the records do not know. -/
def FibCell.Stale (c : FibCell) : Prop := c.installed = false ∧ c.routes ≠ none

section Pass

variable {old : RouteTable} {c : FibCell}

theorem pass_of_wanted (h : wanted filter next p = some r) :
    c.pass filter faults old next p = c.program filter faults (old.routes.lookup p) r := by
  have hlookup := (Option.filter_eq_some_iff.mp h).1
  unfold FibCell.pass
  rw [hlookup]

/-- A prefix that is not wanted is withdrawn, unless neither table has it. -/
theorem pass_of_unwanted (c : FibCell) (faults : FibFaults) (old : RouteTable)
    (h : wanted filter next p = none) :
    (next.routes.lookup p = none ∧ old.routes.lookup p = none ∧
      c.pass filter faults old next p = c) ∨
    ∃ seen, c.pass filter faults old next p =
      { c with seen := seen }.withdraw (faults.withdraw p) := by
  unfold FibCell.pass
  cases hnext : next.routes.lookup p with
  | none =>
    cases hold : old.routes.lookup p with
    | none => exact .inl ⟨rfl, rfl, rfl⟩
    | some o => exact .inr ⟨none, rfl⟩
  | some r =>
    have hreject : filter.accepts r = false := by
      simpa [wanted, hnext, Option.filter_some] using h
    right
    simp only [FibCell.program, hreject, Bool.not_false, if_true, next.keyed p r hnext]
    split
    · exact ⟨some r, rfl⟩
    · exact ⟨c.seen, rfl⟩

/-- A wanted prefix is left as it is if it is installed, written and unchanged, and is written
otherwise. -/
theorem program_of_accepts (c : FibCell) (faults : FibFaults) (cur : Option RouteInfo)
    (h : filter.accepts r = true) :
    ∃ seen, c.program filter faults cur r =
      if changedRoute cur r = false ∧ c.installed = true ∧ c.pending = false then
        { c with seen := seen }
      else if faults.update r.pfx then { c with pending := true, seen := seen }
      else ⟨true, false, some r.nexthops, seen⟩ := by
  unfold FibCell.program
  simp only [h, Bool.not_true, Bool.false_eq_true, if_false, Bool.and_eq_true, Bool.not_eq_true']
  cases changedRoute cur r with
  | false => exact ⟨c.seen, by simp⟩
  | true => exact ⟨some r, by simp⟩

theorem changedRoute_eq_false {cur : Option RouteInfo} (h : changedRoute cur r = false) :
    cur.map nexthops = some r.nexthops := by
  cases cur with
  | none => cases h
  | some o =>
    have hsame : sameRoute o r = true := by simpa [changedRoute] using h
    rw [Option.map_some, nexthops, (sameRoute_iff.mp hsame).2.2, nexthops]

/-- **A pass keeps the records true.** -/
theorem FibCell.Inv.pass (hc : c.Inv (old.routes.lookup p)) :
    (c.pass filter faults old next p).Inv (next.routes.lookup p) := by
  cases hw : wanted filter next p with
  | none =>
    rcases pass_of_unwanted c faults old hw with
      ⟨hnext, hold, heq⟩ | ⟨seen, heq⟩
    · rw [heq, hnext, ← hold]
      exact hc
    · rw [heq]
      exact ⟨by simp [FibCell.withdraw], by simp [FibCell.withdraw], by simp [FibCell.withdraw]⟩
  | some r =>
    obtain ⟨hnext, haccept⟩ := Option.filter_eq_some_iff.mp hw
    rw [pass_of_wanted hw, hnext]
    obtain ⟨seen, heq⟩ := program_of_accepts c faults (old.routes.lookup p) haccept
    rw [heq]
    split
    · rename_i hkeep
      refine ⟨fun _ => nofun, hc.present, fun hin hpend => ?_⟩
      rw [Option.map_some, ← changedRoute_eq_false hkeep.1]
      exact hc.written hin hpend
    · split
      · exact ⟨fun _ => nofun, hc.present, fun _ hpend => nomatch hpend⟩
      · exact ⟨fun _ => nofun, fun _ => nofun, fun _ _ => rfl⟩

/-- **What a pass leaves behind**: a failed withdrawal adds to it, a successful write mends it. -/
theorem stale_pass_iff (hc : c.Inv (old.routes.lookup p)) :
    (c.pass filter faults old next p).Stale ↔
      (c.installed = true ∧ wanted filter next p = none ∧ faults.withdraw p = true) ∨
      (c.Stale ∧ ¬((wanted filter next p).isSome = true ∧ faults.update p = false)) := by
  cases hw : wanted filter next p with
  | none =>
    rcases pass_of_unwanted c faults old hw with
      ⟨hnext, hold, heq⟩ | ⟨seen, heq⟩
    · have hin : c.installed = false := by
        rw [← Bool.not_eq_true]
        exact fun h => hc.listed (.inl h) hold
      simp [heq, hin]
    · rw [heq]
      cases hin : c.installed with
      | false => simp [FibCell.Stale, FibCell.withdraw, hin]
      | true => cases hf : faults.withdraw p <;>
        simp [FibCell.Stale, FibCell.withdraw, hin, hc.present hin]
  | some r =>
    obtain ⟨hnext, haccept⟩ := Option.filter_eq_some_iff.mp hw
    have hpfx : r.pfx = p := next.keyed p r hnext
    rw [pass_of_wanted hw]
    obtain ⟨seen, heq⟩ := program_of_accepts c faults (old.routes.lookup p) haccept
    rw [heq, hpfx]
    split
    · rename_i hkeep
      simp [FibCell.Stale, hkeep.2.1]
    split
    · rename_i hfail
      simp [FibCell.Stale, hfail]
    · rename_i hok
      simp [FibCell.Stale, Bool.eq_false_iff.mpr hok]

/-- **A pass without failures** gives the forwarding plane what the policy wants, apart from what
was left behind, and leaves no write outstanding. -/
theorem pass_none (hc : c.Inv (old.routes.lookup p)) :
    ((c.pass filter .none old next p).routes = (wanted filter next p).map nexthops ↔
      (wanted filter next p = none → ¬c.Stale)) ∧
      (c.pass filter .none old next p).pending = false := by
  cases hw : wanted filter next p with
  | none =>
    rcases pass_of_unwanted c .none old hw with
      ⟨hnext, hold, heq⟩ | ⟨seen, heq⟩
    · have hin : c.installed = false := by
        rw [← Bool.not_eq_true]
        exact fun h => hc.listed (.inl h) hold
      have hpend : c.pending = false := by
        rw [← Bool.not_eq_true]
        exact fun h => hc.listed (.inr h) hold
      simp [heq, hin, hpend, FibCell.Stale]
    · rw [heq]
      cases hin : c.installed <;> simp [FibCell.withdraw, FibCell.Stale, FibFaults.none, hin]
  | some r =>
    obtain ⟨hnext, haccept⟩ := Option.filter_eq_some_iff.mp hw
    rw [pass_of_wanted hw]
    obtain ⟨seen, heq⟩ := program_of_accepts c .none (old.routes.lookup p) haccept
    rw [heq]
    split
    · rename_i hkeep
      have hroutes : c.routes = some r.nexthops := by
        rw [hc.written hkeep.2.1 hkeep.2.2, changedRoute_eq_false hkeep.1]
      simp [hroutes, hkeep.2.2]
    · simp [FibFaults.none]

end Pass

/-! ## What a run leaves behind -/

/-- The call's `Withdraw` of an installed prefix fails. -/
def FibServer.Loses (s : FibServer) (p : Prefix) (c : FibCall) : Prop :=
  ∃ t, c.table s = some t ∧ p ∈ s.fibInstalled ∧ wanted c.filter t p = none ∧
    c.faults.withdraw p = true

/-- The call wants the prefix, and its `Update` does not fail. -/
def FibServer.Regains (s : FibServer) (p : Prefix) (c : FibCall) : Prop :=
  ∃ t, c.table s = some t ∧ (wanted c.filter t p).isSome = true ∧ c.faults.update p = false

/-- Every failed withdrawal of the prefix is followed by a successful update. -/
def MadeGood (calls : List FibCall) (p : Prefix) : Prop :=
  ∀ before c after, calls = before ++ c :: after → (new.run before).Loses p c →
    ∃ mid d, mid ++ [d] <+: after ∧ (new.run (before ++ c :: mid)).Regains p d

/-- What the server has about a prefix after a run. -/
def cellAfter (calls : List FibCall) (p : Prefix) : FibCell := (new.run calls).cell ∅ p

theorem cellAfter_concat_of_table_none (h : c.table (new.run calls) = none) :
    cellAfter (calls ++ [c]) p = cellAfter calls p := by
  unfold cellAfter run
  rw [foldl_concat]
  exact congrArg (cell ∅ · p) (exec_of_table_none h)

theorem cellAfter_concat (h : c.table (new.run calls) = some t) : cellAfter (calls ++ [c]) p =
      (cellAfter calls p).pass c.filter c.faults (new.run calls).rib t p := by
  unfold cellAfter run
  rw [foldl_concat]
  exact cell_exec h

/-- **The records stay true along every run.** -/
theorem inv_exec (calls : List FibCall) (p : Prefix) :
    (cellAfter calls p).Inv ((new.run calls).rib.routes.lookup p) := by
  induction calls using reverseRecOn with
  | nil => exact ⟨by simp [cellAfter, run, cell, new], nofun, nofun⟩
  | append_singleton calls c ih =>
    cases ht : c.table (new.run calls) with
    | none =>
      have hrun : new.run (calls ++ [c]) = new.run calls :=
        (foldl_concat _ _ _ _).trans (exec_of_table_none ht)
      rw [cellAfter_concat_of_table_none ht, hrun]
      exact ih
    | some t =>
      have hrib : (new.run (calls ++ [c])).rib = t :=
        (congrArg rib (foldl_concat _ _ _ _)).trans (rib_exec ht)
      rw [cellAfter_concat ht, hrib]
      exact ih.pass

/-- **A route is left behind exactly by a failed withdrawal no update made good.** -/
theorem stale_iff_since : (cellAfter calls p).Stale ↔
    Since (fun h c => (new.run h).Loses p c) (fun h c => (new.run h).Regains p c) calls := by
  induction calls using reverseRecOn with
  | nil => exact ⟨fun h => absurd rfl h.2, fun h => absurd h not_since_nil⟩
  | append_singleton calls c ih =>
    rw [since_concat, ← ih]
    cases ht : c.table (new.run calls) with
    | none =>
      rw [cellAfter_concat_of_table_none ht]
      simp [FibServer.Loses, FibServer.Regains, ht]
    | some t =>
      rw [cellAfter_concat ht, stale_pass_iff (inv_exec calls p)]
      simp [FibServer.Loses, FibServer.Regains, ht, cellAfter, cell]

theorem not_stale_iff : ¬(cellAfter calls p).Stale ↔ MadeGood calls p := by
  rw [stale_iff_since, not_since_iff]
  rfl

/-! ## Convergence -/

/-- One recomputation and one tick in which no call fails. -/
def FibServer.settle (s : FibServer) (filter : FIBFilter) (next : RouteTable) : FibServer :=
  (s.updateRIB filter .none next).housekeeping filter .none

theorem settle_eq (s : FibServer) (filter : FIBFilter) (next : RouteTable)
    (h : ∀ p, ((s.updateRIB filter .none next).cell ∅ p).pending = false) :
    s.settle filter next = s.updateRIB filter .none next := by
  have hempty : (s.updateRIB filter .none next).fibPending = ∅ := by
    refine Finset.eq_empty_of_forall_notMem fun p hp => ?_
    have := h p
    simp [cell, hp] at this
  refine if_neg ?_
  rw [hempty]
  exact Nat.lt_irrefl 0

/-- A route through one gateway. -/
def sampleRoute : RouteInfo :=
  ⟨⟨.v4 ⟨[10, 9, 9, 0], rfl⟩, 24⟩, 10, .level2, 2, 0, [⟨"c", .v4 ⟨[10, 0, 0, 2], rfl⟩⟩]⟩

/-- The route is installed, then leaves the table while its withdrawal fails. -/
def failedWithdrawal : List FibCall :=
  [⟨.updateRIB (.single sampleRoute), none, .none⟩,
    ⟨.updateRIB .empty, none, ⟨fun _ => false, fun _ => true⟩⟩]

/-- **A withdrawal that failed once is never retried**: with an empty table and no failures the
route is still forwarded. -/
theorem failed_withdrawal_survives :
    wanted none .empty sampleRoute.pfx = none ∧
      ((new.run failedWithdrawal).settle none .empty).fib.lookup sampleRoute.pfx =
        some sampleRoute.nexthops := by
  decide

/-- **The forwarding plane converges exactly if every failed withdrawal was made good.** After any
run, a recomputation to `next` and a tick without failures leave the forwarding plane with the
routes of `next` the policy accepts and nothing else, unless a prefix that is not among them was
withdrawn once without success and never written again. -/
theorem fib_converges_iff (calls : List FibCall) (filter : FIBFilter) (next : RouteTable) :
    (∀ p, ((new.run calls).settle filter next).fib.lookup p =
      (wanted filter next p).map RouteInfo.nexthops) ↔
    ∀ p, wanted filter next p = none → MadeGood calls p := by
  have hpass : ∀ p, ((new.run calls).updateRIB filter .none next).cell ∅ p =
      (cellAfter calls p).pass filter .none (new.run calls).rib next p :=
    fun p => cell_exec (c := ⟨.updateRIB next, filter, .none⟩) rfl
  have hsettle := settle_eq (new.run calls) filter next fun p => by
    rw [hpass p]
    exact (pass_none (inv_exec calls p)).2
  rw [hsettle]
  refine forall_congr' fun p => ?_
  have hroutes : ((new.run calls).updateRIB filter .none next).fib.lookup p =
      ((cellAfter calls p).pass filter .none (new.run calls).rib next p).routes := by
    rw [← hpass p]
    rfl
  rw [hroutes, (pass_none (inv_exec calls p)).1, not_stale_iff]

end Goisis.Server
