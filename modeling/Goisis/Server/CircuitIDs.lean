import Goisis.Server.P2PSync
import Mathlib.Order.Interval.Finset.Nat

/-!
# The identity of a circuit

`allocCircuitIDs` gives a circuit two numbers. Its pseudonode octet is one that no live circuit has,
found by a sweep from where the last one ended; its extended circuit ID is the next of a counter. A
three-way hello names the circuit it is meant for by that second number, so what brings an adjacency
Up was said to this circuit and not to an earlier one of its name.

* `allocCircuitIDs_eq_none_iff` — the sweep fails exactly when 255 circuits are live;
* `counted_after` — the extended circuit IDs of a run are 1, 2, 3 and so on;
* `addressed_of_up` — the hello behind an adjacency that is Up;
* `circuit_identity` — together, for every state of every run.
-/

namespace Goisis.Server

open Lib Packet IsisServer NodeServer List Circuit

/-! ## Allocation -/

namespace IsisServer

/-- The loop of `allocCircuitIDs`, with the cursor it leaves. -/
def sweepOctets (used : List UInt8) : Nat → Nat → Option UInt8 × Nat
  | 0, cursor => (none, cursor)
  | tries + 1, cursor =>
    let cursor := cursor % 255 + 1
    if used.contains (UInt8.ofNat cursor) then sweepOctets used tries cursor
    else (some (UInt8.ofNat cursor), cursor)

/-- `allocCircuitIDs()`. -/
def allocCircuitIDs (s : IsisServer) : Option (UInt8 × UInt32) × IsisServer :=
  match sweepOctets (s.circuits.map (·.pseudonodeID)) 255 s.pseudonodeCursor with
  | (some octet, cursor) =>
    (some (octet, s.nextExtCircID + 1),
      { s with nextExtCircID := s.nextExtCircID + 1, pseudonodeCursor := cursor })
  | (none, cursor) => (none, { s with pseudonodeCursor := cursor })

variable {s : IsisServer} {used : List UInt8}

theorem sweepOctets_of_some {tries cursor next : Nat}
    (h : nextPseudonode used tries cursor = some next) :
    sweepOctets used tries cursor = (some (UInt8.ofNat next), next) ∧ 1 ≤ next ∧ next ≤ 255 := by
  induction tries generalizing cursor with
  | zero => cases h
  | succ tries ih =>
    unfold nextPseudonode at h
    unfold sweepOctets
    simp only at h ⊢
    split at h
    · rw [if_pos ‹_›]
      exact ih h
    rw [if_neg ‹_›]
    cases h
    exact ⟨rfl, by omega, by omega⟩

/-- A sweep that finds nothing has gone through all its tries. -/
theorem sweepOctets_of_none {tries cursor : Nat} (h : nextPseudonode used tries cursor = none) :
    sweepOctets used tries cursor =
      (none, if tries = 0 then cursor else (cursor + tries - 1) % 255 + 1) := by
  induction tries generalizing cursor with
  | zero => rfl
  | succ tries ih =>
    unfold nextPseudonode at h
    unfold sweepOctets
    simp only at h ⊢
    split at h
    · rw [if_pos ‹_›, ih h]
      refine Prod.ext rfl ?_
      simp only [Nat.add_eq_zero_iff, Nat.one_ne_zero, and_false, if_false]
      split <;> omega
    · cases h

theorem allocCircuitIDs_eq_none :
    s.allocCircuitIDs.1 = none ↔
      nextPseudonode (s.circuits.map (·.pseudonodeID)) 255 s.pseudonodeCursor = none := by
  unfold allocCircuitIDs
  cases h : nextPseudonode (s.circuits.map (·.pseudonodeID)) 255 s.pseudonodeCursor with
  | none =>
    rw [sweepOctets_of_none h]
    exact ⟨fun _ => rfl, fun _ => rfl⟩
  | some next =>
    rw [(sweepOctets_of_some h).1]
    exact ⟨fun h => (by cases h), fun h => (by cases h)⟩

/-- There are 255 octets beside zero. -/
theorem length_le_of_octets {l : List UInt8} (hnodup : l.Nodup) (hzero : ∀ x ∈ l, x ≠ 0) :
    l.length ≤ 255 := by
  have hsub : (l.map UInt8.toNat).toFinset ⊆ Finset.Icc 1 255 := by
    intro n hn
    obtain ⟨x, hx, rfl⟩ := mem_map.mp (mem_toFinset.mp hn)
    have hpos : x.toNat ≠ 0 := fun h => hzero x hx (UInt8.toNat_inj.mp h)
    have := x.toNat_lt
    exact Finset.mem_Icc.mpr ⟨by omega, by omega⟩
  have hcard : (l.map UInt8.toNat).toFinset.card = l.length := by
    rw [toFinset_card_of_nodup (hnodup.map fun _ _ => UInt8.toNat_inj.mp), length_map]
  have hle := Finset.card_le_card hsub
  rw [hcard, Nat.card_Icc] at hle
  omega

/-- **The sweep fails exactly when 255 circuits are live.** -/
theorem allocCircuitIDs_eq_none_iff (hs : s.OctetsApart) :
    s.allocCircuitIDs.1 = none ↔ s.circuits.length = 255 := by
  have hzero : ∀ x ∈ s.circuits.map (·.pseudonodeID), x ≠ 0 := by
    intro x hx
    obtain ⟨c, hc, rfl⟩ := mem_map.mp hx
    exact hs.ne_zero c hc
  have hle := length_le_of_octets hs.nodup hzero
  rw [length_map] at hle
  rw [allocCircuitIDs_eq_none]
  constructor
  · intro hnone
    by_contra hne
    have hroom : (s.circuits.map (·.pseudonodeID)).length < 255 := by
      rw [length_map]
      omega
    obtain ⟨next, hnext⟩ := Managed.nextPseudonode_of_lt hroom s.pseudonodeCursor
    cases hnone.symm.trans hnext
  · intro hfull
    cases h : nextPseudonode (s.circuits.map (·.pseudonodeID)) 255 s.pseudonodeCursor with
    | none => rfl
    | some next =>
      -- a free octet would be the 256th
      obtain ⟨hfresh, hne⟩ := nextPseudonode_eq_some h
      have hmore : (UInt8.ofNat next :: s.circuits.map (·.pseudonodeID)).length ≤ 255 :=
        length_le_of_octets (nodup_cons.mpr ⟨hfresh, hs.nodup⟩) (forall_mem_cons.mpr ⟨hne, hzero⟩)
      rw [length_cons, length_map, hfull] at hmore
      omega

/-- A full sweep ends where it started. -/
theorem allocCircuitIDs_refused (hpos : 1 ≤ s.pseudonodeCursor) (hle : s.pseudonodeCursor ≤ 255)
    (h : s.allocCircuitIDs.1 = none) : s.allocCircuitIDs.2 = s := by
  have hback : (s.pseudonodeCursor + 255 - 1) % 255 + 1 = s.pseudonodeCursor := by omega
  unfold allocCircuitIDs
  rw [sweepOctets_of_none (allocCircuitIDs_eq_none.mp h)]
  simp only [OfNat.ofNat_ne_zero, if_false, hback]

end IsisServer

/-! ## Counting -/

/-- The first extended circuit IDs. -/
def extIDs (n : Nat) : List UInt32 := (range n).map fun i => UInt32.ofNat (i + 1)

theorem extIDs_succ (n : Nat) : extIDs (n + 1) = extIDs n ++ [UInt32.ofNat (n + 1)] := by
  unfold extIDs
  rw [range_succ, map_append]
  rfl

theorem nodup_extIDs {n : Nat} (h : n < 2 ^ 32) : (extIDs n).Nodup := by
  refine Nodup.map_on (fun i hi j hj heq => ?_) nodup_range
  have hi := mem_range.mp hi
  have hj := mem_range.mp hj
  have hnat := congrArg UInt32.toNat heq
  simp only [UInt32.toNat_ofNat'] at hnat
  omega

/-- The extended circuit IDs given out so far: in order, the live ones among them. The cursor has
left zero with the first. -/
structure Roster.Counted (r : Roster) (given : List UInt32) : Prop where
  next : r.nextExtCircID = UInt32.ofNat given.length
  inOrder : given = extIDs given.length
  live : (r.circuits.map (·.2)).Sublist given
  cursor : r.pseudonodeCursor ≤ 255
  started : r.circuits ≠ [] → 1 ≤ r.pseudonodeCursor

section Counted

variable {given : List UInt32} {a b : IsisServer}

theorem Roster.Counted.installCircuit {cfg : CircuitConfig} (ha : a.roster.Counted given)
    (h : a.installCircuit cfg = some b) : b.roster.Counted (given ++ [b.nextExtCircID]) := by
  unfold IsisServer.installCircuit at h
  split at h
  · cases h
  rename_i next hnext
  cases h
  obtain ⟨-, hpos, hle⟩ := sweepOctets_of_some hnext
  have hext : a.nextExtCircID + 1 = UInt32.ofNat (given.length + 1) := by
    have hnext : a.nextExtCircID = UInt32.ofNat given.length := ha.next
    rw [hnext, UInt32.ofNat_add]
    rfl
  refine ⟨?_, ?_, ?_, hle, fun _ => hpos⟩
  · rw [length_append]
    exact hext
  · rw [length_append, length_singleton, extIDs_succ, ← ha.inOrder, ← hext]
  · simp only [roster, map_append, map_cons, map_nil]
    exact ha.live.append (Sublist.refl _)

theorem Roster.Counted.thinned {r : Roster} (hr : r.Counted given) {ids : List (UInt8 × UInt32)}
    (h : ids.Sublist r.circuits) : { r with circuits := ids }.Counted given where
  next := hr.next
  inOrder := hr.inOrder
  live := (h.map _).trans hr.live
  cursor := hr.cursor
  started hne := hr.started fun hnil => hne (by rw [hnil] at h; exact sublist_nil.mp h)

end Counted

/-- The extended circuit IDs the events of a run give out. -/
def NodeServer.idsGiven : List (Int × NodeEvent) → NodeServer → List UInt32
  | [], _ => []
  | e :: es, s => e.2.gives s ++ idsGiven es (e.2.exec e.1 s).1

/-- Those of a run and of its start: one for each circuit that was added. -/
def NodeServer.additions (s₀ : NodeServer) (es : List (Int × NodeEvent)) : List UInt32 :=
  s₀.circuits.map (·.extCircID) ++ idsGiven es s₀

section Runs

variable {o : NodeOptions} {s₀ : NodeServer} {cn : String}

theorem additions_concat (es : List (Int × NodeEvent)) (e : Int × NodeEvent) :
    s₀.additions (es ++ [e]) = s₀.additions es ++ e.2.gives (s₀.after es) := by
  have hgiven : ∀ s : NodeServer, idsGiven (es ++ [e]) s =
      idsGiven es s ++ e.2.gives (s.after es) := by
    induction es with
    | nil => exact fun s => append_nil _
    | cons x es ih =>
      intro s
      rw [cons_append, idsGiven, idsGiven, ih, append_assoc]
      rfl
  unfold additions
  rw [hgiven, append_assoc]

theorem counted_newNodeServer (h : newNodeServer o = .ok s₀) :
    s₀.roster.Counted (s₀.circuits.map (·.extCircID)) := by
  obtain ⟨-, hbase, -⟩ := newNodeServer_base h
  refine newIsisServer_induction
    (P := fun s => s.roster.Counted (s.circuits.map extCircID)) hbase
    ⟨rfl, rfl, Sublist.refl _, Nat.zero_le _, fun h => absurd rfl h⟩ (fun a cfg b hi ha => ?_)
    fun _ ha => ha
  have hids : b.circuits.map extCircID = a.circuits.map extCircID ++ [b.nextExtCircID] := by
    unfold installCircuit at hi
    split at hi
    · cases hi
    · cases hi
      exact map_append
  rw [hids]
  exact ha.installCircuit hi

/-- **The extended circuit IDs of a run are handed out in order.** -/
theorem counted_after (h : newNodeServer o = .ok s₀) (es : List (Int × NodeEvent)) :
    (s₀.after es).roster.Counted (s₀.additions es) := by
  induction es using reverseRecOn with
  | nil =>
    unfold additions idsGiven
    rw [append_nil]
    exact counted_newNodeServer h
  | append_singleton es e ih =>
    rw [after_concat, additions_concat]
    rcases roster_exec (namesApart_after h es) e.1 e.2 with
      ⟨cfg, b, hb, hgives, heq⟩ | ⟨hgives, ids, hsub, heq⟩
    · rw [hgives, heq]
      exact ih.installCircuit hb
    · rw [hgives, heq, append_nil]
      exact ih.thinned hsub

/-! ## Three-way hellos -/

/-- In the run, a hello was received on the circuit of a name, from a neighbour, whose three-way
option names this node and an extended circuit ID. The circuit had that ID and has not been deleted
since. -/
def NodeServer.Addressed (s₀ : NodeServer) (cn : String) (nb : SystemID) (ext : UInt32)
    (es : List (Int × NodeEvent)) : Prop :=
  ∃ before at_ frame jitter scan since, es = before ++ (at_, .rx cn frame jitter scan) :: since ∧
    (∃ d, (s₀.after before).circuitNamed cn = some d ∧ d.extCircID = ext) ∧
    (∀ e ∈ since, e.2.deletes cn = false) ∧
    ∃ h, decodePDU (trimToPDULength frame.pdu) = .ok (.p2pHello h) ∧ h.sourceID = nb ∧
      Circuit.echoOf h = some (s₀.systemID, ext)

theorem NodeServer.Addressed.concat {nb : SystemID} {ext : UInt32} {es : List (Int × NodeEvent)}
    (h : s₀.Addressed cn nb ext es) {e : Int × NodeEvent} (hstays : e.2.deletes cn = false) :
    s₀.Addressed cn nb ext (es ++ [e]) := by
  obtain ⟨before, at_, frame, jitter, scan, since, rfl, hcircuit, hsince, hhello⟩ := h
  refine ⟨before, at_, frame, jitter, scan, since ++ [e], by simp, hcircuit, fun x hx => ?_, hhello⟩
  rcases mem_append.mp hx with hx | hx
  · exact hsince x hx
  · rw [mem_singleton.mp hx]
    exact hstays

/-- **What brings an adjacency Up was said to this circuit.** -/
theorem addressed_of_up (h : newNodeServer o = .ok s₀) (es : List (Int × NodeEvent)) {c : Circuit}
    (hc : (s₀.after es).circuitNamed cn = some c) :
    ∀ a, c.p2pAdj = some a → a.state = .up → s₀.Addressed cn a.systemID c.extCircID es := by
  refine circuit_induction (P := fun es c => ∀ a, c.p2pAdj = some a → a.state = .up →
    s₀.Addressed cn a.systemID c.extCircID es) h cn ?_ ?_ ?_ es hc
  · intro es c d hbare hc a ha hup
    have hext : d.extCircID = c.extCircID := congrArg (·.extCircID) hbare
    rw [hext]
    exact hc a ((congrArg (·.p2pAdj) hbare).symm.trans ha) hup
  · intro es cfg pn ext a ha
    cases ha
  · intro es now ev c hc hstays ih a ha hup
    have hext : (ev.onCircuit (s₀.after es) now cn c).extCircID = c.extCircID :=
      congrArg (·.extCircID) (shell_onCircuit ev c)
    rw [hext]
    rcases p2pAdj_onCircuit (s₀.after es) now cn ev c with hsame | hgone |
      ⟨frame, jitter, scan, hello, rfl, hpdu, hheard⟩
    · exact (ih a (hsame.symm.trans ha) hup).concat hstays
    · cases hgone.symm.trans ha
    · obtain rfl : c.p2pHeard (s₀.after es).systemID (s₀.after es).areaAddrs frame.src hello
        now = a :=
        Option.some.inj (hheard.symm.trans ha)
      rw [neighbor_p2pHeard]
      have hstate : c.p2pState (s₀.after es).systemID frame.src hello = .up := hup
      unfold p2pState at hstate
      split at hstate
      · rename_i hcause
        rcases Bool.or_eq_true_iff.mp hcause with hheld | hecho
        · -- a restart request holds an adjacency that was Up already
          obtain ⟨b, hb, hholds⟩ := (Option.any_eq_true _ _).mp (Bool.and_eq_true_iff.mp hheld).2
          simp only [Bool.and_eq_true, beq_iff_eq] at hholds
          have hbefore := ih b hb hholds.1.2
          rw [hholds.1.1] at hbefore
          exact hbefore.concat hstays
        · have hecho := eq_of_beq hecho
          rw [systemID_after h] at hecho
          exact ⟨es, now, frame, jitter, scan, [], rfl, ⟨c, hc, rfl⟩,
            fun e he => absurd he not_mem_nil, hello, hpdu, rfl, hecho⟩
      · cases hstate

/-! ## Identity -/

/-- The octet check of `addCircuit` on the node. -/
theorem addCircuit_noPseudonode_iff {s : NodeServer} (hs : s.OctetsApart) {cfg : CircuitConfig}
    (hv : cfg.validate = .ok ()) (hnew : s.circuitNamed cfg.name = none) (hmtu : 515 ≤ cfg.mtu) :
    s.managed.addCircuit cfg = .error (.config .noPseudonode) ↔ s.circuits.length = 255 := by
  have hfind : s.managed.circuits.find? (fun c => c.cfg.name = cfg.withDefaults.name) = none := by
    rw [find?_eq_none]
    intro c hc
    obtain ⟨d, hd, rfl⟩ := mem_map.mp hc
    have hno := find?_eq_none.mp hnew d hd
    exact hno
  have hoctets : s.managed.circuits.map (·.pseudonodeID) = s.circuits.map (·.pseudonodeID) := by
    simp only [managed, List.map_map]
    rfl
  have hcursor : s.managed.pseudonodeCursor = s.pseudonodeCursor := rfl
  have hwide : ¬ cfg.withDefaults.mtu - 3 < 512 := by
    have : cfg.withDefaults.mtu = cfg.mtu := rfl
    omega
  rw [← allocCircuitIDs_eq_none_iff hs, allocCircuitIDs_eq_none]
  unfold Managed.addCircuit
  simp only [hv, hfind, if_neg hwide, hoctets, hcursor]
  cases nextPseudonode (s.circuits.map (·.pseudonodeID)) 255 s.pseudonodeCursor with
  | none => exact ⟨fun _ => rfl, fun _ => rfl⟩
  | some next => exact ⟨fun h => (by cases h), fun h => (by cases h)⟩

/-- **A circuit is told apart from every other one.** With fewer than 2³² additions, in every state
of every run: the live circuits have octets of their own, and no extended circuit ID was given
twice. An addition is refused for lack of octets exactly when 255 circuits are live, and the
allocation then changes nothing. An adjacency that is Up rests on a hello to this circuit, and to no
other of its name. -/
theorem circuit_identity (h : newNodeServer o = .ok s₀) (es : List (Int × NodeEvent))
    (hfew : (s₀.additions es).length < 2 ^ 32) :
    ((((s₀.after es).circuits.map (·.pseudonodeID)).Nodup ∧
        ∀ c ∈ (s₀.after es).circuits, 1 ≤ c.pseudonodeID.toNat ∧ c.pseudonodeID.toNat ≤ 255) ∧
      (s₀.additions es).Nodup ∧
      ((s₀.after es).circuits.map (·.extCircID)).Sublist (s₀.additions es)) ∧
    (((s₀.after es).allocCircuitIDs.1 = none ↔ (s₀.after es).circuits.length = 255) ∧
      ((s₀.after es).allocCircuitIDs.1 = none →
        (s₀.after es).allocCircuitIDs.2 = (s₀.after es).toIsisServer) ∧
      ∀ cfg now jitter, cfg.validate = .ok () → (s₀.after es).circuitNamed cfg.name = none →
        515 ≤ cfg.mtu →
        ((s₀.after es).managed.addCircuit cfg = .error (.config .noPseudonode) ↔
          (s₀.after es).circuits.length = 255) ∧
        ((s₀.after es).circuits.length = 255 →
          ((NodeEvent.addCircuit cfg jitter).exec now (s₀.after es)).1 = s₀.after es)) ∧
    ∀ cn c a, (s₀.after es).circuitNamed cn = some c → c.p2pAdj = some a → a.state = .up →
      s₀.Addressed cn a.systemID c.extCircID es := by
  have hwf : (s₀.after es).WellFormed := NodeServer.Reachable.wellFormed ⟨o, s₀, es, h, rfl⟩
  have hcounted := counted_after h es
  refine ⟨⟨⟨hwf.octets.nodup, fun c hc => ?_⟩, ?_, ?_⟩, ⟨?_, ?_, ?_⟩, ?_⟩
  · have hne : c.pseudonodeID.toNat ≠ 0 := fun hz => hwf.octets.ne_zero c hc (UInt8.toNat_inj.mp hz)
    have := c.pseudonodeID.toNat_lt
    omega
  · rw [hcounted.inOrder]
    exact nodup_extIDs hfew
  · have hlive := hcounted.live
    simp only [roster, List.map_map] at hlive
    exact hlive
  · exact allocCircuitIDs_eq_none_iff hwf.octets
  · intro hnone
    have hfull := (allocCircuitIDs_eq_none_iff hwf.octets).mp hnone
    refine allocCircuitIDs_refused (hcounted.started fun hnil => ?_) hcounted.cursor hnone
    rw [map_eq_nil_iff.mp hnil] at hfull
    cases hfull
  · intro cfg now jitter hv hnew hmtu
    have hiff := addCircuit_noPseudonode_iff hwf.octets hv hnew hmtu
    refine ⟨hiff, fun hfull => ?_⟩
    unfold NodeEvent.exec NodeServer.addCircuit
    simp only [hiff.mpr hfull]
  · exact fun cn c a hc ha hup => addressed_of_up h es hc a ha hup

/-- After the first hello the adjacency is Up, and one circuit was added. -/
def upOnce : Bool :=
  match newNodeServer linkOptions with
  | .error _ => false
  | .ok s =>
    ((s.after [firstHello]).circuitNamed "eth0").any (fun c => c.p2pAdj.any (·.state == .up)) &&
      (s.additions [firstHello]).length == 1

theorem circuit_identity_hello : ∃ s₀ : NodeServer, newNodeServer linkOptions = .ok s₀ ∧
    (s₀.additions [firstHello]).length < 2 ^ 32 ∧
    ∃ c a, (s₀.after [firstHello]).circuitNamed "eth0" = some c ∧ c.p2pAdj = some a ∧
      a.state = .up ∧
      s₀.Addressed "eth0" a.systemID c.extCircID [firstHello] := by
  have hup : upOnce = true := by decide +kernel
  unfold upOnce at hup
  cases hs : newNodeServer linkOptions with
  | error e =>
    rw [hs] at hup
    cases hup
  | ok s₀ =>
    rw [hs] at hup
    obtain ⟨hany, hone⟩ := Bool.and_eq_true_iff.mp hup
    obtain ⟨c, hc, hadj⟩ := (Option.any_eq_true _ _).mp hany
    obtain ⟨a, ha, hstate⟩ := (Option.any_eq_true _ _).mp hadj
    have hstate := eq_of_beq hstate
    have hfew : (s₀.additions [firstHello]).length < 2 ^ 32 := by
      rw [eq_of_beq hone]
      decide
    exact ⟨s₀, rfl, hfew, c, a, hc, ha, hstate,
      (circuit_identity hs [firstHello] hfew).2.2 "eth0" c a hc ha hstate⟩

end Runs

end Goisis.Server
