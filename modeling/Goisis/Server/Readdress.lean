import Goisis.Server.NodeRun

/-!
# Pushing an interface's addresses again

`SetCircuitAddresses` (`pkg/server/circuit_events.go`) is called for every netlink message, with
whatever the kernel lists at that moment. It compares the addresses in the form `sortedSet` gives
them and the subnets in the form `maskedSet` gives them, and returns at once if nothing changed.

`sortedSet` sorts by `Addr.Compare`, which tells all addresses apart. `maskedSet` sorts by the
network address alone, so 10.0.0.0/8 and 10.0.0.0/16 stay in the order they came in.

* `sortedSet_eq` — `sortedSet` depends on the set of addresses only;
* `maskedSet_eq_iff` — when `maskedSet` does;
* `repush_unchanged_iff` — when pushing the same addresses again changes nothing.
-/

namespace Goisis.Server

open Lib Packet List

/-! ## Canonical forms -/

section Sorted

variable {α : Type*} {r : α → α → Prop} {l l' : List α}

/-- Two sorted lists without repeats that hold the same elements are equal, if the order tells the
elements apart. -/
theorem eq_of_pairwise_of_mem_iff (hanti : ∀ a ∈ l, ∀ b ∈ l, r a b → r b a → a = b)
    (hl : l.Pairwise r) (hl' : l'.Pairwise r) (hn : l.Nodup) (hn' : l'.Nodup)
    (h : ∀ a, a ∈ l ↔ a ∈ l') : l = l' := by
  have hperm : l.Perm l' := (perm_ext_iff_of_nodup hn hn').mpr h
  exact hperm.eq_of_pairwise (fun a b ha hb => hanti a ha b ((h b).mpr hb)) hl hl'

/-- Two elements of a list without repeats stand in one order only. -/
theorem not_pair_sublist_swap {a b : α} (hn : l.Nodup) (h : [a, b].Sublist l) :
    ¬ [b, a].Sublist l := by
  intro h'
  induction l with
  | nil => cases h
  | cons x l ih =>
    obtain ⟨hx, hn⟩ := nodup_cons.mp hn
    rcases sublist_cons_iff.mp h with hl | ⟨_, hab, hl⟩
    · rcases sublist_cons_iff.mp h' with hl' | ⟨_, hba, -⟩
      · exact ih hn hl hl'
      · obtain ⟨rfl, -⟩ := cons_eq_cons.mp hba
        exact hx (hl.subset (mem_cons_of_mem _ mem_cons_self))
    · obtain ⟨rfl, rfl⟩ := cons_eq_cons.mp hab
      rcases sublist_cons_iff.mp h' with hl' | ⟨_, hba, hl'⟩
      · exact hx (hl'.subset (mem_cons_of_mem _ mem_cons_self))
      · obtain ⟨rfl, rfl⟩ := cons_eq_cons.mp hba
        exact hx (hl'.subset mem_cons_self)

end Sorted

theorem mem_sortedSet {v : List Addr} {a : Addr} : a ∈ sortedSet v ↔ a ∈ v := by
  rw [sortedSet, mem_dedup, mem_insertionSort]

theorem pairwise_sortedSet (v : List Addr) : (sortedSet v).Pairwise addrLE :=
  (pairwise_insertionSort addrLE v).sublist (dedup_sublist _)

/-- **`sortedSet` is a canonical form**: it depends on the set of addresses only. -/
theorem sortedSet_eq {v v' : List Addr} (h : ∀ a, a ∈ v' ↔ a ∈ v) : sortedSet v' = sortedSet v := by
  refine eq_of_pairwise_of_mem_iff (fun _ _ _ _ => antisymm) (pairwise_sortedSet v')
    (pairwise_sortedSet v) (nodup_dedup _) (nodup_dedup _) fun a => ?_
  rw [mem_sortedSet, mem_sortedSet, h]

/-- The order of `maskedSet`: by network address. -/
def networkLE (a b : Prefix) : Prop := addrLE a.masked.addr b.masked.addr

instance : DecidableRel networkLE := fun a b =>
  inferInstanceAs (Decidable (addrLE a.masked.addr b.masked.addr))

theorem mem_foldl_masked {l out : List Prefix} {q : Prefix} :
    q ∈ l.foldl (fun out p => if out.contains p.masked then out else out ++ [p.masked]) out ↔
      q ∈ out ∨ ∃ p ∈ l, p.masked = q := by
  induction l generalizing out with
  | nil => simp
  | cons p l ih =>
    rw [foldl_cons, ih]
    by_cases hp : out.contains p.masked = true
    · rw [if_pos hp, exists_mem_cons_iff]
      have hmem : p.masked = q → q ∈ out := fun h => h ▸ contains_iff_mem.mp hp
      tauto
    · rw [if_neg hp, exists_mem_cons_iff, mem_append, mem_singleton, eq_comm, or_assoc]

theorem mem_maskedSet {l : List Prefix} {q : Prefix} : q ∈ maskedSet l ↔ ∃ p ∈ l, p.masked = q := by
  rw [maskedSet, mem_insertionSort, mem_foldl_masked]
  simp

theorem nodup_maskedSet (l : List Prefix) : (maskedSet l).Nodup := by
  rw [maskedSet, (perm_insertionSort _ _).nodup_iff]
  exact (foldl_masked_keeps (fun p hp => absurd hp not_mem_nil) nodup_nil).2

theorem pairwise_maskedSet (l : List Prefix) : (maskedSet l).Pairwise networkLE := by
  have : IsTrans Prefix networkLE := ⟨fun _ _ _ h h' => IsTrans.trans (r := addrLE) _ _ _ h h'⟩
  have : Std.Total networkLE :=
    ⟨fun a b => Std.Total.total (r := addrLE) a.masked.addr b.masked.addr⟩
  exact pairwise_insertionSort networkLE _

/-- No two subnets of the list have the network address in common and differ in length. -/
def ToldApart (l : List Prefix) : Prop :=
  ∀ p ∈ l, ∀ q ∈ l, p.masked.addr = q.masked.addr → p.masked = q.masked

/-- Two subnets put first stay in that order if the network address does not tell them apart. -/
theorem pair_sublist_maskedSet {p q : Prefix} (l : List Prefix) (hne : p.masked ≠ q.masked)
    (haddr : p.masked.addr = q.masked.addr) :
    [p.masked, q.masked].Sublist (maskedSet (p :: q :: l)) := by
  have hq : ¬ [p.masked].contains q.masked = true := by
    simpa using fun h => hne h.symm
  have hfirst : (p :: q :: l).foldl
      (fun out p => if out.contains p.masked then out else out ++ [p.masked]) [] =
      l.foldl (fun out p => if out.contains p.masked then out else out ++ [p.masked])
        [p.masked, q.masked] := by
    rw [foldl_cons, foldl_cons, if_neg (by simp : ¬ ([] : List Prefix).contains p.masked = true),
      nil_append, if_neg hq]
    rfl
  have hle : networkLE p.masked q.masked := by
    unfold networkLE
    rw [Prefix.masked_masked, Prefix.masked_masked, haddr]
    exact le_refl (addrKey q.masked.addr)
  -- insertion sort is stable: what is in order already keeps it
  refine pair_sublist_insertionSort hle ?_
  rw [hfirst]
  refine foldlRecOn (motive := fun out => [p.masked, q.masked].Sublist out) l _
    (Sublist.refl _) fun out hout x _ => ?_
  split
  · exact hout
  · exact hout.trans (sublist_append_left _ _)

/-- **When `maskedSet` is a canonical form**: it depends on the set of subnets only if the network
addresses tell the subnets apart. -/
theorem maskedSet_eq_iff (l : List Prefix) :
    (∀ l', (∀ q, (∃ p ∈ l', p.masked = q) ↔ ∃ p ∈ l, p.masked = q) → maskedSet l' = maskedSet l) ↔
      ToldApart l := by
  constructor
  · intro h p hp q hq haddr
    by_contra hne
    have hmem : ∀ x y, x ∈ l → y ∈ l →
        ∀ z, (∃ w ∈ x :: y :: l, w.masked = z) ↔ ∃ w ∈ l, w.masked = z := by
      intro x y hx hy z
      rw [exists_mem_cons_iff, exists_mem_cons_iff]
      exact ⟨fun hz => hz.elim (fun e => ⟨x, hx, e⟩) fun hz => hz.elim (fun e => ⟨y, hy, e⟩) id,
        fun hz => Or.inr (Or.inr hz)⟩
    have hpq := pair_sublist_maskedSet l hne haddr
    have hqp := pair_sublist_maskedSet l (fun e => hne e.symm) haddr.symm
    rw [h _ (hmem p q hp hq)] at hpq
    rw [h _ (hmem q p hq hp)] at hqp
    exact not_pair_sublist_swap (nodup_maskedSet l) hpq hqp
  · intro h l' hl'
    refine (eq_of_pairwise_of_mem_iff ?_ (pairwise_maskedSet l) (pairwise_maskedSet l')
      (nodup_maskedSet l) (nodup_maskedSet l') fun q => ?_).symm
    · intro a ha b hb hab hba
      obtain ⟨p, hp, rfl⟩ := mem_maskedSet.mp ha
      obtain ⟨q, hq, rfl⟩ := mem_maskedSet.mp hb
      unfold networkLE at hab hba
      rw [Prefix.masked_masked, Prefix.masked_masked] at hab hba
      exact h p hp q hq (antisymm hab hba)
    · rw [mem_maskedSet, mem_maskedSet, hl']

/-! ## The call -/

namespace NodeServer

variable {s : NodeServer} {name : String} {c : Circuit} {v4 v6 v4' v6' : List Addr}
  {connected connected' : List Prefix}

/-- `SetCircuitAddresses` sends hellos: the circuit exists and the comparison fails. -/
def addressesAnnounced (s : NodeServer) (name : String) (v4 v6 : List Addr)
    (connected : List Prefix) : Bool :=
  match s.circuitNamed name with
  | none => false
  | some c => decide ¬ (c.cfg.ipv4Addrs = sortedSet v4 ∧ c.cfg.ipv6Addrs = sortedSet v6 ∧
      s.prefixesOf name = maskedSet connected)

/-- The addresses and subnets stored for a circuit are those of a call. -/
def HoldsAddresses (s : NodeServer) (name : String) (v4 v6 : List Addr) (connected : List Prefix) :
    Prop :=
  ∃ c, s.circuitNamed name = some c ∧ c.cfg.ipv4Addrs = sortedSet v4 ∧
    c.cfg.ipv6Addrs = sortedSet v6 ∧ s.prefixesOf name = maskedSet connected

theorem setCircuitAddresses_of_holds (h : s.HoldsAddresses name v4 v6 connected) :
    s.setCircuitAddresses name v4 v6 connected = s ∧
      s.addressesAnnounced name v4 v6 connected = false := by
  obtain ⟨c, hc, h4, h6, hp⟩ := h
  unfold setCircuitAddresses addressesAnnounced
  rw [hc]
  exact ⟨if_pos ⟨h4, h6, hp⟩, decide_eq_false fun hn => hn ⟨h4, h6, hp⟩⟩

/-- The first call stores what it was given. -/
theorem holdsAddresses_setCircuitAddresses (hc : s.circuitNamed name = some c) (v4 v6 : List Addr)
    (connected : List Prefix) :
    (s.setCircuitAddresses name v4 v6 connected).HoldsAddresses name v4 v6 connected := by
  by_cases h : c.cfg.ipv4Addrs = sortedSet v4 ∧ c.cfg.ipv6Addrs = sortedSet v6 ∧
      s.prefixesOf name = maskedSet connected
  · have hholds : s.HoldsAddresses name v4 v6 connected := ⟨c, hc, h⟩
    rw [(setCircuitAddresses_of_holds hholds).1]
    exact hholds
  · unfold setCircuitAddresses
    rw [hc]
    simp only [if_neg h]
    generalize hf : (fun c : Circuit => { c with cfg := { c.cfg with
      ipv4Addrs := sortedSet v4
      ipv6Addrs := sortedSet v6 } }) = f
    have hname : ∀ d : Circuit, (if d.cfg.name = name then f d else d).cfg.name = d.cfg.name := by
      intro d
      rw [← hf]
      split <;> rfl
    have hfind : (s.onCircuit name f).circuitNamed name = some (f c) := by
      have hcomp : (fun d : Circuit => decide (d.cfg.name = name)) ∘
          (fun d => if d.cfg.name = name then f d else d) = fun d =>
            decide (d.cfg.name = name) := by
        funext d
        rw [Function.comp_apply, hname]
      unfold IsisServer.circuitNamed IsisServer.onCircuit at *
      rw [find?_map, hcomp, hc, Option.map_some, if_pos (IsisServer.name_of_circuitNamed hc)]
    refine ⟨f c, hfind, by rw [← hf], by rw [← hf], ?_⟩
    exact (Managed.prefixesOf_set name name (maskedSet connected) s.circuitPrefixes).trans
      (if_pos rfl)

/-- **When pushing an interface's addresses again changes nothing**: in whatever order and however
often the elements are listed, the second call leaves the node as it is and sends no hello, if and
only if no two of the subnets share their network address. -/
theorem repush_unchanged_iff (hc : s.circuitNamed name = some c) (v4 v6 : List Addr)
    (connected : List Prefix) :
    (∀ v4' v6' connected', (∀ a, a ∈ v4' ↔ a ∈ v4) → (∀ a, a ∈ v6' ↔ a ∈ v6) →
        (∀ q, (∃ p ∈ connected', p.masked = q) ↔ ∃ p ∈ connected, p.masked = q) →
        (s.setCircuitAddresses name v4 v6 connected).setCircuitAddresses name v4' v6' connected' =
            s.setCircuitAddresses name v4 v6 connected ∧
          (s.setCircuitAddresses name v4 v6 connected).addressesAnnounced name v4' v6' connected' =
            false) ↔
      ToldApart connected := by
  have hholds := holdsAddresses_setCircuitAddresses hc v4 v6 connected
  generalize s.setCircuitAddresses name v4 v6 connected = t at hholds ⊢
  rw [← maskedSet_eq_iff]
  constructor
  · intro h l hl
    have hquiet := (h v4 v6 l (fun _ => Iff.rfl) (fun _ => Iff.rfl) hl).2
    obtain ⟨d, hd, -, -, hsub⟩ := hholds
    unfold addressesAnnounced at hquiet
    rw [hd] at hquiet
    rw [← hsub, (not_not.mp (of_decide_eq_false hquiet)).2.2]
  · intro h v4' v6' connected' h4 h6 hsub
    refine setCircuitAddresses_of_holds ?_
    unfold HoldsAddresses
    rw [sortedSet_eq h4, sortedSet_eq h6, h connected' hsub]
    exact hholds

end NodeServer

/-! ## Two subnets with one network address -/

/-- A node with one LAN. -/
def officeOptions : NodeOptions := plainNode [ethernet "eth0" false 10]

/-- 10.0.0.0/8. -/
def wideNet : Prefix := ⟨.v4 (octets4 10 0 0 0), 8⟩

/-- 10.0.0.0/16. -/
def narrowNet : Prefix := ⟨.v4 (octets4 10 0 0 0), 16⟩

/-- Both subnets are pushed, then pushed again in the other order. -/
def swappedSubnets : Bool :=
  match newNodeServer officeOptions with
  | .error _ => false
  | .ok s =>
    let t := s.setCircuitAddresses "eth0" [] [] [wideNet, narrowNet]
    let t' := t.setCircuitAddresses "eth0" [] [] [narrowNet, wideNet]
    t.addressesAnnounced "eth0" [] [] [narrowNet, wideNet] &&
      t.prefixesOf "eth0" == [wideNet, narrowNet] && t'.prefixesOf "eth0" == [narrowNet, wideNet]

/-- The kernel lists the same two subnets in the other order: the hellos are sent again and the
stored list changes. -/
theorem swapped_subnets_announced : swappedSubnets = true := by decide +kernel

/-- The circuit the options name is there. -/
def officeCircuit : Bool :=
  match newNodeServer officeOptions with
  | .error _ => false
  | .ok s => (s.circuitNamed "eth0").isSome

theorem repush_wideNet : ∃ s : NodeServer, newNodeServer officeOptions = .ok s ∧
    ∀ connected', (∀ q, (∃ p ∈ connected', p.masked = q) ↔ ∃ p ∈ [wideNet, wideNet], p.masked = q) →
      (s.setCircuitAddresses "eth0" [] [] [wideNet, wideNet]).addressesAnnounced "eth0" [] []
        connected' = false := by
  have hcircuit : officeCircuit = true := by decide +kernel
  unfold officeCircuit at hcircuit
  cases hs : newNodeServer officeOptions with
  | error e =>
    rw [hs] at hcircuit
    cases hcircuit
  | ok s =>
    rw [hs] at hcircuit
    obtain ⟨c, hc⟩ := Option.isSome_iff_exists.mp hcircuit
    have hapart : ToldApart [wideNet, wideNet] := by
      intro p hp q hq _
      simp only [mem_cons, not_mem_nil, or_false, or_self] at hp hq
      rw [hp, hq]
    refine ⟨s, rfl, fun connected' hsub => ?_⟩
    exact ((NodeServer.repush_unchanged_iff hc [] [] [wideNet, wideNet]).mpr hapart [] [] connected'
      (fun _ => Iff.rfl) (fun _ => Iff.rfl) hsub).2

end Goisis.Server
