import Goisis.Lib.ShortestPath
import Goisis.Packet.Basic

/-!
# The tentative set

`tentSet` (`pkg/server/spf.go`) keeps Dijkstra's tentative entries in a slice that `container/heap`
orders by distance, and in a map by node ID. Entries and first-hop maps are shared by reference, so
the model has the memory: an entry is an address, a first-hop map a reference. A call of
`container/heap` makes some swaps within the slice, and its contract says what they do to a valid
heap.

* `tentSet_refines` — in every run the entries know their positions, the slice and the map hold the
  same entries, no two entries share a first-hop map, and the caller sees what a plain map shows.
-/

namespace Goisis.Server

open Lib Packet Function

/-- The memory of a tentative set: the fields of `tentEntry` by address, first-hop maps by
reference, how many of both were made, the slice `heap` and the map `index`. -/
structure TentSet where
  id : ℕ → NodeID
  (distance firstHops index : ℕ → ℕ)
  entries : ℕ
  hops : ℕ → Finset SystemID
  (maps len : ℕ)
  heap : ℕ → ℕ
  byID : NodeID → Option ℕ

namespace TentSet

/-- `newTentSet(self)`. The maps the caller will pass are in the memory from the start. -/
def new (self : NodeID) (caller : ℕ → Finset SystemID) : TentSet where
  id _ := self
  distance _ := 0
  firstHops _ := 0
  index _ := 0
  entries := 1
  hops := update caller 0 ∅
  maps := 1
  len := 1
  heap _ := 0
  byID i := if i = self then some 0 else none

section Operations

variable (m : TentSet) (ws : List (ℕ × ℕ)) (i : NodeID) (d fh e : ℕ)

/-- `Swap(k, l)`. -/
def swap (k l : ℕ) : TentSet :=
  { m with
    heap := fun n => m.heap (Equiv.swap k l n)
    index := update (update m.index (m.heap l) k) (m.heap k) l }

/-- The swaps of a call of the package. -/
def swaps : TentSet := ws.foldl (fun m w => m.swap w.1 w.2) m

/-- `Push(e)`. -/
def push : TentSet :=
  { m with index := update m.index e m.len, len := m.len + 1, heap := update m.heap m.len e }

/-- `Pop()`, -/
def popLast : TentSet := { m with len := m.len - 1 }

/-- and what it returns. -/
def last : ℕ := m.heap (m.len - 1)

/-- An entry gets a distance, and `cloneHops(fh)` for its first hops. -/
def lower : TentSet :=
  { m with
    hops := update m.hops m.maps (m.hops fh)
    maps := m.maps + 1
    distance := update m.distance e d
    firstHops := update m.firstHops e m.maps }

/-- A new entry in the map. -/
def enter : TentSet :=
  { m.lower d fh m.entries with
    id := update m.id m.entries i
    index := update m.index m.entries 0
    entries := m.entries + 1
    byID := update m.byID i (some m.entries) }

/-- An entry gets more first hops. -/
def merge : TentSet :=
  { m with hops := update m.hops (m.firstHops e) (m.hops (m.firstHops e) ∪ m.hops fh) }

/-- `relax(id, d, fh)`, with the swaps of the package. -/
def relax : TentSet :=
  match m.byID i with
  | none => ((m.enter i d fh).push m.entries).swaps ws
  | some e =>
    if d < m.distance e then (m.lower d fh e).swaps ws
    else if d = m.distance e then m.merge fh e
    else m

/-- `pop()`, with the swaps of the package; it returns `(m.swaps ws).last`. -/
def pop : TentSet :=
  let m' := m.swaps ws
  { m'.popLast with byID := update m'.byID (m'.id m'.last) none }

/-! ## What `container/heap` promises -/

/-- No element is less than its parent. -/
def Ordered : Prop := ∀ k < m.len, 0 < k → m.distance (m.heap ((k - 1) / 2)) ≤ m.distance (m.heap k)

/-- The swaps stay within a slice of `n` elements. -/
def Within (n : ℕ) : Prop := ∀ w ∈ ws, w.1 < n ∧ w.2 < n

/-- `heap.Fix` restores a heap of which the element at `k` has changed. -/
def FixContract (k : ℕ) : Prop :=
  Within ws m.len ∧ ((∃ x, { m with distance := update m.distance (m.heap k) x }.Ordered) →
    (m.swaps ws).Ordered)

/-- `heap.Pop` takes out a minimum and keeps a heap one. -/
def PopContract : Prop :=
  Within ws m.len ∧ (m.Ordered → (m.swaps ws).popLast.Ordered ∧
    ∀ k < m.len, m.distance (m.swaps ws).last ≤ m.distance (m.heap k))

/-- What `relax` relies on: `heap.Push` keeps a heap one, and `heap.Fix`. -/
def RelaxContract : Prop :=
  match m.byID i with
  | none => Within ws (m.len + 1) ∧
    (m.Ordered → (((m.enter i d fh).push m.entries).swaps ws).Ordered)
  | some e => d < m.distance e → (m.lower d fh e).FixContract ws (m.index e)

/-! ## Runs -/

/-- The distance and the first hops of an entry, -/
def value : ℕ × Finset SystemID := (m.distance e, m.hops (m.firstHops e))

/-- and of a node. -/
def view : Option (ℕ × Finset SystemID) := (m.byID i).map m.value

/-- The slice and the map hold the same entries, one for a node, and an entry knows its position. -/
structure Placed : Prop where
  mapped : ∀ i e, m.byID i = some e ↔ m.id e = i ∧ ∃ k < m.len, m.heap k = e
  indexed : ∀ k < m.len, m.index (m.heap k) = k ∧ m.heap k < m.entries

/-- Every entry ever made has a first-hop map of its own. -/
def Unshared : Prop := ∀ e < m.entries,
  m.firstHops e < m.maps ∧ ∀ e' < m.entries, m.firstHops e = m.firstHops e' → e = e'

end Operations

end TentSet

/-- A call, with the values it passes, or the node it returns and what its entry holds. -/
inductive TentEvent where
  | relax (i : NodeID) (d : ℕ) (fh : Finset SystemID)
  | pop (i : NodeID) (v : ℕ × Finset SystemID)

variable (self : NodeID)

/-- The runs of a tentative set. -/
inductive TentRun : List TentEvent → TentSet → Prop
  | new (caller) : TentRun [] (.new self caller)
  | relax {es m ws i d fh} : TentRun es m → m.RelaxContract ws i d fh →
      TentRun (es ++ [.relax i d (m.hops fh)]) (m.relax ws i d fh)
  | pop {es m ws e} : TentRun es m → 0 < m.len → m.PopContract ws → e = (m.swaps ws).last →
      TentRun (es ++ [.pop (m.id e) (m.value e)]) (m.pop ws)

/-- The runs of a plain map: keep the smaller distance and merge on equality, take out a minimum. -/
inductive PlainRun : List TentEvent → (NodeID → Option (ℕ × Finset SystemID)) → Prop
  | new : PlainRun [] fun i => if i = self then some (0, ∅) else none
  | relax {es t} (i d fh) : PlainRun es t →
      PlainRun (es ++ [.relax i d fh]) (update t i (relaxEntry (t i) d fh))
  | pop {es t i v} : PlainRun es t → t i = some v → (∀ i' x, t i' = some x → v.1 ≤ x.1) →
      PlainRun (es ++ [.pop i v]) (update t i none)

namespace TentSet

variable {m : TentSet} {ws : List (ℕ × ℕ)} {i : NodeID} {d fh e k : ℕ}

theorem Placed.swap (h : m.Placed) {l : ℕ} (hk : k < m.len) (hl : l < m.len) :
    (m.swap k l).Placed := by
  have hwithin : ∀ {n}, n < m.len → Equiv.swap k l n < m.len := by
    intro n hn
    rw [Equiv.swap_apply_def]
    split_ifs
    exacts [hl, hk, hn]
  refine ⟨fun i e => (h.mapped i e).trans (and_congr_right fun _ => ⟨?_, ?_⟩),
    fun n (hn : n < m.len) => ⟨?_, (h.indexed _ (hwithin hn)).2⟩⟩
  · rintro ⟨n, hn, rfl⟩
    exact ⟨_, hwithin hn, congrArg m.heap (Equiv.swap_apply_self ..)⟩
  · rintro ⟨n, hn, rfl⟩
    exact ⟨_, hwithin hn, rfl⟩
  · show update (update m.index (m.heap l) k) (m.heap k) l (m.heap (Equiv.swap k l n)) = n
    have hindexed := fun n hn => (h.indexed n hn).1
    grind [update_apply]

/-- Swaps move entries and nothing else. -/
theorem Placed.swaps (h : m.Placed) (hws : Within ws m.len) :
    (m.swaps ws).Placed ∧ ∃ heap index, m.swaps ws = { m with heap := heap, index := index } := by
  induction ws generalizing m with
  | nil => exact ⟨h, m.heap, m.index, rfl⟩
  | cons w ws ih =>
    obtain ⟨hk, hl⟩ := hws w List.mem_cons_self
    exact ih (h.swap hk hl) fun w' hw' => hws w' (List.mem_cons_of_mem w hw')

theorem Placed.push (h : m.Placed) (hnone : m.byID i = none) :
    ((m.enter i d fh).push m.entries).Placed := by
  have hold : ∀ k < m.len, m.heap k ≠ m.entries := fun k hk => (h.indexed k hk).2.ne
  refine ⟨fun j e => ?_, fun k hk => ?_⟩
  · show update m.byID i (some m.entries) j = some e ↔ update m.id m.entries i e = j ∧
      ∃ k < m.len + 1, update m.heap m.len m.entries k = e
    have hkeep : ∀ k < m.len, update m.heap m.len m.entries k = m.heap k := fun k hk =>
      update_of_ne hk.ne ..
    have hmapped := h.mapped j e
    have hlast : update m.heap m.len m.entries m.len = m.entries := update_self ..
    grind [update_apply]
  · have hindexed := h.indexed k
    simp only [TentSet.push, enter, lower] at hk ⊢
    grind [update_apply]

theorem Placed.pop (h : m.Placed) (hlen : 0 < m.len) : (m.pop []).Placed := by
  have hend : m.len - 1 < m.len := Nat.sub_lt hlen Nat.one_pos
  refine ⟨fun j e => ?_, fun k hk => h.indexed k (hk.trans hend)⟩
  show update m.byID (m.id m.last) none j = some e ↔ m.id e = j ∧ ∃ k < m.len - 1, m.heap k = e
  have hlast := (h.mapped _ _).mpr ⟨rfl, _, hend, rfl⟩
  have hmapped := h.mapped j e
  have hindexed := fun k hk => (h.indexed k hk).1
  grind [update_apply, last]

/-- A fresh map for one entry leaves the others unshared. -/
theorem Unshared.fresh {m' : TentSet} (h : m.Unshared)
    (hmade : ∀ e' < m'.entries, e' ≠ e → e' < m.entries)
    (hhops : m'.firstHops = update m.firstHops e m.maps) (hmaps : m'.maps = m.maps + 1) :
    m'.Unshared := by
  intro e₁ h₁
  rw [hhops, hmaps]
  have hold : ∀ e' < m'.entries, e' ≠ e → m.firstHops e' < m.maps := fun e' he' hne =>
    (h e' (hmade e' he' hne)).1
  refine ⟨by grind [update_apply], fun e₂ h₂ heq => ?_⟩
  grind [update_apply, Unshared]

/-- What a step that touches one node shows. -/
theorem Placed.view_update {m' : TentSet} {o v} (h : m.Placed) (hby : m'.byID = update m.byID i o)
    (hv : o.map m'.value = v)
    (hkeep : ∀ e < m.entries, m.byID i ≠ some e → m'.value e = m.value e) :
    m'.view = update m.view i v := by
  funext j
  by_cases hj : j = i
  · rw [view, hby, hj, update_self, update_self, hv]
  rw [view, hby, update_of_ne hj, update_of_ne hj, view]
  refine Option.map_congr fun e he => ?_
  obtain ⟨hid, k, hk, rfl⟩ := (h.mapped j e).mp he
  exact hkeep _ (h.indexed k hk).2 fun hi => hj (hid.symm.trans ((h.mapped i _).mp hi).1)

/-- What every state of a run meets. -/
structure Inv (m : TentSet) : Prop where
  placed : m.Placed
  unshared : m.Unshared
  ordered : m.Ordered

theorem Inv.value_lower (h : m.Inv) {e' : ℕ} (hmade : e' < m.entries) (hne : e' ≠ e) :
    (m.lower d fh e).value e' = m.value e' := by
  have hold := (h.unshared e' hmade).1.ne
  simp [value, lower, hne, hold]

theorem Inv.relax (h : m.Inv) (hc : m.RelaxContract ws i d fh) :
    (m.relax ws i d fh).Inv ∧
      (m.relax ws i d fh).view = update m.view i (relaxEntry (m.view i) d (m.hops fh)) := by
  have ⟨hp, hu, ho⟩ := h
  unfold RelaxContract at hc
  rw [TentSet.relax, view]
  cases hi : m.byID i with
  | none =>
    rw [hi] at hc
    obtain ⟨hplaced, heap, index, heq⟩ := (hp.push hi).swaps hc.1
    have hord := hc.2 ho
    rw [heq] at hplaced hord ⊢
    refine ⟨⟨hplaced, hu.fresh (fun e' he' hne => ?_) rfl rfl, hord⟩,
      hp.view_update rfl ?_ fun e he _ => h.value_lower he he.ne⟩
    · exact lt_of_le_of_ne (Nat.le_of_lt_succ he') hne
    · simp [value, TentSet.push, enter, lower, relaxEntry]
  | some e =>
    rw [hi] at hc
    obtain ⟨-, k, hk, hat⟩ := (hp.mapped i e).mp hi
    have hself : m.byID = update m.byID i (some e) := by rw [← hi, update_eq_self]
    have hother : ∀ {e'}, m.byID i ≠ some e' → e' ≠ e := fun hne heq => hne (heq ▸ hi)
    simp only at hc ⊢
    split_ifs with hd hd
    · have hlow : (m.lower d fh e).Placed := ⟨hp.mapped, hp.indexed⟩
      obtain ⟨hplaced, heap, index, heq⟩ := hlow.swaps (hc hd).1
      have hord := (hc hd).2 ⟨m.distance e, by
        show TentSet.Ordered { m.lower d fh e with
          distance := update (update m.distance e d) (m.heap (m.index e)) (m.distance e) }
        rw [← hat, (hp.indexed k hk).1, update_idem, update_eq_self]
        exact ho⟩
      rw [heq] at hplaced hord ⊢
      refine ⟨⟨hplaced, hu.fresh (fun e' he' _ => he') rfl rfl, hord⟩, hp.view_update hself ?_
        fun e' he' hne => h.value_lower he' (hother hne)⟩
      simp [value, lower, relaxEntry, hd]
    · refine ⟨⟨⟨hp.mapped, hp.indexed⟩, hu, ho⟩, hp.view_update hself ?_ fun e' he' hne => ?_⟩
      · simp [value, merge, relaxEntry, hd]
      · -- the merged hops go to the entry's own map
        have hown : m.firstHops e' ≠ m.firstHops e := fun heq =>
          hother hne ((hu e' he').2 e (hat ▸ (hp.indexed k hk).2) heq)
        simp [value, merge, hown]
    · refine ⟨⟨hp, hu, ho⟩, hp.view_update hself ?_ fun _ _ _ => rfl⟩
      simp [value, relaxEntry, *]

theorem Inv.pop (h : m.Inv) (hlen : 0 < m.len) (hc : m.PopContract ws)
    (hlast : e = (m.swaps ws).last) :
    (m.pop ws).Inv ∧ m.view (m.id e) = some (m.value e) ∧
      (∀ i x, m.view i = some x → m.distance e ≤ x.1) ∧
        (m.pop ws).view = update m.view (m.id e) none := by
  subst hlast
  obtain ⟨hp, hu, ho⟩ := h
  obtain ⟨hplaced, heap, index, heq⟩ := hp.swaps hc.1
  obtain ⟨hord, hmin⟩ := hc.2 ho
  have hpop : m.pop ws = (m.swaps ws).pop [] := rfl
  rw [hpop]
  rw [heq] at hplaced hord hmin ⊢
  have hlast := (hplaced.mapped _ _).mpr ⟨rfl, _, Nat.sub_lt hlen Nat.one_pos, rfl⟩
  refine ⟨⟨hplaced.pop hlen, hu, hord⟩, congrArg (Option.map m.value) hlast, fun i x hx => ?_,
    hp.view_update rfl rfl fun _ _ _ => rfl⟩
  obtain ⟨e, he, rfl⟩ := Option.map_eq_some_iff.mp hx
  obtain ⟨-, k, hk, rfl⟩ := (hp.mapped i e).mp he
  exact hmin k hk

end TentSet

open TentSet in
/-- **The indexed heap refines a plain map** in every run of `relax` and `pop` from `newTentSet`,
whatever `container/heap` swaps within its contract: the calls and their results are those of a
map. -/
theorem tentSet_refines {self : NodeID} {es : List TentEvent} {m : TentSet}
    (h : TentRun self es m) :
    m.Placed ∧ m.Unshared ∧ PlainRun self es m.view ∧ (m.len = 0 ↔ ∀ i, m.view i = none) := by
  suffices hrun : m.Inv ∧ PlainRun self es m.view by
    obtain ⟨⟨hp, hu, -⟩, hplain⟩ := hrun
    refine ⟨hp, hu, hplain, fun hlen i => ?_, fun hnone => ?_⟩
    · refine Option.map_eq_none_iff.mpr (Option.eq_none_iff_forall_ne_some.mpr fun e he => ?_)
      obtain ⟨-, k, hk, -⟩ := (hp.mapped i e).mp he
      omega
    · by_contra hlen
      have := hnone (m.id (m.heap 0))
      rw [view, (hp.mapped _ _).mpr ⟨rfl, 0, Nat.pos_of_ne_zero hlen, rfl⟩] at this
      cases this
  induction h with
  | new caller =>
    refine ⟨⟨⟨fun i e => ?_, fun k hk => ?_⟩, fun e he => ?_, fun k hk hpos => ?_⟩, ?_⟩
    · simp [TentSet.new, eq_comm, and_comm]
    · exact ⟨(Nat.lt_one_iff.mp hk).symm, Nat.one_pos⟩
    · exact ⟨Nat.one_pos, fun e' he' _ => (Nat.lt_one_iff.mp he).trans (Nat.lt_one_iff.mp he').symm⟩
    · exact absurd hk (Nat.not_lt.mpr hpos)
    · convert PlainRun.new using 1
      funext i
      by_cases hi : i = self <;> simp [view, TentSet.new, value, hi]
  | relax _ hc ih =>
    obtain ⟨hinv, hview⟩ := ih.1.relax hc
    rw [hview]
    exact ⟨hinv, .relax _ _ _ ih.2⟩
  | pop _ hlen hc he ih =>
    obtain ⟨hinv, hlast, hmin, hview⟩ := ih.1.pop hlen hc he
    rw [hview]
    exact ⟨hinv, .pop ih.2 hlast hmin⟩

/-- A tentative set, when the caller has a map with one neighbor, -/
def unlearnt : TentSet := .new ⟨octets6 0 0 0 0 0 1, 0⟩ fun _ => {octets6 0 0 0 0 0 2}

/-- and after it has learnt the neighbor at distance 5. -/
def oneLearnt : TentSet := unlearnt.relax [] ⟨octets6 0 0 0 0 0 2, 0⟩ 5 1

theorem tentSet_refines_oneLearnt : ∃ self es, es.length = 2 ∧
    TentRun self es (oneLearnt.pop [(0, 1)]) ∧ PlainRun self es (oneLearnt.pop [(0, 1)]).view := by
  have hrelax : unlearnt.RelaxContract [] ⟨octets6 0 0 0 0 0 2, 0⟩ 5 1 :=
    ⟨nofun, fun _ => by unfold TentSet.Ordered; decide⟩
  have hpop : oneLearnt.PopContract [(0, 1)] :=
    ⟨by unfold TentSet.Within; decide, fun _ => ⟨by unfold TentSet.Ordered; decide, by decide⟩⟩
  have hrun := TentRun.pop (.relax (.new _) hrelax) (by decide) hpop rfl
  exact ⟨_, _, rfl, hrun, (tentSet_refines hrun).2.2.1⟩

end Goisis.Server
