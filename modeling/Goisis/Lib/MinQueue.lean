import Goisis.Lib.Map
import Goisis.Lib.ShortestPath
import Mathlib.Data.List.MinMax

/-!
# Keyed priority queues

A tentative set as a search sees it: a finite map from keys to values from which a value of least
priority can be taken out. `MinQueue` bundles an implementation with its laws; everything a law
leaves open (which of several least values comes out) is the implementation's own business. A value
may only be replaced by one of no greater priority, which is what a heap with a decrease-key
operation offers.

* `scanQueue` — the implementation that scans its entries, preferring those that meet a test among
  the least;
* `Search.Represents` — the queue of a search holds the best offer of every vertex not settled yet;
  `Search.Represents.settle` is one turn of the loop.
-/

namespace Goisis.Lib

open List

/-- A priority queue with a lookup by key. -/
structure MinQueue (K V : Type) [DecidableEq K] (prio : V → ℕ) where
  State : Type
  empty : State
  lookup : State → K → Option V
  insert : State → K → V → State
  pop : State → Option ((K × V) × State)
  lookup_empty : ∀ k, lookup empty k = none
  lookup_insert : ∀ q k v k', (∀ v', lookup q k = some v' → prio v ≤ prio v') →
    lookup (insert q k v) k' = if k' = k then some v else lookup q k'
  pop_none : ∀ q, pop q = none → ∀ k, lookup q k = none
  lookup_popped : ∀ q k v q', pop q = some ((k, v), q') → lookup q k = some v
  popped_least : ∀ q k v q', pop q = some ((k, v), q') → ∀ k' v', lookup q k' = some v' →
    prio v ≤ prio v'
  lookup_rest : ∀ q k v q', pop q = some ((k, v), q') → ∀ k',
    lookup q' k' = if k' = k then none else lookup q k'

/-! ## A scanning queue -/

section Scan

variable {K V : Type} [DecidableEq K]

/-- The rank by which the scan chooses: priority first, then the preferred ones. -/
def scanRank (prio : V → ℕ) (pref : K → V → Bool) (e : (_ : K) × V) : ℕ :=
  2 * prio e.2 + if pref e.1 e.2 then 0 else 1

def scanPop (prio : V → ℕ) (pref : K → V → Bool) (q : Map K V) : Option ((K × V) × Map K V) :=
  match q.entries.argmin (scanRank prio pref) with
  | none => none
  | some e => some ((e.1, e.2), q.erase e.1)

theorem scanPop_some {prio : V → ℕ} {pref : K → V → Bool} {q q' : Map K V} {k : K} {v : V}
    (h : scanPop prio pref q = some ((k, v), q')) :
    q.lookup k = some v ∧ q' = q.erase k ∧ ∀ k' v', q.lookup k' = some v' →
        scanRank prio pref ⟨k, v⟩ ≤ scanRank prio pref ⟨k', v'⟩ := by
  unfold scanPop at h
  cases harg : q.entries.argmin (scanRank prio pref) with
  | none =>
    rw [harg] at h
    cases h
  | some e =>
    rw [harg] at h
    cases h
    refine ⟨AList.mem_lookup_iff.mpr (argmin_mem harg), rfl, fun k' v' hk' => ?_⟩
    exact le_of_mem_argmin (AList.mem_lookup_iff.mp hk') harg

/-- A queue that scans all its entries, as a map. -/
def scanQueue (K V : Type) [DecidableEq K] (prio : V → ℕ) (pref : K → V → Bool) :
    MinQueue K V prio where
  State := Map K V
  empty := ∅
  lookup q k := q.lookup k
  insert q k v := q.insert k v
  pop q := scanPop prio pref q
  lookup_empty := Map.lookup_empty
  lookup_insert q k v k' _ := Map.lookup_insert_ite q k k' v
  pop_none q h k := by
    unfold scanPop at h
    cases harg : q.entries.argmin (scanRank prio pref) with
    | none =>
      cases hk : q.lookup k with
      | none => rfl
      | some v =>
        have hmem := AList.mem_lookup_iff.mp hk
        rw [argmin_eq_none.mp harg] at hmem
        cases hmem
    | some e =>
      rw [harg] at h
      cases h
  lookup_popped q k v q' h := (scanPop_some h).1
  popped_least q k v q' h k' v' hk' := by
    have hrank := (scanPop_some h).2.2 k' v' hk'
    simp only [scanRank] at hrank
    split at hrank <;> split at hrank <;> omega
  lookup_rest q k v q' h k' := by
    rw [(scanPop_some h).2.1]
    exact Map.lookup_erase_ite q k k'

end Scan

/-- The queue takes an entry that meets `pref` before the others of the same least priority. -/
def MinQueue.Prefers {K X : Type} [DecidableEq K] (Q : MinQueue K (ℕ × X) Prod.fst)
    (pref : K → X → Prop) : Prop :=
  ∀ q k d x q', Q.pop q = some ((k, d, x), q') → ∀ k' x', Q.lookup q k' = some (d, x') →
    pref k' x' → pref k x

theorem MinQueue.prefers_true {K X : Type} [DecidableEq K] (Q : MinQueue K (ℕ × X) Prod.fst) :
    Q.Prefers fun _ _ => True :=
  fun _ _ _ _ _ _ _ _ _ _ => trivial

/-- Among the least entries the scan takes a preferred one if there is one. -/
theorem scanQueue_prefers {K X : Type} [DecidableEq K] (pref : K → X → Bool) :
    (scanQueue K (ℕ × X) Prod.fst fun k v => pref k v.2).Prefers fun k x => pref k x = true := by
  intro q k d x q' hpop k' x' hk' hpref
  have hrank := (scanPop_some hpop).2.2 k' (d, x') hk'
  by_contra hnot
  simp only [scanRank, if_pos hpref, if_neg hnot] at hrank
  omega

/-! ## The queue of a search -/

namespace Search

variable {V X : Type} {P : Search V X} {done : List (Visit V X)} {t t' : V → Option (ℕ × Finset X)}
  {v : Visit V X}

/-- The tentative entries of a search: the best offer of every fresh vertex, nothing for a settled
one. -/
structure Represents (P : Search V X) (done : List (Visit V X)) (t : V → Option (ℕ × Finset X)) :
    Prop where
  settled : ∀ k, ¬ Fresh done k → t k = none
  fresh : ∀ k, Fresh done k → BestOf (P.offers done k) (t k)

/-- A least tentative entry may be settled next. -/
theorem Represents.run {pref : V → Finset X → Prop} (h : P.Represents done t)
    (hrun : P.Run pref done) (hv : t v.id = some (v.dist, v.label))
    (hmin : ∀ k e, t k = some e → v.dist ≤ e.1)
    (hpref : ∀ k l, t k = some (v.dist, l) → pref k l → pref v.id v.label) :
    P.Run pref (v :: done) := by
  have hfresh : Fresh done v.id := by
    by_contra hnot
    rw [h.settled v.id hnot] at hv
    cases hv
  have hbest : IsBest (P.offers done v.id) v.dist v.label := by
    have := h.fresh v.id hfresh
    rw [hv] at this
    exact this
  have hheld : ∀ u, Fresh done u → (P.offers done u).Nonempty →
      ∃ e, t u = some e ∧ IsBest (P.offers done u) e.1 e.2 := by
    intro u hu hoffer
    have hb := h.fresh u hu
    cases htu : t u with
    | none =>
      rw [htu] at hb
      exact absurd (show P.offers done u = ∅ from hb) hoffer.ne_empty
    | some e =>
      rw [htu] at hb
      exact ⟨e, rfl, hb⟩
  refine .settle hrun hfresh hbest (fun u c m hu hm => ?_) fun u l hu hl => ?_
  · obtain ⟨e, htu, hbest'⟩ := hheld u hu ⟨_, hm⟩
    exact Nat.le_trans (hmin u e htu) (hbest'.least c m hm)
  · obtain ⟨m, hm⟩ := hl.attained
    obtain ⟨e, htu, hbest'⟩ := hheld u hu ⟨_, hm⟩
    obtain ⟨hd, hl'⟩ := hbest'.unique hl
    exact hpref u l (by rw [htu, ← hd, ← hl'])

/-- An empty queue means that the run is complete. -/
theorem Represents.complete (h : P.Represents done t) (hempty : ∀ k, t k = none) :
    P.Complete done := by
  intro k hk
  have := h.fresh k hk
  rw [hempty k] at this
  exact this

variable [DecidableEq V] [DecidableEq X]

/-- The tentative entry of `k` after the edges `es` of a settled vertex have been relaxed. -/
def relaxAll (P : Search V X) (v : Visit V X) (k : V) (es : List (V × ℕ))
    (o : Option (ℕ × Finset X)) : Option (ℕ × Finset X) :=
  es.foldl (fun o e => if e.1 = k ∧ v.dist + e.2 < P.bound
    then relaxEntry o (v.dist + e.2) (P.via v.id v.label k) else o) o

theorem bestOf_relaxAll (k : V) (es : List (V × ℕ)) {C : Set (ℕ × Finset X)}
    {o : Option (ℕ × Finset X)} (h : BestOf C o) :
    BestOf ({ x | ∃ w, (k, w) ∈ es ∧ v.dist + w < P.bound ∧
      x = (v.dist + w, P.via v.id v.label k) } ∪ C) (P.relaxAll v k es o) := by
  induction es generalizing C o with
  | nil =>
    have hempty : { x | ∃ w, (k, w) ∈ ([] : List (V × ℕ)) ∧ v.dist + w < P.bound ∧
        x = (v.dist + w, P.via v.id v.label k) } = (∅ : Set (ℕ × Finset X)) := by
      ext x
      simp
    rw [hempty, Set.empty_union]
    exact h
  | cons e es ih =>
    by_cases he : e.1 = k ∧ v.dist + e.2 < P.bound
    · have hstep := ih (h.relax (v.dist + e.2) (P.via v.id v.label k))
      simp only [relaxAll, foldl_cons, if_pos he] at hstep ⊢
      convert hstep using 1
      ext x
      constructor
      · rintro (⟨w, hw, hlt, rfl⟩ | hx)
        · rcases mem_cons.mp hw with heq | hw
          · exact .inr (.inl (by rw [← heq]))
          · exact .inl ⟨w, hw, hlt, rfl⟩
        · exact .inr (.inr hx)
      · rintro (⟨w, hw, hlt, rfl⟩ | rfl | hx)
        · exact .inl ⟨w, mem_cons_of_mem _ hw, hlt, rfl⟩
        · exact .inl ⟨e.2, by rw [← he.1]; exact mem_cons_self, he.2, rfl⟩
        · exact .inr hx
    · have hstep := ih h
      simp only [relaxAll, foldl_cons, if_neg he] at hstep ⊢
      convert hstep using 2
      ext x
      constructor
      · rintro ⟨w, hw, hlt, rfl⟩
        rcases mem_cons.mp hw with heq | hw
        · exact absurd ⟨by rw [← heq], by rw [← heq]; exact hlt⟩ he
        · exact ⟨w, hw, hlt, rfl⟩
      · rintro ⟨w, hw, hlt, rfl⟩
        exact ⟨w, mem_cons_of_mem _ hw, hlt, rfl⟩

/-- There is a best of the offers. -/
theorem exists_bestOf_offers (P : Search V X) (done : List (Visit V X)) (k : V) :
    ∃ o, BestOf (P.offers done k) o := by
  induction done with
  | nil =>
    refine ⟨none, ?_⟩
    show P.offers [] k = ∅
    ext o
    simp [offers]
  | cons v done ih =>
    obtain ⟨o, ho⟩ := ih
    rw [offers_cons]
    exact ⟨_, bestOf_relaxAll k (P.succ v.id) ho⟩

/-- **One turn of the loop**: settle the popped vertex and relax its edges. -/
theorem Represents.settle (h : P.Represents done t)
    (hout : ∀ k, ¬ Fresh (v :: done) k → t' k = none)
    (hrelax : ∀ k, Fresh (v :: done) k → t' k = P.relaxAll v k (P.succ v.id) (t k)) :
    P.Represents (v :: done) t' where
  settled := hout
  fresh k hk := by
    rw [hrelax k hk, offers_cons]
    exact bestOf_relaxAll k (P.succ v.id) (h.fresh k hk.of_cons)

end Search

end Goisis.Lib
