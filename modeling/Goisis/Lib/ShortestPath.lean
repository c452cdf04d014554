import Mathlib.Data.Finset.Card

/-!
# Shortest paths that carry labels

Dijkstra's algorithm over an arbitrary vertex type, seen from outside: vertices are settled one at a
time, always one whose best offer is least, and a settled vertex passes a label on along each of its
edges. Offers at the same least distance are merged by taking the union of their labels. Which of
several least vertices is settled next is left open (`Run`), so everything here holds for every
priority queue and every tie-breaking.

* `Run.dist` — a settled distance is the least cost of a walk;
* `Run.settled_of_walk` — a completed run has settled everything a walk below the bound reaches;
* `BestOf.relax` — the one-vertex update a queue performs keeps the best offer.
-/

namespace Goisis.Lib

open List

/-- A search problem: a source, the weighted edges out of each vertex, the cost from which a walk
counts as too long, and the label a settled vertex offers to a successor. -/
structure Search (V X : Type) where
  source : V
  succ : V → List (V × ℕ)
  bound : ℕ
  via : V → Finset X → V → Finset X

/-- A settled vertex with its distance and label. -/
structure Visit (V X : Type) where
  id : V
  dist : ℕ
  label : Finset X
deriving DecidableEq

/-! ## Best offers -/

section Best

variable {X : Type} {C : Set (ℕ × Finset X)} {d : ℕ} {l m : Finset X}

/-- The least distance among the offers, with the labels of all offers at that distance. -/
structure IsBest (C : Set (ℕ × Finset X)) (d : ℕ) (l : Finset X) : Prop where
  attained : ∃ m, (d, m) ∈ C
  least : ∀ c m, (c, m) ∈ C → d ≤ c
  label : ∀ x, x ∈ l ↔ ∃ m, (d, m) ∈ C ∧ x ∈ m

theorem IsBest.unique {d' : ℕ} {l' : Finset X} (h : IsBest C d l) (h' : IsBest C d' l') :
    d = d' ∧ l = l' := by
  obtain ⟨m, hm⟩ := h.attained
  obtain ⟨m', hm'⟩ := h'.attained
  have hd : d = d' := Nat.le_antisymm (h.least d' m' hm') (h'.least d m hm)
  subst hd
  refine ⟨rfl, ?_⟩
  ext x
  rw [h.label, h'.label]

/-- What a tentative entry has to be, given the offers made so far. -/
def BestOf (C : Set (ℕ × Finset X)) : Option (ℕ × Finset X) → Prop
  | none => C = ∅
  | some (d, l) => IsBest C d l

theorem BestOf.unique {o o' : Option (ℕ × Finset X)} (h : BestOf C o) (h' : BestOf C o') :
    o = o' := by
  match o, o' with
  | none, none => rfl
  | none, some (d', l') =>
    have hC : C = ∅ := h
    have hbest : IsBest C d' l' := h'
    obtain ⟨m, hm⟩ := hbest.attained
    rw [hC] at hm
    exact hm.elim
  | some (d, l), none =>
    have hC : C = ∅ := h'
    have hbest : IsBest C d l := h
    obtain ⟨m, hm⟩ := hbest.attained
    rw [hC] at hm
    exact hm.elim
  | some (d, l), some (d', l') =>
    obtain ⟨rfl, rfl⟩ := IsBest.unique h h'
    rfl

variable [DecidableEq X]

/-- A tentative entry after one more offer: a lower distance replaces it, an equal one merges. -/
def relaxEntry (o : Option (ℕ × Finset X)) (d : ℕ) (l : Finset X) : Option (ℕ × Finset X) :=
  match o with
  | none => some (d, l)
  | some (e, m) => if d < e then some (d, l) else if d = e then some (e, m ∪ l) else some (e, m)

theorem relaxEntry_some (e : ℕ × Finset X) (d : ℕ) (l : Finset X) :
    ∃ x, relaxEntry (some e) d l = some x := by
  simp only [relaxEntry]
  split_ifs <;> exact ⟨_, rfl⟩

theorem relaxEntry_of_lt {e : ℕ} (h : d < e) : relaxEntry (some (e, m)) d l = some (d, l) :=
  if_pos h

theorem relaxEntry_self : relaxEntry (some (d, m)) d l = some (d, m ∪ l) := by
  simp [relaxEntry]

theorem relaxEntry_of_gt {e : ℕ} (h : e < d) : relaxEntry (some (e, m)) d l = some (e, m) :=
  (if_neg (Nat.lt_asymm h)).trans (if_neg (Nat.ne_of_gt h))

theorem BestOf.relax {o : Option (ℕ × Finset X)} (h : BestOf C o) (d : ℕ) (l : Finset X) :
    BestOf (insert (d, l) C) (relaxEntry o d l) := by
  match o with
  | none =>
    have hC : C = ∅ := h
    subst hC
    refine ⟨⟨l, Set.mem_insert _ _⟩, ?_, ?_⟩
    · rintro c m (heq | hm)
      · cases heq
        exact Nat.le_refl _
      · exact hm.elim
    · intro x
      constructor
      · intro hx
        exact ⟨l, Set.mem_insert _ _, hx⟩
      · rintro ⟨m, heq | hm, hx⟩
        · cases heq
          exact hx
        · exact hm.elim
  | some (e, m) =>
    have hbest : IsBest C e m := h
    by_cases hlt : d < e
    · simp only [relaxEntry, if_pos hlt]
      refine ⟨⟨l, Set.mem_insert _ _⟩, ?_, ?_⟩
      · rintro c k (heq | hk)
        · cases heq
          exact Nat.le_refl _
        · exact Nat.le_trans (Nat.le_of_lt hlt) (hbest.least c k hk)
      · intro x
        constructor
        · intro hx
          exact ⟨l, Set.mem_insert _ _, hx⟩
        · rintro ⟨k, heq | hk, hx⟩
          · cases heq
            exact hx
          · exact absurd (hbest.least d k hk) (Nat.not_le.mpr hlt)
    · by_cases heq : d = e
      · subst heq
        simp only [relaxEntry, if_neg hlt, if_true]
        refine ⟨⟨l, Set.mem_insert _ _⟩, ?_, ?_⟩
        · rintro c k (h' | hk)
          · cases h'
            exact Nat.le_refl _
          · exact hbest.least c k hk
        · intro x
          rw [Finset.mem_union, hbest.label]
          constructor
          · rintro (⟨k, hk, hx⟩ | hx)
            · exact ⟨k, Set.mem_insert_of_mem _ hk, hx⟩
            · exact ⟨l, Set.mem_insert _ _, hx⟩
          · rintro ⟨k, h' | hk, hx⟩
            · cases h'
              exact .inr hx
            · exact .inl ⟨k, hk, hx⟩
      · simp only [relaxEntry, if_neg hlt, if_neg heq]
        obtain ⟨k, hk⟩ := hbest.attained
        refine ⟨⟨k, Set.mem_insert_of_mem _ hk⟩, ?_, ?_⟩
        · rintro c k' (h' | hk')
          · cases h'
            exact Nat.not_lt.mp hlt
          · exact hbest.least c k' hk'
        · intro x
          rw [hbest.label]
          constructor
          · rintro ⟨k', hk', hx⟩
            exact ⟨k', Set.mem_insert_of_mem _ hk', hx⟩
          · rintro ⟨k', h' | hk', hx⟩
            · cases h'
              exact absurd rfl heq
            · exact ⟨k', hk', hx⟩

end Best

namespace Search

variable {V X : Type}

/-! ## Walks -/

/-- A walk from the source: the vertices it visits after the source in order, its end, its cost. -/
inductive Walk (P : Search V X) : List V → V → ℕ → Prop where
  | nil : Walk P [] P.source 0
  | snoc {p : List V} {u v : V} {c w : ℕ} (h : Walk P p u c) (he : (v, w) ∈ P.succ u) :
      Walk P (p ++ [v]) v (c + w)

/-- `d` is the least cost of a walk to `n`. -/
structure IsDist (P : Search V X) (n : V) (d : ℕ) : Prop where
  walk : ∃ p, P.Walk p n d
  least : ∀ p c, P.Walk p n c → d ≤ c

theorem IsDist.unique {P : Search V X} {n : V} {d d' : ℕ} (h : P.IsDist n d) (h' : P.IsDist n d') :
    d = d' := by
  obtain ⟨p, hp⟩ := h.walk
  obtain ⟨p', hp'⟩ := h'.walk
  exact Nat.le_antisymm (h.least p' d' hp') (h'.least p d hp)

/-! ## Runs -/

/-- A vertex not settled yet. -/
def Fresh (done : List (Visit V X)) (v : V) : Prop := ∀ u ∈ done, u.id ≠ v

/-- What the settled vertices offer to `k`: a distance below the bound and a label. -/
def offers (P : Search V X) (done : List (Visit V X)) (k : V) : Set (ℕ × Finset X) :=
  { o | ∃ u ∈ done, ∃ w, (k, w) ∈ P.succ u.id ∧ u.dist + w < P.bound ∧
      o = (u.dist + w, P.via u.id u.label k) }

/-- The runs of the search, the last settled vertex first. Among the least vertices one that meets
`pref` goes first if there is one; `fun _ _ => True` leaves the choice free. -/
inductive Run (P : Search V X) (pref : V → Finset X → Prop) : List (Visit V X) → Prop where
  | start : Run P pref [⟨P.source, 0, ∅⟩]
  | settle {done : List (Visit V X)} {v : Visit V X} (h : Run P pref done)
      (hfresh : Fresh done v.id) (hbest : IsBest (P.offers done v.id) v.dist v.label)
      (hmin : ∀ u c m, Fresh done u → (c, m) ∈ P.offers done u → v.dist ≤ c)
      (hpref : ∀ u l, Fresh done u → IsBest (P.offers done u) v.dist l → pref u l →
        pref v.id v.label) : Run P pref (v :: done)

/-- Nothing is left to settle. -/
def Complete (P : Search V X) (done : List (Visit V X)) : Prop :=
  ∀ k, Fresh done k → P.offers done k = ∅

section Run

variable {P : Search V X} {pref : V → Finset X → Prop} {done : List (Visit V X)} {u v : Visit V X}
  {k : V} {c : ℕ}

theorem offers_cons (k : V) : P.offers (v :: done) k =
    { o | ∃ w, (k, w) ∈ P.succ v.id ∧ v.dist + w < P.bound ∧
      o = (v.dist + w, P.via v.id v.label k) } ∪ P.offers done k := by
  ext o
  constructor
  · rintro ⟨u, hu, hrest⟩
    rcases mem_cons.mp hu with rfl | hu
    · exact .inl hrest
    · exact .inr ⟨u, hu, hrest⟩
  · rintro (hrest | ⟨u, hu, hrest⟩)
    · exact ⟨v, mem_cons_self, hrest⟩
    · exact ⟨u, mem_cons_of_mem _ hu, hrest⟩

theorem not_fresh_iff : ¬ Fresh done k ↔ ∃ u ∈ done, u.id = k := by
  simp [Fresh]

theorem Fresh.of_cons (h : Fresh (v :: done) k) : Fresh done k :=
  fun u hu => h u (mem_cons_of_mem _ hu)

/-- Whatever is still on offer is no nearer than the vertex settled last. -/
theorem Run.le_offer (h : P.Run pref (v :: done)) {m : Finset X} (hk : Fresh (v :: done) k)
    (ho : (c, m) ∈ P.offers (v :: done) k) : v.dist ≤ c := by
  rw [offers_cons] at ho
  rcases ho with ⟨w, -, -, heq⟩ | ho
  · cases heq
    exact Nat.le_add_right _ _
  cases h with
  | start =>
    obtain ⟨u, hu, -⟩ := ho
    cases hu
  | settle _ _ _ hmin _ => exact hmin k c m hk.of_cons ho

section

variable (h : P.Run pref done)

include h

/-- Vertices are settled in order of distance. -/
theorem Run.sorted : done.Pairwise fun v u => u.dist ≤ v.dist := by
  induction h with
  | start => exact pairwise_singleton _ _
  | @settle done v hrun hfresh hbest _ _ ih =>
    refine pairwise_cons.mpr ⟨?_, ih⟩
    cases done with
    | nil =>
      intro u hu
      cases hu
    | cons z rest =>
      obtain ⟨m, hm⟩ := hbest.attained
      have hz : z.dist ≤ v.dist := hrun.le_offer hfresh hm
      intro u hu
      rcases mem_cons.mp hu with rfl | hu
      · exact hz
      · exact Nat.le_trans ((pairwise_cons.mp ih).1 u hu) hz

theorem Run.ne_nil : done ≠ [] := by
  cases h <;> simp

theorem Run.source_mem : (⟨P.source, 0, ∅⟩ : Visit V X) ∈ done := by
  induction h with
  | start => exact mem_cons_self
  | settle _ _ _ _ _ ih => exact mem_cons_of_mem _ ih

/-- A vertex is settled once. -/
theorem Run.eq_of_id (hu : u ∈ done) (hv : v ∈ done) (hid : u.id = v.id) : u = v := by
  induction h with
  | start =>
    rw [mem_singleton] at hu hv
    rw [hu, hv]
  | settle _ hfresh _ _ _ ih =>
    rcases mem_cons.mp hu with rfl | hu'
    · rcases mem_cons.mp hv with rfl | hv'
      · rfl
      · exact absurd hid.symm (hfresh v hv')
    · rcases mem_cons.mp hv with rfl | hv'
      · exact absurd hid (hfresh u hu')
      · exact ih hu' hv'

/-- A settled distance is the cost of a walk below the bound. -/
theorem Run.walk (hb : 0 < P.bound) (hv : v ∈ done) :
    (∃ p, P.Walk p v.id v.dist) ∧ v.dist < P.bound := by
  induction h generalizing v with
  | start =>
    rw [mem_singleton] at hv
    subst hv
    exact ⟨⟨[], .nil⟩, hb⟩
  | settle _ _ hbest _ _ ih =>
    rcases mem_cons.mp hv with rfl | hv
    · obtain ⟨m, u, hu, w, hw, hlt, heq⟩ := hbest.attained
      obtain ⟨hd, -⟩ := Prod.mk.inj heq
      obtain ⟨⟨p, hp⟩, -⟩ := ih hu
      rw [hd]
      exact ⟨⟨_, hp.snoc hw⟩, hlt⟩
    · exact ih hv

/-- An edge between settled vertices cannot shorten the way. -/
theorem Run.le_of_edge (hu : u ∈ done) (hv : v ∈ done) {w : ℕ} (hw : (v.id, w) ∈ P.succ u.id)
    (hlt : u.dist + w < P.bound) : v.dist ≤ u.dist + w := by
  induction h with
  | start =>
    rw [mem_singleton] at hu hv
    rw [hu, hv]
    exact Nat.le_add_right _ _
  | @settle done z hrun hfresh hbest hmin hpref ih =>
    have hsorted := pairwise_cons.mp (Run.settle hrun hfresh hbest hmin hpref).sorted
    rcases mem_cons.mp hu with rfl | hu'
    · rcases mem_cons.mp hv with rfl | hv'
      · exact Nat.le_add_right _ _
      · exact Nat.le_trans (hsorted.1 v hv') (Nat.le_add_right _ _)
    · rcases mem_cons.mp hv with rfl | hv'
      · exact hmin v.id _ _ hfresh ⟨u, hu', w, hw, hlt, rfl⟩
      · exact ih hu' hv'

/-- A walk that ends nearer than everything on offer ends in a settled vertex. -/
theorem Run.settled_of_walk_lt {D : ℕ}
    (hmin : ∀ k c m, Fresh done k → (c, m) ∈ P.offers done k → D ≤ c) {p : List V} {n : V}
    (hp : P.Walk p n c) (hD : c < D) (hlt : c < P.bound) : ∃ v ∈ done, v.id = n ∧ v.dist ≤ c := by
  induction hp with
  | nil => exact ⟨_, h.source_mem, rfl, Nat.le_refl _⟩
  | @snoc p u n c w _ he ih =>
    obtain ⟨x, hx, rfl, hle⟩ := ih (by omega) (by omega)
    have hlt' : x.dist + w < P.bound := by omega
    have hnot : ¬ Fresh done n := by
      intro hfresh
      have := hmin n _ _ hfresh ⟨x, hx, w, he, hlt', rfl⟩
      omega
    obtain ⟨v, hv, rfl⟩ := not_fresh_iff.mp hnot
    exact ⟨v, hv, rfl, Nat.le_trans (h.le_of_edge hx hv he hlt') (by omega)⟩

/-- **A completed run settles whatever a walk below the bound reaches**, no farther than the
walk. -/
theorem Run.settled_of_walk (hc : P.Complete done) {p : List V} {n : V} (hp : P.Walk p n c)
    (hlt : c < P.bound) : ∃ v ∈ done, v.id = n ∧ v.dist ≤ c := by
  refine h.settled_of_walk_lt (D := P.bound) (fun k c m hk hm => ?_) hp hlt hlt
  rw [hc k hk] at hm
  exact hm.elim

end

/-- **A settled distance is the least cost of a walk.** -/
theorem Run.dist (h : P.Run pref done) (hc : P.Complete done) (hb : 0 < P.bound) (hv : v ∈ done) :
    P.IsDist v.id v.dist := by
  obtain ⟨hwalk, hlt⟩ := h.walk hb hv
  refine ⟨hwalk, fun p c hp => ?_⟩
  by_cases hcb : c < P.bound
  · obtain ⟨u, hu, hid, hle⟩ := h.settled_of_walk hc hp hcb
    rw [← h.eq_of_id hu hv hid]
    exact hle
  · omega

/-- The run up to a settled vertex. -/
theorem Run.prefix_of_mem (h : P.Run pref done) (hv : v ∈ done) :
    ∃ pre, P.Run pref (v :: pre) ∧ pre ⊆ done := by
  induction h with
  | start =>
    rw [mem_singleton] at hv
    subst hv
    exact ⟨[], .start, nil_subset _⟩
  | @settle done z hrun hfresh hbest hmin hpref ih =>
    rcases mem_cons.mp hv with rfl | hv
    · exact ⟨done, .settle hrun hfresh hbest hmin hpref, subset_cons_self _ _⟩
    · obtain ⟨pre, hpre, hsub⟩ := ih hv
      exact ⟨pre, hpre, subset_cons_of_subset _ hsub⟩

/-! ## Runs over finitely many vertices -/

/-- A run over vertices of `U` is no longer than `U`; if it is as long, nothing of `U` is fresh. -/
theorem Run.length_le [DecidableEq V] (h : P.Run pref done) {U : List V}
    (hU : ∀ v ∈ done, v.id ∈ U) : done.length ≤ U.length ∧
      (done.length = U.length → ∀ k ∈ U, ¬ Fresh done k) := by
  have hnodup : (done.map (·.id)).Nodup := by
    clear hU
    induction h with
    | start => exact nodup_singleton _
    | settle _ hfresh _ _ _ ih =>
      refine nodup_cons.mpr ⟨fun hmem => ?_, ih⟩
      obtain ⟨u, hu, hid⟩ := mem_map.mp hmem
      exact hfresh u hu hid
  have hsub : (done.map (·.id)) ⊆ U := by
    intro k hk
    obtain ⟨v, hv, rfl⟩ := mem_map.mp hk
    exact hU v hv
  have hperm := subperm_of_subset hnodup hsub
  refine ⟨by simpa using hperm.length_le, fun hlen k hk => ?_⟩
  have hmem : k ∈ done.map (·.id) := (hperm.perm_of_length_le (by simp [hlen])).symm.subset hk
  obtain ⟨v, hv, hid⟩ := mem_map.mp hmem
  exact not_fresh_iff.mpr ⟨v, hv, hid⟩

end Run

end Search

end Goisis.Lib
