import Mathlib.Data.List.AList
import Mathlib.Data.List.Sort

/-!
# Finite maps

A Go `map[K]V` as an association list without duplicate keys. Lookups after an update are stated as
one `if` on the key, the form the models' proofs split on. The order of the entries stands for the
order a `range` over the map happens to take.

A loop whose every step is about one key (`LocalLoop`, and `KeyedLoop` when the step is a function
of the value) is, over distinct keys, one simultaneous rewrite: `LocalLoop.read_of_mem`,
`LocalLoop.read_of_forall_ne`.
-/

namespace Goisis.Lib

open Option List

variable {K V : Type} {k : K} {C E : Type} {f : C → E → C} {key : E → K} {read : C → K → V}
  {es : List E}

/-- A Go map. -/
abbrev Map (K V : Type) := AList fun _ : K => V

section Entries

variable {W : Type} [DecidableEq K] {l : List (K × V)}

theorem Map.lookup_insert_ite (m : Map K V) (k k' : K) (v : V) :
    (m.insert k v).lookup k' = if k' = k then some v else m.lookup k' := by
  by_cases h : k' = k
  · subst h
    rw [if_pos rfl, AList.lookup_insert]
  · rw [if_neg h, AList.lookup_insert_ne h]

theorem Map.lookup_erase_ite (m : Map K V) (k k' : K) :
    (m.erase k).lookup k' = if k' = k then none else m.lookup k' := by
  by_cases h : k' = k
  · subst h
    rw [if_pos rfl, AList.lookup_erase]
  · rw [if_neg h, AList.lookup_erase_ne h]

theorem Map.lookup_empty (k : K) : (∅ : Map K V).lookup k = none := rfl

/-! ## Maps filled by a loop -/

/-- A map filled by inserting the pairs of a list in order. -/
def Map.ofList (l : List (K × V)) : Map K V := l.foldl (fun m e => m.insert e.1 e.2) ∅

theorem Map.lookup_foldl_insert (hl : (l.map Prod.fst).Nodup) (m : Map K V) (k : K) (v : V) :
    (l.foldl (fun m e => m.insert e.1 e.2) m).lookup k = some v ↔
      (k, v) ∈ l ∨ (k ∉ l.map Prod.fst ∧ m.lookup k = some v) := by
  induction l generalizing m with
  | nil => simp
  | cons e l ih =>
    rw [map_cons, nodup_cons] at hl
    rw [foldl_cons, ih hl.2, Map.lookup_insert_ite]
    by_cases hk : k = e.1
    · subst hk
      have hnot : (e.1, v) ∉ l := fun hmem => hl.1 (mem_map.mpr ⟨_, hmem, rfl⟩)
      constructor
      · rintro (hmem | ⟨-, hv⟩)
        · exact absurd hmem hnot
        · rw [if_pos rfl] at hv
          cases hv
          exact .inl mem_cons_self
      · rintro (hmem | ⟨hnotin, -⟩)
        · rcases mem_cons.mp hmem with heq | hmem
          · exact .inr ⟨hl.1, by rw [if_pos rfl, ← heq]⟩
          · exact absurd hmem hnot
        · exact absurd mem_cons_self hnotin
    · rw [if_neg hk, map_cons, mem_cons, mem_cons, not_or]
      constructor
      · rintro (hmem | ⟨hnotin, hv⟩)
        · exact .inl (.inr hmem)
        · exact .inr ⟨⟨hk, hnotin⟩, hv⟩
      · rintro ((heq | hmem) | ⟨⟨-, hnotin⟩, hv⟩)
        · exact absurd (by rw [← heq]) hk
        · exact .inl hmem
        · exact .inr ⟨hnotin, hv⟩

/-- What holds of the keys inserted holds of every key. -/
theorem Map.forall_keys_ofList {P : K → Prop} (h : ∀ e ∈ l, P e.1) :
    ∀ k ∈ (Map.ofList l).keys, P k := by
  suffices hfold : ∀ m : Map K V, (∀ k ∈ m.keys, P k) →
      ∀ k ∈ (l.foldl (fun m e => m.insert e.1 e.2) m).keys, P k from
    hfold ∅ fun k hk => absurd hk not_mem_nil
  induction l with
  | nil => exact fun m hm => hm
  | cons e l ih =>
    intro m hm
    refine ih (fun x hx => h x (mem_cons_of_mem e hx)) _ fun k hk => ?_
    rcases (AList.mem_insert m).mp hk with rfl | hk
    · exact h e mem_cons_self
    · exact hm k hk

theorem Map.lookup_ofList (hl : (l.map Prod.fst).Nodup) (k : K) (v : V) :
    (Map.ofList l).lookup k = some v ↔ (k, v) ∈ l := by
  rw [Map.ofList, Map.lookup_foldl_insert hl, Map.lookup_empty]
  simp

/-- The entries a loop over the map lets through, with the values it gives them. -/
def Map.filterMap {W : Type} (f : K → V → Option W) (m : Map K V) : Map K W :=
  Map.ofList (m.entries.filterMap fun e => (f e.1 e.2).map fun w => (e.1, w))

theorem Map.lookup_filterMap (f : K → V → Option W) (m : Map K V) (k : K) :
    (m.filterMap f).lookup k = (m.lookup k).bind (f k) := by
  have hnodup : ((m.entries.filterMap fun e => (f e.1 e.2).map fun w => (e.1, w)).map
      Prod.fst).Nodup := by
    rw [map_filterMap]
    refine List.Sublist.nodup ?_ m.nodupKeys
    show (List.filterMap _ m.entries).Sublist (m.entries.map Sigma.fst)
    induction m.entries with
    | nil => exact .slnil
    | cons e es ih =>
      cases he : f e.1 e.2 with
      | none => simpa [he] using ih.cons e.1
      | some w => simpa [he] using ih.cons_cons e.1
  ext w
  rw [Map.filterMap, Map.lookup_ofList hnodup, mem_filterMap]
  constructor
  · rintro ⟨e, he, heq⟩
    obtain ⟨w', hw', heq⟩ := map_eq_some_iff.mp heq
    obtain ⟨rfl, rfl⟩ := Prod.mk.inj heq
    exact bind_eq_some_iff.mpr ⟨e.2, AList.mem_lookup_iff.mpr he, hw'⟩
  · intro h
    obtain ⟨v, hv, hw⟩ := bind_eq_some_iff.mp h
    exact ⟨⟨k, v⟩, AList.mem_lookup_iff.mp hv, by simp [hw]⟩

/-- `maps.Equal(a, b)`. -/
def Map.equal [DecidableEq V] (a b : Map K V) : Bool :=
  a.keys.length == b.keys.length && a.keys.all fun k => a.lookup k == b.lookup k

variable {m : Map K V}

theorem Map.mem_keys_iff : k ∈ m.keys ↔ (m.lookup k).isSome = true :=
  AList.lookup_isSome.symm

variable {a : Map K V}

/-- Maps with the same keys have as many of them. -/
theorem Map.length_keys_eq {b : Map K W} (h : ∀ k, (a.lookup k).isSome = (b.lookup k).isSome) :
    a.keys.length = b.keys.length := by
  refine List.Perm.length_eq ((perm_ext_iff_of_nodup a.keys_nodup b.keys_nodup).mpr fun k => ?_)
  rw [Map.mem_keys_iff, Map.mem_keys_iff, h k]

/-- Equality of maps is equality of their lookups. -/
theorem Map.equal_iff [DecidableEq V] {b : Map K V} :
    a.equal b = true ↔ ∀ k, a.lookup k = b.lookup k := by
  simp only [Map.equal, Bool.and_eq_true, beq_iff_eq, List.all_eq_true]
  constructor
  · rintro ⟨hlen, hall⟩ k
    have hsub : a.keys ⊆ b.keys := fun k hk => by
      rw [Map.mem_keys_iff, ← hall k hk]
      exact Map.mem_keys_iff.mp hk
    have hperm : a.keys.Perm b.keys :=
      (List.subperm_of_subset a.keys_nodup hsub).perm_of_length_le (Nat.le_of_eq hlen.symm)
    by_cases hk : k ∈ a.keys
    · exact hall k hk
    · have hk' : k ∉ b.keys := fun hmem => hk (hperm.mem_iff.mpr hmem)
      rw [Map.mem_keys_iff, Bool.not_eq_true, isSome_eq_false_iff, isNone_iff_eq_none] at hk hk'
      rw [hk, hk']
  · intro h
    exact ⟨Map.length_keys_eq fun k => by rw [h k], fun k _ => h k⟩

/-- The same keys in the same order, with other values. -/
def Map.mapVal {W : Type} (f : V → W) (m : Map K V) : Map K W where
  entries := m.entries.map fun e => ⟨e.1, f e.2⟩
  nodupKeys := by
    have hkeys : (m.entries.map fun e => (⟨e.1, f e.2⟩ : (_ : K) × W)).keys = m.entries.keys := by
      simp only [List.keys, List.map_map]
      rfl
    rw [List.NodupKeys, hkeys]
    exact m.nodupKeys

theorem Map.lookup_mapVal (f : V → W) (m : Map K V) (k : K) :
    (m.mapVal f).lookup k = (m.lookup k).map f := by
  ext w
  rw [map_eq_some_iff, ← mem_def, AList.mem_lookup_iff]
  constructor
  · intro hmem
    obtain ⟨e, he, heq⟩ := mem_map.mp hmem
    cases heq
    exact ⟨e.2, AList.mem_lookup_iff.mpr he, rfl⟩
  · rintro ⟨v, hv, rfl⟩
    exact mem_map.mpr ⟨⟨k, v⟩, AList.mem_lookup_iff.mp hv, rfl⟩

/-! ## Ranging in order -/

variable (r : K → K → Prop) [DecidableRel r]

/-- `slices.SortedFunc(maps.Keys(m), cmp)`. -/
def Map.sortedKeys (m : Map K V) : List K := m.keys.insertionSort r

theorem Map.mem_sortedKeys : k ∈ m.sortedKeys r ↔ (m.lookup k).isSome = true := by
  rw [Map.sortedKeys, mem_insertionSort, Map.mem_keys_iff]

omit [DecidableEq K] in
theorem Map.nodup_sortedKeys (m : Map K V) : (m.sortedKeys r).Nodup :=
  (perm_insertionSort r m.keys).nodup_iff.mpr m.keys_nodup

/-- The entries of a map in the order of their keys. -/
def Map.sorted (m : Map K V) : List (K × V) :=
  (m.sortedKeys r).filterMap fun k => (m.lookup k).map fun v => (k, v)

theorem Map.mem_sorted {v : V} : (k, v) ∈ m.sorted r ↔ m.lookup k = some v := by
  rw [Map.sorted, mem_filterMap]
  constructor
  · rintro ⟨k', -, h⟩
    obtain ⟨v', hv, heq⟩ := map_eq_some_iff.mp h
    cases heq
    exact hv
  · intro h
    exact ⟨k, (Map.mem_sortedKeys r).mpr (by rw [h, isSome_some]), by rw [h, map_some]⟩

theorem Map.nodup_sorted (m : Map K V) : ((m.sorted r).map Prod.fst).Nodup := by
  refine List.Nodup.map_on ?_ (List.Nodup.filterMap ?_ (m.nodup_sortedKeys r))
  · rintro ⟨k, v⟩ hv ⟨k', v'⟩ hv' (rfl : k = k')
    rw [some.inj (((Map.mem_sorted r).mp hv).symm.trans ((Map.mem_sorted r).mp hv'))]
  · intro k k' e he he'
    obtain ⟨v, -, rfl⟩ := map_eq_some_iff.mp he
    obtain ⟨v', -, heq⟩ := map_eq_some_iff.mp he'
    exact (congrArg Prod.fst heq).symm

end Entries

/-! ## Loops that rewrite one key at a time -/

/-- What every step keeps, the loop keeps. -/
theorem foldl_keeps {X : Type} {π : C → X} {f : C → E → C} (hf : ∀ c e, π (f c e) = π c)
    (es : List E) (c : C) : π (es.foldl f c) = π c := by
  induction es generalizing c with
  | nil => rfl
  | cons e es ih => rw [foldl_cons, ih, hf]

/-- Among states that are the `same` elsewhere, the step `f · e` touches what `read` sees under
`key e` only, and what it makes of it depends on nothing else. -/
structure LocalLoop {C E K V : Type} (f : C → E → C) (key : E → K) (read : C → K → V)
    (same : C → C → Prop) : Prop where
  keeps : ∀ c d e, same c d → same c (f d e)
  self : ∀ c d e, same c d → read d (key e) = read c (key e) →
    read (f d e) (key e) = read (f c e) (key e)
  other : ∀ c d e k, same c d → k ≠ key e → read (f d e) k = read d k

namespace LocalLoop

variable {same : C → C → Prop} {c d : C}

variable (h : LocalLoop f key read same)

include h

theorem keeps_foldl (hd : same c d) : same c (es.foldl f d) := by
  induction es generalizing d with
  | nil => exact hd
  | cons e es ih => exact ih (h.keeps c d e hd)

/-- A key no step is about keeps its value. -/
theorem read_of_forall_ne (hd : same c d) (hk : ∀ e ∈ es, key e ≠ k) :
    read (es.foldl f d) k = read d k := by
  induction es generalizing d with
  | nil => rfl
  | cons e es ih =>
    rw [foldl_cons, ih (h.keeps c d e hd) fun x hx => hk x (mem_cons_of_mem e hx)]
    exact h.other c d e k hd (hk e mem_cons_self).symm

/-- Over distinct keys each step acts as if it came first. -/
theorem read_of_mem {e : E} (hd : same c d) (hread : read d (key e) = read c (key e))
    (hnodup : (es.map key).Nodup) (he : e ∈ es) :
    read (es.foldl f d) (key e) = read (f c e) (key e) := by
  induction es generalizing d with
  | nil => cases he
  | cons x es ih =>
    rw [map_cons, nodup_cons] at hnodup
    rw [foldl_cons]
    have hx : ∀ y ∈ es, key y ≠ key x := fun y hy heq =>
      hnodup.1 (heq ▸ mem_map_of_mem hy)
    rcases mem_cons.mp he with rfl | he
    · rw [h.read_of_forall_ne (h.keeps c d e hd) hx, h.self c d e hd hread]
    · refine ih (h.keeps c d x hd) ?_ hnodup.2 he
      rw [h.other c d x _ hd (hx e he), hread]

end LocalLoop

/-- In states that meet `P`, the step `f · e` rewrites what `read` sees under `key e` by `g e` and
nothing else. -/
structure KeyedLoop {C E K V : Type} (f : C → E → C) (key : E → K) (read : C → K → V)
    (g : E → V → V) (P : C → Prop) : Prop where
  keeps : ∀ c e, P c → P (f c e)
  self : ∀ c e, P c → read (f c e) (key e) = g e (read c (key e))
  other : ∀ c e k, P c → k ≠ key e → read (f c e) k = read c k

namespace KeyedLoop

variable {g : E → V → V} {P : C → Prop} {c : C}

theorem toLocalLoop (h : KeyedLoop f key read g P) : LocalLoop f key read fun c d => P c ∧ P d where
  keeps c d e hd := ⟨hd.1, h.keeps d e hd.2⟩
  self c d e hd hread := by rw [h.self d e hd.2, h.self c e hd.1, hread]
  other _ d e k hd hk := h.other d e k hd.2 hk

theorem keeps_foldl (h : KeyedLoop f key read g P) (hc : P c) : P (es.foldl f c) :=
  (h.toLocalLoop.keeps_foldl ⟨hc, hc⟩).2

/-- A key no step is about keeps its value. -/
theorem read_of_forall_ne (h : KeyedLoop f key read g P) (hc : P c) (hk : ∀ e ∈ es, key e ≠ k) :
    read (es.foldl f c) k = read c k :=
  h.toLocalLoop.read_of_forall_ne ⟨hc, hc⟩ hk

/-- Over distinct keys each step rewrites the initial value. -/
theorem read_of_mem (h : KeyedLoop f key read g P) {e : E} (hc : P c) (hnodup : (es.map key).Nodup)
    (he : e ∈ es) : read (es.foldl f c) (key e) = g e (read c (key e)) := by
  rw [h.toLocalLoop.read_of_mem ⟨hc, hc⟩ rfl hnodup he, h.self c e hc]

end KeyedLoop

end Goisis.Lib
