import Goisis.Lib.Map
import Mathlib.Data.List.Perm.Basic
import Mathlib.Data.List.Count

/-!
# Keyed lists and batches of keyed calls

A Go slice searched by a field of its elements. Where the keys are distinct the slice is a map kept
in insertion order, and two such slices hold the same elements when every search answers alike
(`perm_of_find?_eq`). Where they need not be, what the slice holds under one key is its `listing`,
and two slices hold the same pairs when their listings agree up to order (`perm_pairs_iff`).

A *batch* issues calls in order and collects what they are refused with (`runBatch`). When every
call reads and writes the value of its own key only (`KeyedBatch`), a batch over distinct keys
rewrites every key once, from the value it started with (`KeyedBatch.read_of_mem`), and is refused
nowhere exactly when no call is refused at the value it started with (`KeyedBatch.refused_nil`).
-/

namespace Goisis.Lib

open List

variable {E K V : Type} [DecidableEq K]

/-! ## Distinct keys -/

variable {key : E → K} {l l' : List E} {e : E} {k : K}

theorem find?_key_eq_some (h : l.find? (fun e => key e = k) = some e) : e ∈ l ∧ key e = k :=
  ⟨mem_of_find?_eq_some h, by simpa using find?_some h⟩

theorem find?_key_eq_none : l.find? (fun e => key e = k) = none ↔ k ∉ l.map key := by
  simp [find?_eq_none]

theorem find?_key_of_mem (hl : (l.map key).Nodup) (he : e ∈ l) :
    l.find? (fun e' => key e' = key e) = some e := by
  induction l with
  | nil => cases he
  | cons a l ih =>
    rw [map_cons, nodup_cons] at hl
    rcases mem_cons.mp he with rfl | he
    · exact find?_cons_of_pos (by simp)
    have hne : key a ≠ key e := fun heq => hl.1 (heq ▸ mem_map_of_mem he)
    rw [find?_cons_of_neg (by simpa using hne)]
    exact ih hl.2 he

/-- Two slices with distinct keys that answer every search alike hold the same elements. -/
theorem perm_of_find?_eq (hl : (l.map key).Nodup) (hl' : (l'.map key).Nodup)
    (h : ∀ k, l.find? (fun e => key e = k) = l'.find? (fun e => key e = k)) : l.Perm l' := by
  refine (perm_ext_iff_of_nodup hl.of_map hl'.of_map).mpr fun e => ⟨fun he => ?_, fun he => ?_⟩
  · exact (find?_key_eq_some ((h (key e)).symm.trans (find?_key_of_mem hl he))).1
  · exact (find?_key_eq_some ((h (key e)).trans (find?_key_of_mem hl' he))).1

theorem find?_eq_of_perm (hl : (l.map key).Nodup) (h : l.Perm l') (k : K) :
    l.find? (fun e => key e = k) = l'.find? (fun e => key e = k) := by
  have hl' : (l'.map key).Nodup := (h.map key).nodup_iff.mp hl
  cases hf : l'.find? (fun e => key e = k) with
  | none =>
    rw [find?_key_eq_none] at hf ⊢
    exact fun hmem => hf ((h.map key).mem_iff.mp hmem)
  | some e =>
    obtain ⟨he, rfl⟩ := find?_key_eq_some hf
    exact find?_key_of_mem hl (h.mem_iff.mpr he)

theorem find?_append_singleton (a : E) (k : K) :
    (l ++ [a]).find? (fun e => key e = k) =
      (l.find? (fun e => key e = k)).or (if k = key a then some a else none) := by
  rw [find?_append]
  by_cases h : k = key a
  · rw [if_pos h, find?_cons_of_pos (by simp [h])]
  · rw [if_neg h, find?_cons_of_neg (by simpa using Ne.symm h)]
    rfl

theorem find?_eraseP_key (hl : (l.map key).Nodup) (k k' : K) :
    (l.eraseP (fun e => key e = k)).find? (fun e => key e = k') =
      if k' = k then none else l.find? (fun e => key e = k') := by
  induction l with
  | nil => simp
  | cons a l ih =>
    rw [map_cons, nodup_cons] at hl
    by_cases ha : key a = k
    · subst ha
      rw [eraseP_cons_of_pos (by simp)]
      by_cases hk : k' = key a
      · rw [if_pos hk, hk, find?_key_eq_none]
        exact hl.1
      · rw [if_neg hk, find?_cons_of_neg (by simpa using Ne.symm hk)]
    · rw [eraseP_cons_of_neg (by simpa using ha)]
      by_cases hk : key a = k'
      · rw [find?_cons_of_pos (by simpa using hk), find?_cons_of_pos (by simpa using hk),
          if_neg (hk ▸ ha)]
      · rw [find?_cons_of_neg (by simpa using hk), find?_cons_of_neg (by simpa using hk)]
        exact ih hl.2

omit [DecidableEq K] in
theorem nodup_eraseP_key (hl : (l.map key).Nodup) (p : E → Bool) : ((l.eraseP p).map key).Nodup :=
  hl.sublist (eraseP_sublist.map key)

omit [DecidableEq K] in
theorem nodup_append_singleton (hl : (l.map key).Nodup) {a : E} (ha : key a ∉ l.map key) :
    ((l ++ [a]).map key).Nodup := by
  rw [map_append, map_singleton, nodup_append_comm]
  exact nodup_cons.mpr ⟨ha, hl⟩

/-! ## Listings -/

section Listing

variable (key : E → K) (val : E → V)

/-- The values a slice holds under a key, in order. -/
def listing (l : List E) (k : K) : List V := (l.filter fun e => key e = k).map val

variable {key val}

theorem listing_cons (a : E) (l : List E) (k : K) :
    listing key val (a :: l) k =
      if key a = k then val a :: listing key val l k else listing key val l k := by
  unfold listing
  split_ifs <;> simp_all

theorem listing_append (l l' : List E) (k : K) :
    listing key val (l ++ l') k = listing key val l k ++ listing key val l' k := by
  rw [listing, filter_append, map_append]
  rfl

theorem mem_listing {v : V} : v ∈ listing key val l k ↔ ∃ e ∈ l, key e = k ∧ val e = v := by
  simp [listing, and_assoc]

theorem listing_eraseP (l : List E) (k k' : K) :
    listing key val (l.eraseP fun e => key e = k) k' =
      if k' = k then (listing key val l k').tail else listing key val l k' := by
  induction l with
  | nil => simp [listing]
  | cons a l ih =>
    by_cases ha : key a = k
    · rw [eraseP_cons_of_pos (by simpa using ha), listing_cons]
      by_cases hk : k' = k
      · rw [if_pos hk, if_pos (ha.trans hk.symm), tail_cons]
      · rw [if_neg hk, if_neg fun h => hk (h.symm.trans ha)]
    · rw [eraseP_cons_of_neg (by simpa using ha), listing_cons, listing_cons, ih]
      by_cases hk : k' = k
      · rw [if_pos hk, if_pos hk, if_neg fun h => ha (h.trans hk), if_neg fun h => ha (h.trans hk)]
      · rw [if_neg hk, if_neg hk]

theorem head?_listing (l : List E) (k : K) :
    (listing key val l k).head? = (l.find? fun e => key e = k).map val := by
  induction l with
  | nil => rfl
  | cons a l ih =>
    rw [listing_cons]
    by_cases ha : key a = k
    · rw [if_pos ha, find?_cons_of_pos (by simpa using ha)]
      rfl
    · rw [if_neg ha, find?_cons_of_neg (by simpa using ha), ih]

theorem count_pairs [DecidableEq V] (l : List E) (k : K) (v : V) :
    (l.map fun e => (key e, val e)).count (k, v) = (listing key val l k).count v := by
  induction l with
  | nil => rfl
  | cons a l ih =>
    rw [map_cons, count_cons, listing_cons, ih]
    by_cases ha : key a = k
    · rw [if_pos ha, count_cons]
      simp [Prod.ext_iff, ha]
    · simp [Prod.ext_iff, ha]

/-- Two slices hold the same pairs when their listings agree up to order under every key. -/
theorem perm_pairs_iff [DecidableEq V] :
    (l.map fun e => (key e, val e)).Perm (l'.map fun e => (key e, val e)) ↔
      ∀ k, (listing key val l k).Perm (listing key val l' k) := by
  simp only [perm_iff_count, Prod.forall, count_pairs]

/-- A map filled from a slice in order keeps, under each key, the value listed last. -/
theorem Map.lookup_ofList_listing (l : List E) (k : K) :
    (Map.ofList (l.map fun e => (key e, val e))).lookup k = (listing key val l k).getLast? := by
  have hfold : ∀ m : Map K V, ((l.map fun e => (key e, val e)).foldl
      (fun m e => m.insert e.1 e.2) m).lookup k = (listing key val l k).getLast?.or
        (m.lookup k) := by
    induction l with
    | nil => exact fun m => rfl
    | cons a l ih =>
      intro m
      rw [map_cons, foldl_cons, ih, Map.lookup_insert_ite, listing_cons]
      by_cases ha : key a = k
      · rw [if_pos ha.symm, if_pos ha, getLast?_cons]
        cases (listing key val l k).getLast? <;> rfl
      · rw [if_neg (Ne.symm ha), if_neg ha]
  exact (hfold ∅).trans (Option.or_none)

end Listing

/-! ## Batches -/

variable {S C ε : Type}

/-- Every call of a batch in order: the state after it, and what the calls were refused with. -/
def runBatch (step : E → S → S × Option ε) : List E → S → S × List ε
  | [], s => (s, [])
  | e :: es, s =>
    let r := step e s
    let rest := runBatch step es r.1
    (rest.1, r.2.toList ++ rest.2)

theorem runBatch_append (step : E → S → S × Option ε) (es es' : List E) (s : S) :
    runBatch step (es ++ es') s =
      ((runBatch step es' (runBatch step es s).1).1,
        (runBatch step es s).2 ++ (runBatch step es' (runBatch step es s).1).2) := by
  induction es generalizing s with
  | nil => rfl
  | cons e es ih => simp [runBatch, ih]

theorem runBatch_map {F : Type} (step : E → S → S × Option ε) (f : F → E) (es : List F) (s : S) :
    runBatch step (es.map f) s = runBatch (fun e => step (f e)) es s := by
  induction es generalizing s with
  | nil => rfl
  | cons e es ih => simp [runBatch, ih]

variable {step : E → S → S × Option ε} {es : List E}

theorem runBatch_congr {step' : E → S → S × Option ε} (h : ∀ e ∈ es, ∀ s, step e s = step' e s)
    (s : S) : runBatch step es s = runBatch step' es s := by
  induction es generalizing s with
  | nil => rfl
  | cons e es ih =>
    simp only [runBatch, h e mem_cons_self, ih fun e' he' => h e' (mem_cons_of_mem _ he')]

variable {P : S → Prop}

/-- What every call keeps, a batch keeps. -/
theorem runBatch_keeps (h : ∀ e ∈ es, ∀ s, P s → P (step e s).1) {s : S} (hs : P s) :
    P (runBatch step es s).1 := by
  induction es generalizing s with
  | nil => exact hs
  | cons e es ih =>
    exact ih (fun e' he' => h e' (mem_cons_of_mem _ he')) (h e mem_cons_self s hs)

/-- A batch of calls that each concern the value of one key: `next` is what a call makes of it,
`fine` where the call is not refused. `P` is what the calls rely on and keep. -/
structure KeyedBatch (step : E → S → S × Option ε) (es : List E) (key : E → K) (read : S → K → C)
    (next : E → C → C) (fine : E → C → Prop) (P : S → Prop) : Prop where
  keeps : ∀ e ∈ es, ∀ s, P s → P (step e s).1
  read_step : ∀ e ∈ es, ∀ s, P s → ∀ k,
    read (step e s).1 k = if k = key e then next e (read s k) else read s k
  refused : ∀ e ∈ es, ∀ s, P s → ((step e s).2 = none ↔ fine e (read s (key e)))

namespace KeyedBatch

variable {read : S → K → C} {next : E → C → C} {fine : E → C → Prop} {s : S}

theorem tail (h : KeyedBatch step (e :: es) key read next fine P) :
    KeyedBatch step es key read next fine P where
  keeps e' he' := h.keeps e' (mem_cons_of_mem _ he')
  read_step e' he' := h.read_step e' (mem_cons_of_mem _ he')
  refused e' he' := h.refused e' (mem_cons_of_mem _ he')

section

variable (h : KeyedBatch step es key read next fine P)

include h

theorem read_of_forall_ne (hs : P s) (hk : ∀ e ∈ es, key e ≠ k) :
    read (runBatch step es s).1 k = read s k := by
  induction es generalizing s with
  | nil => rfl
  | cons e es ih =>
    have hstep := h.read_step e mem_cons_self s hs k
    rw [if_neg (hk e mem_cons_self).symm] at hstep
    exact (ih h.tail (h.keeps e mem_cons_self s hs)
      fun e' he' => hk e' (mem_cons_of_mem _ he')).trans hstep

/-- A key of the batch is rewritten once, from the value it started with. -/
theorem read_of_mem (hes : (es.map key).Nodup) (hs : P s) (he : e ∈ es) :
    read (runBatch step es s).1 (key e) = next e (read s (key e)) := by
  induction es generalizing s with
  | nil => cases he
  | cons a es ih =>
    rw [map_cons, nodup_cons] at hes
    have hs' := h.keeps a mem_cons_self s hs
    rcases mem_cons.mp he with rfl | he
    · have hne : ∀ e' ∈ es, key e' ≠ key e := fun e' he' heq =>
        hes.1 (heq ▸ mem_map_of_mem he')
      refine (read_of_forall_ne h.tail hs' hne).trans ?_
      rw [h.read_step e mem_cons_self s hs, if_pos rfl]
    · have hne : key e ≠ key a := fun heq => hes.1 (heq ▸ mem_map_of_mem he)
      refine (ih h.tail hes.2 hs' he).trans ?_
      rw [h.read_step a mem_cons_self s hs, if_neg hne]

/-- A batch is refused nowhere exactly when no call is at the value it started with. -/
theorem refused_nil (hes : (es.map key).Nodup) (hs : P s) :
    (runBatch step es s).2 = [] ↔ ∀ e ∈ es, fine e (read s (key e)) := by
  induction es generalizing s with
  | nil => simp [runBatch]
  | cons a es ih =>
    rw [map_cons, nodup_cons] at hes
    have hs' := h.keeps a mem_cons_self s hs
    have hread : ∀ e ∈ es, read (step a s).1 (key e) = read s (key e) := by
      intro e he
      have hne : key e ≠ key a := fun heq => hes.1 (heq ▸ mem_map_of_mem he)
      rw [h.read_step a mem_cons_self s hs, if_neg hne]
    have hrest : (runBatch step es (step a s).1).2 = [] ↔ ∀ e ∈ es, fine e (read s (key e)) := by
      rw [ih h.tail hes.2 hs']
      exact forall₂_congr fun e he => by rw [hread e he]
    have hhead := h.refused a mem_cons_self s hs
    simp only [runBatch, append_eq_nil_iff, Option.toList_eq_nil_iff, hhead, hrest, forall_mem_cons]

end

/-- **A group of calls of a larger batch**: when none is refused, and what it makes of each
value. -/
theorem run_map {F : Type} {call : F → E} {fs : List F} {key : F → K} {next : F → C → C}
    {fine : F → C → Prop} (h : KeyedBatch (fun f => step (call f)) fs key read next fine P)
    (hfs : (fs.map key).Nodup) (hs : P s) :
    ((runBatch step (fs.map call) s).2 = [] ↔ ∀ f ∈ fs, fine f (read s (key f))) ∧
      P (runBatch step (fs.map call) s).1 ∧
      (∀ f ∈ fs, read (runBatch step (fs.map call) s).1 (key f) = next f (read s (key f))) ∧
      ∀ k, (∀ f ∈ fs, key f ≠ k) → read (runBatch step (fs.map call) s).1 k = read s k := by
  rw [runBatch_map]
  exact ⟨h.refused_nil hfs hs, runBatch_keeps h.keeps hs, fun f hf => h.read_of_mem hfs hs hf,
    fun k hk => h.read_of_forall_ne hs hk⟩

/-- The same where the calls are told apart by their keys alone. -/
theorem run_keys {call : K → E} {ks : List K} {next : K → C → C} {fine : K → C → Prop}
    (h : KeyedBatch (fun k => step (call k)) ks id read next fine P) (hks : ks.Nodup) (hs : P s) :
    ((runBatch step (ks.map call) s).2 = [] ↔ ∀ k ∈ ks, fine k (read s k)) ∧
      P (runBatch step (ks.map call) s).1 ∧ ∀ k, read (runBatch step (ks.map call) s).1 k =
        if k ∈ ks then next k (read s k) else read s k := by
  obtain ⟨hfine, hkeep, hin, hout⟩ := h.run_map (by rwa [map_id]) hs
  refine ⟨hfine, hkeep, fun k => ?_⟩
  split
  · exact hin k ‹_›
  · exact hout k fun k' hk' heq => ‹k ∉ ks› (heq ▸ hk')

end KeyedBatch

end Goisis.Lib
