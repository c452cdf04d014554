import Mathlib.Data.List.Basic

/-!
# Greedy packing

A list is cut into consecutive groups by one pass that keeps a current group: each item joins it
unless `full` says that it opens the next group. `pack` starts from a group that already holds
something; `chunks` starts from nothing, cuts by a test whether a group fits, and returns no group
for no items.

* `flatten_pack`, `flatten_chunks` — nothing is lost, repeated or moved;
* `pack_eq_cons` — the first group continues the one the pass started from;
* `pack_forall` — every group but an unchanged first one has what one item has and growth keeps;
* `length_chunks_le` — no other way to cut a list into groups that fit takes fewer of them.
-/

namespace Goisis.Lib

open List

variable {α : Type}

/-! ## From a group already begun -/

/-- The groups of `cur ++ as`, the first of them beginning with `cur`. -/
def pack (full : List α → α → Bool) : List α → List α → List (List α)
  | cur, [] => [cur]
  | cur, a :: as => if full cur a then cur :: pack full [a] as else pack full (cur ++ [a]) as

theorem flatten_pack (full : List α → α → Bool) (cur as : List α) :
    (pack full cur as).flatten = cur ++ as := by
  induction as generalizing cur with
  | nil => simp [pack]
  | cons a as ih =>
    unfold pack
    split
    · rw [flatten_cons, ih, singleton_append]
    · rw [ih, append_assoc, singleton_append]

/-- The first group continues the one the pass started from. -/
theorem pack_eq_cons (full : List α → α → Bool) (cur as : List α) :
    ∃ more rest, pack full cur as = (cur ++ more) :: rest := by
  induction as generalizing cur with
  | nil => exact ⟨[], [], by rw [append_nil, pack]⟩
  | cons a as ih =>
    unfold pack
    split
    · exact ⟨[], _, by rw [append_nil]⟩
    · obtain ⟨more, rest, h⟩ := ih (cur ++ [a])
      exact ⟨a :: more, rest, by rw [h, append_assoc, singleton_append]⟩

/-- Every group but an unchanged first one is one item or has grown by an item. -/
theorem pack_forall {full : List α → α → Bool} {P : List α → Prop} (hone : ∀ a, P [a])
    (hgrow : ∀ g a, full g a = false → P (g ++ [a])) (cur as : List α) :
    ∃ g rest, pack full cur as = g :: rest ∧ (g = cur ∨ P g) ∧ ∀ h ∈ rest, P h := by
  induction as generalizing cur with
  | nil => exact ⟨cur, [], rfl, .inl rfl, fun h hh => absurd hh not_mem_nil⟩
  | cons a as ih =>
    unfold pack
    split
    · obtain ⟨g, rest, heq, hg, hrest⟩ := ih [a]
      refine ⟨cur, pack full [a] as, rfl, .inl rfl, fun h hh => ?_⟩
      rw [heq] at hh
      rcases mem_cons.mp hh with rfl | hh
      · rcases hg with rfl | hg
        · exact hone a
        · exact hg
      · exact hrest h hh
    · rename_i hfull
      obtain ⟨g, rest, heq, hg, hrest⟩ := ih (cur ++ [a])
      refine ⟨g, rest, heq, .inr ?_, hrest⟩
      rcases hg with rfl | hg
      · exact hgrow cur a (by simpa using hfull)
      · exact hg

/-! ## By a test whether a group fits -/

/-- An item opens the next group when it no longer fits, or when the group is one item that does not
fit itself. -/
def overflows (fits : List α → Bool) (g : List α) (a : α) : Bool :=
  !g.isEmpty && !(fits g && fits (g ++ [a]))

/-- The fewest consecutive groups that fit; an item that does not fit by itself is a group alone. -/
def chunks (fits : List α → Bool) (as : List α) : List (List α) :=
  if as.isEmpty then [] else pack (overflows fits) [] as

theorem flatten_chunks (fits : List α → Bool) (as : List α) : (chunks fits as).flatten = as := by
  unfold chunks
  split
  · rename_i h
    rw [List.isEmpty_iff.mp h, flatten_nil]
  · rw [flatten_pack, nil_append]

variable {g as c : List α}

section Greedy

variable {fits : List α → Bool}

theorem overflows_nil (a : α) : overflows fits [] a = false := rfl

theorem overflows_eq_false {a : α} :
    overflows fits g a = false ↔ g = [] ∨ fits g = true ∧ fits (g ++ [a]) = true := by
  simp [overflows, or_iff_not_imp_left]

theorem chunks_cons (a : α) (as : List α) :
    chunks fits (a :: as) = pack (overflows fits) [a] as := by
  rw [chunks, if_neg (by simp), pack, overflows_nil, if_neg (by simp), nil_append]

/-- No group is empty, and a group of several items fits. -/
theorem chunks_fit (h : g ∈ chunks fits as) : g ≠ [] ∧ (1 < g.length → fits g = true) := by
  cases as with
  | nil => exact absurd h not_mem_nil
  | cons a as =>
    rw [chunks_cons] at h
    have hgrow : ∀ (g : List α) a, overflows fits g a = false →
        g ++ [a] ≠ [] ∧ (1 < (g ++ [a]).length → fits (g ++ [a]) = true) := by
      intro g a hfull
      refine ⟨by simp, fun hlen => ?_⟩
      rcases overflows_eq_false.mp hfull with rfl | hfits
      · simp at hlen
      · exact hfits.2
    obtain ⟨first, rest, heq, hfirst, hrest⟩ :=
      pack_forall (P := fun g => g ≠ [] ∧ (1 < g.length → fits g = true)) (by simp) hgrow [a] as
    rw [heq] at h
    rcases mem_cons.mp h with rfl | h
    · rcases hfirst with rfl | hfirst
      · simp
      · exact hfirst
    · exact hrest g h

variable {l : List α} (hmono : ∀ g h, g <:+: l → h <:+: g → fits g = true → fits h = true)

include hmono

/-- What fits as one group is gathered into it. -/
theorem pack_gather (hl : g ++ c ++ as <:+: l) (hc : 1 < (g ++ c).length → fits (g ++ c) = true) :
    pack (overflows fits) g (c ++ as) = pack (overflows fits) (g ++ c) as := by
  induction c generalizing g with
  | nil => simp
  | cons a c ih =>
    have hsame : g ++ a :: c = g ++ [a] ++ c := by simp
    have hroom : overflows fits g a = false := by
      rw [overflows_eq_false]
      by_cases hg : g = []
      · exact .inl hg
      have hpos := length_pos_of_ne_nil hg
      have hfits := hc (by simp; omega)
      have hin : g ++ a :: c <:+: l := (prefix_append _ as).isInfix.trans hl
      exact .inr ⟨hmono _ _ hin (prefix_append g _).isInfix hfits,
        hmono _ _ hin ⟨[], c, by simp⟩ hfits⟩
    rw [cons_append, pack, if_neg (by simp [hroom]), hsame, ih (hsame ▸ hl) (hsame ▸ hc)]

/-- Greedy stays ahead: with less in the current group the pass ends with no more groups, and at
most one fewer. -/
theorem length_pack_suffix {h : List α} (hl : g ++ as <:+: l) (hh : h <:+ g) :
    (pack (overflows fits) h as).length ≤ (pack (overflows fits) g as).length ∧
      (pack (overflows fits) g as).length ≤ (pack (overflows fits) h as).length + 1 := by
  induction as generalizing g h with
  | nil => simp [pack]
  | cons a as ih =>
    have hstep : g ++ [a] ++ as <:+: l := by simpa using hl
    have hstep' : h ++ [a] ++ as <:+: l := by
      obtain ⟨t, rfl⟩ := hh
      exact (suffix_append t _).isInfix.trans (by simpa using hl)
    have hopen := ih hstep' (suffix_append h [a])
    unfold pack
    by_cases hg : overflows fits g a = true
    · by_cases hfull : overflows fits h a = true
      · simp [hg, hfull]
      · simp only [hg, hfull, if_true, if_false, Bool.false_eq_true, length_cons]
        omega
    · -- the smaller group has room wherever the larger one has
      have hfull : overflows fits h a = false := by
        rw [Bool.not_eq_true, overflows_eq_false] at hg
        rw [overflows_eq_false]
        rcases hg with rfl | ⟨hfits, hfits'⟩
        · exact .inl (suffix_nil.mp hh)
        have hin : g ++ [a] <:+: l := (prefix_append _ as).isInfix.trans hstep
        refine .inr ⟨hmono _ _ hin ?_ hfits', hmono _ _ hin ?_ hfits'⟩
        · exact hh.isInfix.trans (prefix_append g [a]).isInfix
        · obtain ⟨t, rfl⟩ := hh
          exact ⟨t, [], by simp⟩
      simp only [hg, hfull, if_false, Bool.false_eq_true]
      have hsuffix : h ++ [a] <:+ g ++ [a] := by
        obtain ⟨t, rfl⟩ := hh
        exact ⟨t, by simp⟩
      exact ih hstep hsuffix

/-- One group more pays for any group put in front. -/
theorem length_chunks_append (hl : c ++ as <:+: l) (hc : 1 < c.length → fits c = true) :
    (chunks fits (c ++ as)).length ≤ (chunks fits as).length + 1 := by
  have hgather := pack_gather hmono (g := []) hl hc
  cases as with
  | nil =>
    unfold chunks
    split
    · simp
    · rw [hgather]
      simp [pack]
  | cons a as =>
    have hne : (c ++ a :: as).isEmpty = false := by simp
    rw [chunks, chunks, if_neg (by simp), if_neg (by simp), hgather]
    exact (length_pack_suffix hmono hl (nil_suffix (l := c))).2

/-- **Greedy is minimal**: however a list is cut into groups such that those of several items fit,
there are at least as many of them. -/
theorem length_chunks_le {p : List (List α)} (hl : p.flatten <:+: l)
    (hp : ∀ c ∈ p, 1 < c.length → fits c = true) : (chunks fits p.flatten).length ≤ p.length := by
  induction p with
  | nil => simp [chunks]
  | cons c p ih =>
    rw [flatten_cons] at hl ⊢
    have htail := ih ((suffix_append c _).isInfix.trans hl) fun d hd => hp d (mem_cons_of_mem c hd)
    have hhead := length_chunks_append hmono hl (hp c mem_cons_self)
    rw [length_cons]
    omega

end Greedy

end Goisis.Lib
