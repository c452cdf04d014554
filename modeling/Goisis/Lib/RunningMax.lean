import Mathlib.Data.List.Basic
import Mathlib.Order.Lattice

/-!
# The running maximum of a loop

A loop that keeps the best candidate so far and replaces it only by one of strictly higher rank ends
with a candidate of the highest rank. Among several of them it keeps the one it met first, so its
result depends on the order of the loop exactly if they differ.

* `runningMax_spec` — the result has the highest rank;
* `runningMax_cons_of_le` — a candidate met first and not outranked stays.
-/

namespace Goisis.Lib

open List

variable {A R : Type} [LinearOrder R] (rank : A → R)

/-- One turn of the loop. -/
def keepBest (best : Option A) (x : A) : Option A :=
  if best.all (rank · < rank x) then some x else best

/-- The best candidate of a list. -/
def runningMax (l : List A) : Option A := l.foldl (keepBest rank) none

variable {rank} {l : List A} {a x : A} {best : Option A}

theorem keepBest_isSome : (keepBest rank best x).isSome = true := by
  unfold keepBest
  cases best with
  | none => rfl
  | some b =>
    split <;> rfl

/-- A turn ends with the old best or the candidate, whichever outranks the other. -/
theorem keepBest_spec (h : keepBest rank best x = some a) :
    (best = some a ∧ rank x ≤ rank a) ∨ (x = a ∧ ∀ b, best = some b → rank b ≤ rank a) := by
  unfold keepBest at h
  cases best with
  | none =>
    cases h
    exact .inr ⟨rfl, nofun⟩
  | some b =>
    by_cases hlt : rank b < rank x
    · rw [if_pos (by simpa using hlt)] at h
      cases h
      exact .inr ⟨rfl, fun b' hb => Option.some.inj hb ▸ le_of_lt hlt⟩
    · rw [if_neg (by simpa using hlt)] at h
      cases h
      exact .inl ⟨rfl, not_lt.mp hlt⟩

theorem foldl_keepBest_spec (h : l.foldl (keepBest rank) best = some a) :
    (best = some a ∨ a ∈ l) ∧ (∀ b, best = some b → rank b ≤ rank a) ∧
      ∀ b ∈ l, rank b ≤ rank a := by
  induction l generalizing best with
  | nil => exact ⟨.inl h, fun b hb => (Option.some.inj (hb.symm.trans h)) ▸ le_rfl, nofun⟩
  | cons x l ih =>
    obtain ⟨hmem, hbest, hle⟩ := ih h
    obtain ⟨b, hb⟩ : ∃ b, keepBest rank best x = some b :=
      Option.isSome_iff_exists.mp keepBest_isSome
    have hba := hbest b hb
    rcases keepBest_spec hb with ⟨rfl, hx⟩ | ⟨rfl, hold⟩
    · refine ⟨?_, fun c hc => Option.some.inj hc ▸ hba, ?_⟩
      · exact hmem.imp (fun heq => hb.symm.trans heq) (mem_cons_of_mem x)
      · intro c hc
        rcases mem_cons.mp hc with rfl | hc
        · exact le_trans hx hba
        · exact hle c hc
    · refine ⟨.inr ?_, fun c hc => le_trans (hold c hc) hba, ?_⟩
      · rcases hmem with heq | hmem
        · rw [Option.some.inj (hb.symm.trans heq)]
          exact mem_cons_self
        · exact mem_cons_of_mem x hmem
      · intro c hc
        rcases mem_cons.mp hc with rfl | hc
        · exact hba
        · exact hle c hc

/-- **The result has the highest rank of all candidates.** -/
theorem runningMax_spec (h : runningMax rank l = some a) : a ∈ l ∧ ∀ b ∈ l, rank b ≤ rank a := by
  obtain ⟨hmem, -, hle⟩ := foldl_keepBest_spec h
  exact ⟨hmem.resolve_left nofun, hle⟩

theorem foldl_keepBest_isSome (h : best.isSome = true) :
    (l.foldl (keepBest rank) best).isSome = true := by
  induction l generalizing best with
  | nil => exact h
  | cons x l ih => exact ih keepBest_isSome

/-- There is a result if there is a candidate. -/
theorem runningMax_eq_none : runningMax rank l = none ↔ l = [] := by
  constructor
  · intro h
    cases l with
    | nil => rfl
    | cons x l =>
      have hsome : (l.foldl (keepBest rank) (keepBest rank none x)).isSome = true :=
        foldl_keepBest_isSome keepBest_isSome
      rw [show l.foldl (keepBest rank) (keepBest rank none x) = none from h] at hsome
      cases hsome
  · rintro rfl
    rfl

theorem foldl_keepBest_of_le (h : ∀ b ∈ l, rank b ≤ rank a) :
    l.foldl (keepBest rank) (some a) = some a := by
  induction l with
  | nil => rfl
  | cons x l ih =>
    have hx : keepBest rank (some a) x = some a :=
      if_neg (by simpa using h x mem_cons_self)
    rw [foldl_cons, hx]
    exact ih fun b hb => h b (mem_cons_of_mem x hb)

/-- **The first candidate stays unless another outranks it.** -/
theorem runningMax_cons_of_le (h : ∀ b ∈ l, rank b ≤ rank a) : runningMax rank (a :: l) = some a :=
  foldl_keepBest_of_le h

end Goisis.Lib
