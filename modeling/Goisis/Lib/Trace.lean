import Mathlib.Data.List.Infix

/-!
# Events in a history

What happened in a list of events when an event is judged by the events before it. `Since broken
mended es` is the past operator "broken, and not mended since": it obeys the step equation
`since_concat`, by which it is proved of a run one event at a time, and `not_since_iff` unfolds its
negation into the form a reader checks a history against.
-/

namespace Goisis.Lib

open List

variable {E : Type}

/-- Some event is `broken`, given the events before it, and no later one is `mended`. -/
def Since (broken mended : List E → E → Prop) (es : List E) : Prop :=
  ∃ before e after, es = before ++ e :: after ∧ broken before e ∧
    ∀ mid d, mid ++ [d] <+: after → ¬mended (before ++ e :: mid) d

variable {broken mended : List E → E → Prop} {es : List E} {e : E}

theorem not_since_nil : ¬Since broken mended ([] : List E) := by
  rintro ⟨before, e, after, heq, -, -⟩
  simp at heq

/-- **What one more event changes.** -/
theorem since_concat : Since broken mended (es ++ [e]) ↔
    broken es e ∨ (Since broken mended es ∧ ¬mended es e) := by
  constructor
  · rintro ⟨before, b, after, heq, hbroken, hnot⟩
    rcases eq_nil_or_concat' after with rfl | ⟨after, d, rfl⟩
    · obtain ⟨rfl, hbe⟩ := append_inj' heq rfl
      cases hbe
      exact .inl hbroken
    · have hsplit : es ++ [e] = (before ++ b :: after) ++ [d] := by
        rw [heq, append_assoc, cons_append]
      obtain ⟨rfl, hde⟩ := append_inj' hsplit rfl
      cases hde
      refine .inr ⟨⟨before, b, after, rfl, hbroken, fun mid d hmid => ?_⟩, ?_⟩
      · exact hnot mid d (hmid.trans (prefix_append _ _))
      · exact hnot after e (prefix_refl _)
  · rintro (hbroken | ⟨⟨before, b, after, rfl, hbroken, hnot⟩, hlast⟩)
    · refine ⟨es, e, [], rfl, hbroken, fun mid d hmid => ?_⟩
      have := eq_nil_of_prefix_nil hmid
      simp at this
    · refine ⟨before, b, after ++ [e], by rw [append_assoc, cons_append], hbroken, ?_⟩
      intro mid d hmid
      rcases prefix_concat_iff.mp hmid with heq | hmid
      · obtain ⟨rfl, hde⟩ := append_inj' heq rfl
        cases hde
        exact hlast
      · exact hnot mid d hmid

theorem not_since_iff : ¬Since broken mended es ↔
    ∀ before e after, es = before ++ e :: after → broken before e →
      ∃ mid d, mid ++ [d] <+: after ∧ mended (before ++ e :: mid) d := by
  unfold Since
  push Not
  rfl

end Goisis.Lib
