import Mathlib.Data.Fintype.Lattice

/-!
# Resynchronising one item over a broadcast link

Stations on a broadcast link each hold a version of an item, version 0 standing for no copy. A
station may be due to `send` its version or to `request` a newer one; only one station, the server
of the link, answers requests. A version that is sent reaches every other station at once: an older
one is replaced, a newer one becomes due itself.

Once the server has announced its version, what is due meets `Pending`, every step keeps it
(`Pending.step`), and when nothing is due any more every station has the newest version there was
(`Pending.eq_of_quiet`).
-/

namespace Goisis.Lib

/-- The versions of an item, and which stations are due to send or to request it. -/
@[ext] structure Item (ι : Type) where
  version : ι → ℕ
  send : ι → Bool
  request : ι → Bool

namespace Item

variable {ι : Type} [DecidableEq ι]

/-- Station `i` sends its version. -/
def sent (x : Item ι) (i : ι) : Item ι where
  version j := max (x.version j) (x.version i)
  send j := if j = i ∨ x.version j < x.version i then false
    else if x.version i < x.version j then true else x.send j
  request j := if j ≠ i ∧ x.version i < x.version j then false else x.request j

/-- Station `i` requests the item, and the server answers. -/
def requested (x : Item ι) (server i : ι) : Item ι where
  version := x.version
  send j := x.send j || decide (j = server ∧ x.version i < x.version server)
  request j := if j = i then false else x.request j

/-- Station `i` has nothing to send. -/
def dropped (x : Item ι) (i : ι) : Item ι :=
  { x with send := fun j => if j = i then false else x.send j }

/-- One exchange on the link. -/
inductive Step (server : ι) (x : Item ι) : Item ι → Prop where
  | send (i : ι) (h : x.send i = true) : Step server x (x.sent i)
  | request (i : ι) : Step server x (x.requested server i)
  | drop (i : ι) (h : x.version i = 0) : Step server x (x.dropped i)

/-- What is due while the newest version `top` is not everywhere: either whoever has it is due to
send it, or the server has it, nobody else is due to send, and who lacks it is due to request it
unless the server is due to send it. -/
structure Pending (server : ι) (top : ℕ) (x : Item ι) : Prop where
  le : ∀ i, x.version i ≤ top
  held : ∃ i, x.version i = top
  due : (∀ i, x.version i = top) ∨ (∀ i, x.version i = top → x.send i = true) ∨
    (x.version server = top ∧ (∀ i, i ≠ server → x.send i = false) ∧
      ∀ i, x.version i = top ∨ x.request i = true ∨ x.send server = true)

variable {server : ι} {top : ℕ} {x y : Item ι}

omit [DecidableEq ι] in
/-- **Nothing due, nothing missing.** -/
theorem Pending.eq_of_quiet (h : x.Pending server top) (hsend : ∀ i, x.send i = false)
    (hrequest : ∀ i, x.request i = false) (i : ι) : x.version i = top := by
  rcases h.due with hall | hholders | ⟨-, -, hserver⟩
  · exact hall i
  · obtain ⟨j, hj⟩ := h.held
    exact absurd (hholders j hj) (by simp [hsend])
  · rcases hserver i with hi | hi | hi
    · exact hi
    · exact absurd hi (by simp [hrequest])
    · exact absurd hi (by simp [hsend])

theorem version_sent (i j : ι) : (x.sent i).version j = max (x.version j) (x.version i) := rfl

theorem Pending.sent {i : ι} (h : x.Pending server top) (hi : x.send i = true) :
    (x.sent i).Pending server top where
  le j := max_le (h.le j) (h.le i)
  held := by
    obtain ⟨j, hj⟩ := h.held
    exact ⟨j, by rw [version_sent, hj, max_eq_left (h.le i)]⟩
  due := by
    by_cases htop : x.version i = top
    · -- the newest version reaches everyone
      refine .inl fun j => ?_
      rw [version_sent, htop, max_eq_right (h.le j)]
    · have hlt : x.version i < top := lt_of_le_of_ne (h.le i) htop
      rcases h.due with hall | hholders | ⟨hserver, hothers, -⟩
      · exact absurd (hall i) htop
      · -- whoever has it is told of an older version, and is due again
        refine .inr (.inl fun j hj => ?_)
        have hjtop : x.version j = top := by
          rcases max_choice (x.version j) (x.version i) with hmax | hmax
          · rwa [version_sent, hmax] at hj
          · rw [version_sent, hmax] at hj
            exact absurd hj htop
        have hji : j ≠ i := fun heq => htop (heq ▸ hjtop)
        have hnewer : x.version i < x.version j := hjtop ▸ hlt
        simp [Item.sent, hji, hnewer, Nat.not_lt.mpr hnewer.le]
      · -- only the server sends here, and it has the newest version
        have his : i = server := by
          by_contra hne
          rw [hothers i hne] at hi
          cases hi
        exact absurd (his ▸ hserver) htop

theorem Pending.requested (h : x.Pending server top) (i : ι) :
    (x.requested server i).Pending server top where
  le := h.le
  held := h.held
  due := by
    rcases h.due with hall | hholders | ⟨hserver, hothers, hdue⟩
    · exact .inl hall
    · refine .inr (.inl fun j hj => ?_)
      simp [Item.requested, hholders j hj]
    · refine .inr (.inr ⟨hserver, fun j hj => ?_, fun j => ?_⟩)
      · simp [Item.requested, hothers j hj, hj]
      · by_cases hj : x.version j = top
        · exact .inl hj
        · by_cases hji : j = i
          · -- the request of a station that lacks it is answered
            have hlt : x.version i < x.version server := by
              rw [hserver]
              exact lt_of_le_of_ne (h.le i) (hji ▸ hj)
            exact .inr (.inr (by simp [Item.requested, hlt]))
          · refine .inr ((hdue j).resolve_left hj |>.imp ?_ ?_)
            · intro hreq
              simp [Item.requested, hji, hreq]
            · intro hsend
              simp [Item.requested, hsend]

theorem Pending.dropped {i : ι} (h : x.Pending server top) (hi : x.version i = 0) :
    (x.dropped i).Pending server top where
  le := h.le
  held := h.held
  due := by
    by_cases htop : top = 0
    · exact .inl fun j => Nat.le_antisymm (h.le j) (htop ▸ Nat.zero_le _)
    have hne : ∀ j, x.version j = top → j ≠ i := fun j hj heq => htop (by rw [← hj, heq, hi])
    rcases h.due with hall | hholders | ⟨hserver, hothers, hdue⟩
    · exact .inl hall
    · refine .inr (.inl fun j hj => ?_)
      have hj' : x.version j = top := hj
      simp [Item.dropped, hne j hj', hholders j hj']
    · refine .inr (.inr ⟨hserver, fun j hj => ?_, fun j => (hdue j).imp_right (Or.imp_right ?_)⟩)
      · simp [Item.dropped, hothers j hj]
      · intro hsend
        simp [Item.dropped, hne server hserver, hsend]

/-- **An exchange keeps what is due.** -/
theorem Pending.step (h : x.Pending server top) (hstep : Step server x y) :
    y.Pending server top := by
  cases hstep with
  | send i hi => exact h.sent hi
  | request i => exact h.requested i
  | drop i hi => exact h.dropped hi

/-- The link after the server announced its version: whoever has a newer one is due to send it,
whoever has an older one is due to request it. -/
structure Announced (server : ι) (x : Item ι) : Prop where
  send : ∀ i, i ≠ server → (x.send i = true ↔ x.version server < x.version i)
  request : ∀ i, i ≠ server → (x.request i = true ↔ x.version i < x.version server)

omit [DecidableEq ι] in
/-- **After the announcement everything that is missing is due.** -/
theorem Announced.pending [Fintype ι] (h : x.Announced server) : ∃ top, x.Pending server top := by
  obtain ⟨m, -, hm⟩ := Finset.exists_max_image Finset.univ x.version ⟨server, Finset.mem_univ _⟩
  have hle : ∀ i, x.version i ≤ x.version m := fun i => hm i (Finset.mem_univ i)
  refine ⟨x.version m, hle, ⟨m, rfl⟩, ?_⟩
  by_cases hserver : x.version server = x.version m
  · refine .inr (.inr ⟨hserver, fun i hi => ?_, fun i => ?_⟩)
    · rw [← Bool.not_eq_true, h.send i hi, hserver, Nat.not_lt]
      exact hle i
    · by_cases hi : x.version i = x.version m
      · exact .inl hi
      · have hne : i ≠ server := fun heq => hi (heq ▸ hserver)
        refine .inr (.inl ((h.request i hne).mpr ?_))
        rw [hserver]
        exact lt_of_le_of_ne (hle i) hi
  · refine .inr (.inl fun i hi => ?_)
    have hne : i ≠ server := fun heq => hserver (heq ▸ hi)
    rw [h.send i hne, hi]
    exact lt_of_le_of_ne (hle server) hserver

end Item

end Goisis.Lib
