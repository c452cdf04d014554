import Goisis.Server.Lsdb
import Mathlib.Data.Int.ConditionallyCompleteOrder
import Mathlib.Data.Int.Interval
import Mathlib.Data.List.TakeWhile

/-!
# The window of the corrupt-lifetime report

`corruptLifetime` (`pkg/server/lsdb.go`) reports a received LSP whose remaining lifetime is
implausibly low, unless the adjacency it came over is in the middle of a database exchange: for
ZeroAgeLifetime after `syncSince` nothing is reported. Every exchange reopens that window
(`openSyncWindow`), and a neighbour can ask for exchanges, so the suppression is paid for from a
budget: the time a reopening adds is charged to `syncSpent`, which leaks back at a tenth of the
rate, and a spent budget reopens nothing.

An instant is suppressed if the window is open then. The window open at the start of an interval and
the reopenings in it cover what was charged and one window more; the charges are what the budget
held and what leaked back.

* `open_spec` — one reopening, as a change of the account;
* `suppressed_le` — what can be suppressed from a state on;
* `suppression_bounded` — the bound over an interval of an Up episode.
-/

namespace Goisis.Server

open Lib Packet List

/-- `maxSyncSuppression`. -/
def maxSyncSuppression : Int := 5 * zeroAgeSeconds * second

/-- `syncRefillDivisor`. -/
def syncRefillDivisor : Int := 10

/-- The fields of an adjacency the filter reads; `upSince` is for the log. -/
structure SyncWindow where
  syncSince : Int
  syncSpent : Int
  syncCharged : Int
deriving DecidableEq, Repr

namespace SyncWindow

/-- `resetSyncWindow(now)`. -/
def resetSyncWindow (now : Int) : SyncWindow where
  syncSince := now
  syncSpent := 0
  syncCharged := now

variable (w : SyncWindow)

/-- `refillSyncBudget(now)`. -/
def refillSyncBudget (now : Int) : SyncWindow :=
  let elapsed := now - w.syncCharged
  if elapsed ≤ 0 then w
  else
    let spent := w.syncSpent - elapsed / syncRefillDivisor
    { w with
      syncCharged := now
      syncSpent := if spent < 0 then 0 else spent }

/-- `openSyncWindow(c, adj, now)`. -/
def openSyncWindow (now : Int) : SyncWindow :=
  let w := w.refillSyncBudget now
  let add := now - w.syncSince
  if add ≤ 0 then w
  else if maxSyncSuppression ≤ w.syncSpent then w
  else
    { w with
      syncSpent := w.syncSpent + min add (zeroAgeSeconds * second)
      syncSince := now }

/-- The window is open. -/
def Suppressed (now : Int) : Prop := now - w.syncSince < zeroAgeSeconds * second

instance (w : SyncWindow) (now : Int) : Decidable (w.Suppressed now) :=
  inferInstanceAs (Decidable (_ < _))

/-- The window at an instant, after the calls up to it. -/
def stateAt (calls : List Int) (now : Int) : SyncWindow :=
  (calls.takeWhile (· ≤ now)).foldl openSyncWindow w

/-- The suppressed instants of an interval. -/
noncomputable def suppressedIn (calls : List Int) (a b : Int) : Finset Int :=
  (Finset.Ico a b).filter fun now => (w.stateAt calls now).Suppressed now

end SyncWindow

/-- `corruptLifetime(adj, remaining, now)`. -/
def corruptLifetime (adj : Option SyncWindow) (remaining : UInt16) (now : Int) : Bool :=
  if remaining = 0 ∨ zeroAgeSeconds ≤ remaining.toNat then false
  else adj.any fun w => zeroAgeSeconds * second ≤ now - w.syncSince

namespace SyncWindow

/-- A lifetime low enough to report goes unreported exactly while the window is open. -/
theorem corruptLifetime_eq_false (w : SyncWindow) (now : Int) {remaining : UInt16}
    (hzero : remaining ≠ 0) (hlow : remaining.toNat < zeroAgeSeconds) :
    corruptLifetime (some w) remaining now = false ↔ w.Suppressed now := by
  simp [corruptLifetime, Suppressed, hzero, hlow]

/-! ## One call -/

/-- What holds of a window at an instant of its episode. -/
structure Sound (w : SyncWindow) (now : Int) : Prop where
  since : w.syncSince ≤ now
  charged : w.syncCharged ≤ now
  nonneg : 0 ≤ w.syncSpent
  spent : w.syncSpent ≤ maxSyncSuppression + zeroAgeSeconds * second

variable {w : SyncWindow} {now t a b : Int} {calls : List Int}

theorem Sound.mono (h : w.Sound now) (hle : now ≤ t) : w.Sound t :=
  ⟨h.since.trans hle, h.charged.trans hle, h.nonneg, h.spent⟩

theorem sound_resetSyncWindow (now : Int) : (resetSyncWindow now).Sound now :=
  ⟨le_rfl, le_rfl, le_rfl, show (0 : Int) ≤ maxSyncSuppression + zeroAgeSeconds * second by decide⟩

/-- The leak gives back no more than a tenth of the time since it was last taken. -/
theorem refill_spec (h : w.Sound now) :
    (w.refillSyncBudget now).syncSince = w.syncSince ∧ (w.refillSyncBudget now).syncCharged = now ∧
      0 ≤ (w.refillSyncBudget now).syncSpent ∧ (w.refillSyncBudget now).syncSpent ≤ w.syncSpent ∧
      w.syncSpent - (now - w.syncCharged) / 10 ≤ (w.refillSyncBudget now).syncSpent := by
  obtain ⟨-, hcharged, hnonneg, -⟩ := h
  unfold refillSyncBudget syncRefillDivisor
  simp only
  split
  · have heq : w.syncCharged = now := by omega
    refine ⟨rfl, heq, hnonneg, le_rfl, ?_⟩
    rw [heq, sub_self]
    simp
  · have hleak : 0 ≤ (now - w.syncCharged) / 10 := by omega
    split
    · exact ⟨rfl, rfl, le_rfl, hnonneg, by dsimp only; omega⟩
    · exact ⟨rfl, rfl, by dsimp only; omega, by dsimp only; omega, le_rfl⟩

/-- **One call**: after the leak, the window stays as it is or reopens, and then what it adds is
charged. -/
theorem open_spec (h : w.Sound now) :
    (w.openSyncWindow now).Sound now ∧ (w.openSyncWindow now).syncCharged = now ∧
      ∃ left, 0 ≤ left ∧ w.syncSpent - (now - w.syncCharged) / 10 ≤ left ∧
        ((w.openSyncWindow now).syncSince = w.syncSince ∧ (w.openSyncWindow now).syncSpent = left ∨
          (w.openSyncWindow now).syncSince = now ∧ (w.openSyncWindow now).syncSpent =
            left + min (now - w.syncSince) (zeroAgeSeconds * second)) := by
  obtain ⟨hsince, hcharged, hnonneg, hless, hleak⟩ := refill_spec h
  obtain ⟨hle, -, -, hspent⟩ := h
  have hwindow : (0 : Int) ≤ zeroAgeSeconds * second := by decide
  unfold openSyncWindow
  simp only
  generalize w.refillSyncBudget now = r at hsince hcharged hnonneg hless hleak ⊢
  split
  · exact ⟨⟨hsince.trans_le hle, hcharged.le, hnonneg, hless.trans hspent⟩, hcharged, _,
      hnonneg, hleak, .inl ⟨hsince, rfl⟩⟩
  split
  · exact ⟨⟨hsince.trans_le hle, hcharged.le, hnonneg, hless.trans hspent⟩, hcharged, _, hnonneg,
      hleak, .inl ⟨hsince, rfl⟩⟩
  refine ⟨⟨le_rfl, hcharged.le, ?_, ?_⟩, hcharged, _, hnonneg, hleak, .inr ⟨rfl, ?_⟩⟩
  · dsimp only
    omega
  · dsimp only
    omega
  · rw [hsince]

theorem sound_foldl (h : w.Sound now) (hcalls : ∀ x ∈ calls, now ≤ x ∧ x ≤ t) (hle : now ≤ t)
    (hsorted : calls.Pairwise (· ≤ ·)) : (calls.foldl openSyncWindow w).Sound t := by
  induction calls generalizing w now with
  | nil => exact h.mono hle
  | cons x calls ih =>
    obtain ⟨hx, hxt⟩ := hcalls x mem_cons_self
    rw [pairwise_cons] at hsorted
    exact ih (open_spec (h.mono hx)).1
      (fun y hy => ⟨hsorted.1 y hy, (hcalls y (mem_cons_of_mem x hy)).2⟩) hxt hsorted.2

/-! ## From a state on -/

/-- What is left of the open window. -/
def openFor (w : SyncWindow) (now : Int) : Int :=
  max 0 (w.syncSince + zeroAgeSeconds * second - now)

/-- Between two calls the suppressed instants are those the open window covers. -/
theorem card_between (w : SyncWindow) (calls : List Int) (a b : Int)
    (h : ∀ n, a ≤ n → n < b → w.stateAt calls n = w) :
    ((w.suppressedIn calls a b).card : Int) ≤
      max 0 (min b (w.syncSince + zeroAgeSeconds * second) - a) := by
  have hsub : w.suppressedIn calls a b ⊆
      Finset.Ico a (min b (w.syncSince + zeroAgeSeconds * second)) := by
    intro n hn
    simp only [suppressedIn, Finset.mem_filter, Finset.mem_Ico] at hn ⊢
    obtain ⟨⟨han, hnb⟩, hopen⟩ := hn
    rw [h n han hnb] at hopen
    unfold Suppressed at hopen
    omega
  have hcard := Finset.card_le_card hsub
  rw [Int.card_Ico] at hcard
  omega

/-- A call takes effect from its instant on. -/
theorem suppressedIn_cons (w : SyncWindow) (calls : List Int) (t a b : Int) :
    (w.suppressedIn (t :: calls) a b).card ≤
      (w.suppressedIn (t :: calls) a t).card +
      ((w.openSyncWindow t).suppressedIn calls t b).card := by
  have hsub : w.suppressedIn (t :: calls) a b ⊆
      w.suppressedIn (t :: calls) a t ∪ (w.openSyncWindow t).suppressedIn calls t b := by
    intro n hn
    simp only [suppressedIn, Finset.mem_union, Finset.mem_filter, Finset.mem_Ico] at hn ⊢
    obtain ⟨⟨han, hnb⟩, hopen⟩ := hn
    by_cases hnt : n < t
    · exact .inl ⟨⟨han, hnt⟩, hopen⟩
    · refine .inr ⟨⟨not_lt.mp hnt, hnb⟩, ?_⟩
      unfold stateAt at hopen ⊢
      rwa [takeWhile_cons, if_pos (decide_eq_true (not_lt.mp hnt)), foldl_cons] at hopen
  exact (Finset.card_le_card hsub).trans (Finset.card_union_le _ _)

theorem stateAt_cons_of_lt {n : Int} (hn : n < t) : w.stateAt (t :: calls) n = w := by
  unfold stateAt
  rw [takeWhile_cons, if_neg (by simpa using hn)]
  rfl

/-- **What can be suppressed from a state on**: the rest of the open window, the rest of the budget,
and what leaks back into it. Since the budget holds no credit, the leak counts only from the first
call. -/
theorem suppressed_le (h : w.Sound a) (hab : a ≤ b) (hcalls : ∀ x ∈ calls, a ≤ x)
    (hsorted : calls.Pairwise (· ≤ ·)) :
    ((w.suppressedIn calls a b).card : Int) ≤ w.openFor a +
        (maxSyncSuppression + zeroAgeSeconds * second - w.syncSpent) + (b - w.syncCharged) / 10 ∧
      ((w.suppressedIn calls a b).card : Int) ≤
        (b - a) / 10 + maxSyncSuppression + 2 * (zeroAgeSeconds * second) := by
  have hwindow : (0 : Int) ≤ zeroAgeSeconds * second := by decide
  have hbudget : (0 : Int) ≤ maxSyncSuppression := by decide
  unfold openFor
  induction calls generalizing w a with
  | nil =>
    obtain ⟨hsince, hcharged, -, hspent⟩ := h
    have hcard := card_between w [] a b fun _ _ _ => rfl
    omega
  | cons t calls ih =>
    rw [pairwise_cons] at hsorted
    have hat : a ≤ t := hcalls t mem_cons_self
    have ⟨hsince, hcharged, _, hspent⟩ := h
    by_cases htb : t < b
    · obtain ⟨hsound, hnow, left, hleft, hleak, hkeep⟩ := open_spec (h.mono hat)
      obtain ⟨hrest, -⟩ := ih hsound htb.le hsorted.1 hsorted.2
      have hfirst := card_between w (t :: calls) a t fun n _ hn => stateAt_cons_of_lt hn
      have hsplit := suppressedIn_cons w calls t a b
      generalize zeroAgeSeconds * second = window at *
      rcases hkeep with ⟨hsame, hspent'⟩ | ⟨hreopened, hspent'⟩
      · omega
      · omega
    · have hcard := card_between w (t :: calls) a b
        fun n _ hn => stateAt_cons_of_lt (hn.trans_le (not_lt.mp htb))
      omega

/-! ## Over an interval -/

theorem le_of_mem_takeWhile {x : Int} (hx : x ∈ calls.takeWhile (· ≤ a)) : x ≤ a := by
  simpa using mem_takeWhile_imp hx

/-- The calls up to the start of the interval go into the state there. -/
theorem stateAt_of_le {n : Int} (han : a ≤ n) :
    w.stateAt calls n = ((calls.takeWhile (· ≤ a)).foldl openSyncWindow w).stateAt
      (calls.dropWhile (· ≤ a)) n := by
  have htake : calls.takeWhile (· ≤ n) =
      calls.takeWhile (· ≤ a) ++ (calls.dropWhile (· ≤ a)).takeWhile (· ≤ n) := by
    conv_lhs => rw [← takeWhile_append_dropWhile (p := fun x => decide (x ≤ a)) (l := calls)]
    refine takeWhile_append_of_pos fun x hx => ?_
    exact decide_eq_true ((le_of_mem_takeWhile hx).trans han)
  unfold stateAt
  rw [htake, foldl_append]

/-- **The suppression of the report is bounded**: of any interval of an Up episode no more than a
tenth, the budget and two windows go unreported. -/
theorem suppression_bounded {t₀ : Int} (hcalls : (t₀ :: calls).Pairwise (· ≤ ·)) (hstart : t₀ ≤ a)
    (hab : a ≤ b) :
    (((Finset.Ico a b).filter fun now => now - ((resetSyncWindow t₀).stateAt calls now).syncSince <
        zeroAgeSeconds * second).card : Int) ≤
      (b - a) / 10 + maxSyncSuppression + 120 * second := by
  rw [pairwise_cons] at hcalls
  generalize hw : (calls.takeWhile (· ≤ a)).foldl openSyncWindow (resetSyncWindow t₀) = w
  have hsound : w.Sound a := by
    rw [← hw]
    refine sound_foldl (sound_resetSyncWindow t₀) (fun x hx => ⟨?_, ?_⟩) hstart
      (hcalls.2.sublist (takeWhile_sublist _))
    · exact hcalls.1 x ((takeWhile_sublist _).subset hx)
    · exact le_of_mem_takeWhile hx
  have hsame :
      ((Finset.Ico a b).filter fun now => now - ((resetSyncWindow t₀).stateAt calls now).syncSince <
      zeroAgeSeconds * second) = w.suppressedIn (calls.dropWhile (· ≤ a)) a b := by
    refine Finset.filter_congr fun n hn => ?_
    rw [stateAt_of_le (Finset.mem_Ico.mp hn).1, hw]
    rfl
  have hafter : ∀ x ∈ calls.dropWhile (· ≤ a), a ≤ x := by
    intro x hx
    cases hd : calls.dropWhile (· ≤ a) with
    | nil =>
      rw [hd] at hx
      cases hx
    | cons y ys =>
      have hy : a < y := by
        have hhead := head?_dropWhile_not (fun x => decide (x ≤ a)) calls
        rw [hd] at hhead
        simpa using hhead
      have hys := (hcalls.2.sublist (dropWhile_sublist (fun x => decide (x ≤ a))))
      rw [hd] at hx hys
      rcases mem_cons.mp hx with rfl | hx
      · exact hy.le
      · exact hy.le.trans ((pairwise_cons.mp hys).1 x hx)
  rw [hsame]
  have hbound := (suppressed_le hsound hab hafter
    (hcalls.2.sublist (dropWhile_sublist (fun x => decide (x ≤ a))))).2
  have htwo : 2 * (zeroAgeSeconds * second) = 120 * second := by decide
  omega

/-- Two reopenings a minute apart in the first hour. -/
theorem suppression_bounded_hour :
    (((Finset.Ico 0 (3600 * second)).filter fun now =>
      now - ((resetSyncWindow 0).stateAt [60 * second, 120 * second] now).syncSince <
        zeroAgeSeconds * second).card : Int) ≤
      (3600 * second - 0) / 10 + maxSyncSuppression + 120 * second :=
  suppression_bounded (by decide) le_rfl (by decide)

end SyncWindow

end Goisis.Server
