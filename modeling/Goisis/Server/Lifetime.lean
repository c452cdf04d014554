import Goisis.Server.Loop

/-!
# Remaining lifetimes and early ticks

`remaining` subtracts the seconds since insertion from the stored lifetime, in signed arithmetic,
and narrows the difference to 16 bits. From insertion on the difference is in range. A housekeeping
tick carries the instant at which the ticker fired, though, and an LSP that arrives while the tick
waits is inserted after it: the difference then exceeds the stored lifetime, and past `2 ^ 16` it
wraps.

* `agesDown_iff` — from an instant on the remaining lifetime never grows and never exceeds the
  stored one, exactly if that instant is less than a second before the insertion;
* `entryAt_ageLSPs_foreign` — what a pass over the database does to a foreign live LSP;
* `lifetime_kept_iff` — both guarantees of an entry, and when they hold;
* `early_tick_purges` — an LSP received with the longest lifetime, purged by a tick of one second
  earlier.
-/

namespace Goisis.Server

open Lib Packet IsisServer List LspEntry

variable {e : LspEntry} {now t₀ : Int} {ids : List LSPID}

/-! ## Before and after insertion -/

/-- Less than a second before insertion no second has elapsed yet. -/
theorem LspEntry.remaining_of_second_before (h : e.inserted - second < now)
    (hle : now ≤ e.inserted) : e.remaining now = e.lifetime := by
  have hzero : (now - e.inserted).tdiv second = 0 := by
    have hneg : (e.inserted - now).tdiv second = 0 :=
      Int.tdiv_eq_zero_of_lt (by omega) (by omega)
    rw [← Int.neg_sub, Int.neg_tdiv, hneg, Int.neg_zero]
  simp only [remaining, hzero, Int.sub_zero, Int.toNat_natCast]
  rw [if_neg (by omega), UInt16.ofNat_toNat]

/-- A number of seconds before insertion, the lifetime is that much longer, as far as 16 bits go. -/
theorem LspEntry.remaining_seconds_before (e : LspEntry) (k : ℕ) :
    e.remaining (e.inserted - k * second) = UInt16.ofNat (e.lifetime.toNat + k) := by
  have hsub : e.inserted - k * second - e.inserted = -(k : Int) * second := by
    rw [Int.neg_mul]
    omega
  have hdiv : (-(k : Int) * second).tdiv second = -k := Int.mul_tdiv_cancel _ (by decide)
  simp only [remaining, hsub, hdiv, Int.sub_neg]
  congr 1

/-- Before insertion, the whole seconds still to go are added. -/
theorem LspEntry.remaining_before (h : now ≤ e.inserted) :
    e.remaining now = UInt16.ofNat (e.lifetime.toNat + ((e.inserted - now) / second).toNat) := by
  have hnn : 0 ≤ (e.inserted - now) / second := Int.ediv_nonneg (by omega) (by decide)
  have hdiv : (now - e.inserted).tdiv second = -((e.inserted - now) / second) := by
    rw [← Int.neg_sub, Int.neg_tdiv, Int.tdiv_eq_ediv_of_nonneg (by omega)]
  simp only [remaining, hdiv, Int.sub_neg]
  rw [if_neg (by omega)]
  congr 1
  omega

/-- The remaining lifetime at instants that are not a second early, in closed form. -/
theorem LspEntry.remaining_recent (h : e.inserted - second < now) :
    ((e.remaining now).toNat : Int) =
      max 0 (e.lifetime.toNat - max 0 (now - e.inserted) / second) := by
  rcases Int.le_total e.inserted now with hle | hle
  · rw [remaining_toNat hle, max_eq_right (show 0 ≤ now - e.inserted by omega)]
  · rw [remaining_of_second_before h hle, max_eq_left (show now - e.inserted ≤ 0 by omega),
      Int.zero_ediv, Int.sub_zero, max_eq_right (by omega)]

/-- From `t₀` on the remaining lifetime never grows, and never exceeds the stored one. -/
def LspEntry.AgesDown (e : LspEntry) (t₀ : Int) : Prop :=
  ∀ t₁ t₂, t₀ ≤ t₁ → t₁ ≤ t₂ → e.remaining t₂ ≤ e.remaining t₁ ∧ e.remaining t₁ ≤ e.lifetime

/-- **When the arithmetic of lifetimes is sound**: from every instant less than a second before the
insertion, and from no earlier one. -/
theorem agesDown_iff : e.AgesDown t₀ ↔ e.inserted - second < t₀ := by
  constructor
  · intro h
    by_contra hearly
    -- one second before insertion the lifetime is one longer, unless that wraps to zero
    have hone := remaining_seconds_before e 1
    have hzero := remaining_seconds_before e 0
    obtain ⟨hdown, hle⟩ := h (e.inserted - (1 : ℕ) * second) (e.inserted - (0 : ℕ) * second)
      (by push_cast; omega) (by simp only [second]; omega)
    have hlt := e.lifetime.toNat_lt
    rw [hone, UInt16.le_iff_toNat_le, UInt16.toNat_ofNat'] at hle
    rw [hone, hzero, UInt16.le_iff_toNat_le, UInt16.toNat_ofNat', UInt16.toNat_ofNat'] at hdown
    omega
  · intro h t₁ t₂ h₁ h₂
    have hr₁ := remaining_recent (show e.inserted - second < t₁ by omega)
    have hr₂ := remaining_recent (show e.inserted - second < t₂ by omega)
    have hmono : max 0 (t₁ - e.inserted) / second ≤ max 0 (t₂ - e.inserted) / second :=
      Int.ediv_le_ediv (by decide) (max_le_max_left 0 (by omega))
    have hnn : 0 ≤ max 0 (t₁ - e.inserted) / second := Int.ediv_nonneg (le_max_left _ _) (by decide)
    rw [UInt16.le_iff_toNat_le, UInt16.le_iff_toNat_le]
    constructor <;> omega

/-! ## One pass over the database -/

section Pass

variable {s : IsisServer} {level l : Level} {id i : LSPID}

theorem entryAt_ageEntry_other (h : (l, i) ≠ (level, id)) :
    (s.ageEntry level id now).entryAt l i = s.entryAt l i := by
  have hne : ¬ (l = level ∧ i = id) := fun hc => h (by rw [hc.1, hc.2])
  unfold ageEntry
  cases hex : s.entryAt level id with
  | none => rfl
  | some e =>
    simp only
    cases e.purgedAt with
    | some t =>
      simp only
      split
      · rw [entryAt_markDirty, entryAt_deleteEntry, if_neg hne]
      · rfl
    | none =>
      simp only
      split
      · rfl
      split
      · split
        · rfl
        · obtain ⟨raw, lsp, hser⟩ := s.makePurge_ok level id e.lsp.sequenceNumber
          simp only [expirePurge, hser]
          rw [entryAt_storeAndFlood, if_neg fun hc => hne ⟨hc.1, hc.2.1⟩]
      · rfl

/-- A foreign live LSP whose lifetime ran out becomes a purge, any other one stays. -/
theorem entryAt_ageEntry_foreign (he : s.entryAt level id = some e) (hown : e.own = false)
    (hlive : e.purgedAt = none) :
    (e.remaining now ≠ 0 ∧ (s.ageEntry level id now).entryAt level id = some e) ∨
      (e.remaining now = 0 ∧
        ∃ e', (s.ageEntry level id now).entryAt level id = some e' ∧ e'.purgedAt = some now) := by
  unfold ageEntry
  simp only [he, hlive, hown, Bool.false_eq_true, false_and, if_false]
  by_cases hrem : e.remaining now = 0
  · obtain ⟨raw, lsp, hser⟩ := s.makePurge_ok level id e.lsp.sequenceNumber
    refine .inr ⟨hrem, ?_⟩
    simp only [if_pos hrem, expirePurge, hser]
    rw [entryAt_storeAndFlood, if_pos ⟨rfl, rfl, dbs_isSome_of_entryAt he⟩]
    exact ⟨_, rfl, rfl⟩
  · exact .inl ⟨hrem, by rw [if_neg hrem, he]⟩

theorem entryAt_foldl_ageEntry_other (h : l = level → i ∉ ids) :
    (ids.foldl (fun s id => s.ageEntry level id now) s).entryAt l i = s.entryAt l i := by
  induction ids generalizing s with
  | nil => rfl
  | cons id ids ih =>
    rw [foldl_cons, ih fun hl hmem => h hl (mem_cons_of_mem id hmem)]
    refine entryAt_ageEntry_other fun heq => ?_
    obtain ⟨hl, rfl⟩ := Prod.mk.inj heq
    exact h hl mem_cons_self

/-- One database: the entry of an ID is aged once. -/
theorem entryAt_foldl_ageEntry (hnodup : ids.Nodup) (hmem : id ∈ ids)
    (he : s.entryAt level id = some e) (hown : e.own = false) (hlive : e.purgedAt = none) :
    (e.remaining now ≠ 0 ∧
        (ids.foldl (fun s id => s.ageEntry level id now) s).entryAt level id = some e) ∨
      (e.remaining now = 0 ∧
        ∃ e', (ids.foldl (fun s id => s.ageEntry level id now) s).entryAt level id = some e' ∧
          e'.purgedAt = some now) := by
  obtain ⟨before, after, rfl⟩ := append_of_mem hmem
  rw [nodup_append] at hnodup
  have hafter : id ∉ after := (nodup_cons.mp hnodup.2.1).1
  have hbefore : id ∉ before := fun hb => hnodup.2.2 id hb id mem_cons_self rfl
  rw [foldl_append, foldl_cons, entryAt_foldl_ageEntry_other fun _ => hafter]
  refine entryAt_ageEntry_foreign ?_ hown hlive
  rw [entryAt_foldl_ageEntry_other fun _ => hbefore, he]

/-- **What `ageLSPs` does to a foreign live LSP**: it becomes a purge exactly if its remaining
lifetime reads zero. -/
theorem entryAt_ageLSPs_foreign (now : Int) (he : s.entryAt level id = some e)
    (hown : e.own = false) (hlive : e.purgedAt = none) :
    (e.remaining now ≠ 0 ∧ (s.ageLSPs now).entryAt level id = some e) ∨ (e.remaining now = 0 ∧
        ∃ e', (s.ageLSPs now).entryAt level id = some e' ∧ e'.purgedAt = some now) := by
  have hkeys : ∀ {s : IsisServer}, s.entryAt level id = some e →
      id ∈ (s.dbs level).elim [] (·.keys) ∧ ((s.dbs level).elim [] (·.keys)).Nodup := by
    intro s hs
    unfold entryAt at hs
    cases hd : s.dbs level with
    | none =>
      rw [hd] at hs
      cases hs
    | some db =>
      rw [hd] at hs
      exact ⟨Map.mem_keys_iff.mpr (by rw [show db.lookup id = some e from hs]; rfl), db.keys_nodup⟩
  cases level with
  | level1 =>
    obtain ⟨hmem, hnodup⟩ := hkeys he
    simp only [ageLSPs, Level.all, foldl_cons, foldl_nil]
    rw [entryAt_foldl_ageEntry_other fun h => by cases h]
    exact entryAt_foldl_ageEntry hnodup hmem he hown hlive
  | level2 =>
    have hfirst : (((s.dbs .level1).elim [] (·.keys)).foldl
        (fun s id => s.ageEntry .level1 id now) s).entryAt .level2 id = some e := by
      rw [entryAt_foldl_ageEntry_other (fun h => by cases h), he]
    obtain ⟨hmem, hnodup⟩ := hkeys hfirst
    exact entryAt_foldl_ageEntry hnodup hmem hfirst hown hlive

end Pass

/-! ## Received LSPs are kept for MaxAge -/

/-- From `t₀` on no pass turns the entry into a purge before it was held for MaxAge. -/
def LspEntry.HeldForMaxAge (e : LspEntry) (t₀ : Int) : Prop :=
  ∀ (s : IsisServer) (level : Level) (id : LSPID) (now : Int), t₀ ≤ now →
    s.entryAt level id = some e →
    (∃ e', (s.ageLSPs now).entryAt level id = some e' ∧ e'.purgedAt ≠ none) →
    maxAgeSeconds.toNat * second ≤ now - e.inserted

section Received

variable {raw : Bytes} {lsp : LSP} {t : Int}

theorem maxAge_le_receivedLifetime {r : UInt16} (h : r ≠ 0) :
    1200 ≤ (receivedLifetime r).toNat := by
  rw [receivedLifetime, if_neg h]
  show 1200 ≤ (if r ≤ maxAgeSeconds then maxAgeSeconds else r).toNat
  split
  · exact Nat.le_refl 1200
  · rename_i hgt
    exact Nat.le_of_lt (Nat.lt_of_not_le hgt)

/-- A received LSP reads as expired once its lifetime elapsed, or so early that the sum wraps. -/
theorem maxAge_le_of_remaining_eq_zero (hrem : lsp.remainingTime ≠ 0)
    (hearly : t - (2 ^ 16 - (receivedLifetime lsp.remainingTime).toNat) * second < now)
    (hzero : (receivedEntry raw lsp t).remaining now = 0) : 1200 * second ≤ now - t := by
  have hlife : 1200 ≤ (receivedLifetime lsp.remainingTime).toNat := maxAge_le_receivedLifetime hrem
  have hlt := (receivedLifetime lsp.remainingTime).toNat_lt
  have hnat := congrArg UInt16.toNat hzero
  rcases Int.le_total t now with hle | hle
  · have hr := remaining_toNat (e := receivedEntry raw lsp t) hle
    rw [hzero] at hr
    simp only [receivedEntry, second, UInt16.toNat_zero] at hr ⊢
    omega
  · rw [remaining_before (e := receivedEntry raw lsp t) hle, UInt16.toNat_ofNat'] at hnat
    simp only [receivedEntry, second, UInt16.toNat_zero] at hnat hearly
    omega

/-- **When received LSPs are kept for MaxAge**: no tick may precede the insertion by so much that
the lifetime and the seconds between them pass `2 ^ 16`. -/
theorem heldForMaxAge_iff (hrem : lsp.remainingTime ≠ 0) :
    (receivedEntry raw lsp t).HeldForMaxAge t₀ ↔
      t - (2 ^ 16 - (receivedLifetime lsp.remainingTime).toNat) * second < t₀ := by
  have hlive : (receivedEntry raw lsp t).purgedAt = none := if_neg hrem
  have hlt := (receivedLifetime lsp.remainingTime).toNat_lt
  constructor
  · intro h
    by_contra hearly
    have hnow : t - (2 ^ 16 - (receivedLifetime lsp.remainingTime).toNat : ℕ) * second =
        t - (2 ^ 16 - (receivedLifetime lsp.remainingTime).toNat) * second := by
      rw [Nat.cast_sub (Nat.le_of_lt hlt)]
      rfl
    have hentry : ((fresh []).putEntry .level1 firstID
        (receivedEntry raw lsp t)).entryAt .level1 firstID = some (receivedEntry raw lsp t) :=
      IsisServer.entryAt_putEntry.trans (if_pos ⟨rfl, rfl, rfl⟩)
    have hzero : (receivedEntry raw lsp t).remaining
        (t - (2 ^ 16 - (receivedLifetime lsp.remainingTime).toNat : ℕ) * second) = 0 := by
      have hsum : (receivedLifetime lsp.remainingTime).toNat +
          (2 ^ 16 - (receivedLifetime lsp.remainingTime).toNat) = 2 ^ 16 := by omega
      refine (remaining_seconds_before (receivedEntry raw lsp t) _).trans ?_
      rw [show (receivedEntry raw lsp t).lifetime = receivedLifetime lsp.remainingTime from
        rfl, hsum]
      rfl
    rcases entryAt_ageLSPs_foreign _ hentry rfl hlive with ⟨hne, -⟩ | ⟨-, e', he', hpurged⟩
    · exact hne hzero
    · have hage :=
        h _ _ _ _ (by omega) hentry ⟨e', he', by rw [hpurged]; exact Option.some_ne_none _⟩
      simp only [receivedEntry, second, maxAgeSeconds] at hage
      omega
  · rintro h s level id now hle hentry ⟨e', he', hpurged⟩
    rcases entryAt_ageLSPs_foreign now hentry rfl hlive with ⟨-, hsame⟩ | ⟨hzero, -⟩
    · rw [hsame] at he'
      exact absurd (Option.some.inj he' ▸ hlive) hpurged
    · exact maxAge_le_of_remaining_eq_zero hrem (Int.lt_of_lt_of_le h hle) hzero

end Received

/-- **Lifetime arithmetic never purges early, unless a tick is late.** For every entry, the
remaining lifetime decreases from the stored one on from `t₀` exactly if `t₀` is less than a second
before the insertion; and a live LSP received at `t` is held for MaxAge by every pass from `t₀` on
exactly if the lifetime it is stored with and the seconds from `t₀` to `t` stay below `2 ^ 16`. -/
theorem lifetime_kept_iff (t₀ : Int) :
    (∀ e : LspEntry, e.AgesDown t₀ ↔ e.inserted - second < t₀) ∧
    ∀ raw lsp t, lsp.remainingTime ≠ 0 → ((IsisServer.receivedEntry raw lsp t).HeldForMaxAge t₀ ↔
      t - (2 ^ 16 - (receivedLifetime lsp.remainingTime).toNat) * second < t₀) :=
  ⟨fun _ => agesDown_iff, fun _ _ _ hrem => heldForMaxAge_iff hrem⟩

/-- The LSP of `plainEntry`, received at two seconds with the longest lifetime there is. -/
def longLived : LspEntry :=
  receivedEntry plainEntry.raw { plainEntry.lsp with remainingTime := 65535 } (2 * second)

/-- The guarantees hold for it from its insertion on. -/
theorem lifetime_kept_longLived :
    longLived.AgesDown (2 * second) ∧ longLived.HeldForMaxAge (2 * second) :=
  ⟨((lifetime_kept_iff (2 * second)).1 longLived).mpr (by decide),
    ((lifetime_kept_iff (2 * second)).2 _ _ _ (by decide)).mpr (by decide)⟩

/-- **A late tick purges a fresh LSP**: the tick fired at one second, the LSP was inserted at
two. -/
theorem early_tick_purges :
    longLived.remaining second = 0 ∧ longLived.remaining (2 * second) = 65535 ∧
      ((((fresh []).putEntry .level1 firstID longLived).ageLSPs second).entryAt .level1 firstID).map
        (·.purgedAt) = some (some second) := by
  decide +kernel

end Goisis.Server
