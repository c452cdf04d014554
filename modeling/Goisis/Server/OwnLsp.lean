import Mathlib.Data.Finset.Dedup
import Mathlib.Data.Finset.Order
import Mathlib.Data.List.Induction
import Goisis.Server.Run

/-!
# The LSPs under our own system ID

Whole-run properties of the entries this node answers for: sequence numbers of its own LSPs, the
hold-down after an exhausted sequence number space, and the integrity of what is advertised in its
name. All of them follow from `exec_change` and `exec_hold`; nothing received is restricted.

* `own_sequence_numbers` — own LSPs start at 1, are only ever replaced by newer copies, and none is
  live while its ID is held down;
* `no_stranger_lives` — an entry under our system ID is a purge or our own; the content of a live
  one was computed by an `originate` of this run, and no received PDU changes it.
-/

namespace Goisis.Server

open Lib Packet IsisServer

variable {level : Level} {id : LSPID} {c : Clocked} {e : LspEntry} {op : Op} {s : IsisServer}
  {now : Int} {lsp : LSP} {raw : Bytes}

variable {o : Options}

/-! ## Replacing an own entry -/

/-- `e'` supersedes `e` in the order (sequence number, purge above live): it has a higher sequence
number, or the same one and is a purge. -/
def LspEntry.Supersedes (e' e : LspEntry) : Prop :=
  e.lsp.sequenceNumber < e'.lsp.sequenceNumber ∨
    (e'.lsp.sequenceNumber = e.lsp.sequenceNumber ∧ e'.purgedAt.isSome = true)

section Replace

variable {e' : LspEntry}

/-- The sequence number of an LSP this node serialized is the one it asked for. -/
theorem sequenceNumber_serialized {p : LSP} (h : s.serializeLSP p = .ok (raw, lsp)) :
    lsp.sequenceNumber = p.sequenceNumber := by
  obtain ⟨-, -, heq, -⟩ := serializeLSP_fields h
  rw [heq]

/-- Whatever this node puts in the place of an own entry supersedes it. -/
theorem SignedEntry.supersedes (h : SignedEntry op s now level id e')
    (he : s.entryAt level id = some e) (hown : e.own = true) : e'.Supersedes e := by
  cases h with
  | originated seq _ _ _ _ _ _ _ _ _ _ _ hseq hser =>
    left
    have hnext := sequenceNumber_serialized hser
    rcases hseq with ⟨hnone, -⟩ | ⟨ex, hex, hmax, rfl⟩
    · rw [he] at hnone
      cases hnone
    rw [he] at hex
    cases hex
    rw [ownLive, hnext]
    exact lt_succ_of_ne_max hmax
  | reclaimed ex seen _ _ _ hex _ _ hseen hmax hser =>
    left
    have hnext := sequenceNumber_serialized hser
    rw [he] at hex
    cases hex
    rw [ownLive, hnext]
    exact UInt32.lt_of_le_of_lt hseen (lt_succ_of_ne_max hmax)
  | purged ex _ _ hex _ hmax hser =>
    left
    have hnext := sequenceNumber_serialized hser
    rw [he] at hex
    cases hex
    rw [ownPurge, hnext]
    exact lt_succ_of_ne_max hmax
  | exhausted _ _ _ _ _ hser =>
    have hnext : _ = maxLSPSeq := sequenceNumber_serialized hser
    rcases lt_maxLSPSeq_or_eq e.lsp.sequenceNumber with hlt | heq
    · left
      rw [ownPurge, hnext]
      exact hlt
    · right
      exact ⟨by rw [ownPurge, hnext, heq], rfl⟩
  | expired ex _ _ hex hforeign _ =>
    rw [he] at hex
    cases hex
    rw [hown] at hforeign
    cases hforeign
  | stranger seen _ _ _ hrem hnewer hser =>
    left
    have hnext := sequenceNumber_serialized hser
    rw [he] at hnewer
    rcases newer_some_iff.mp hnewer with hlt | ⟨-, hzero, -⟩
    · rw [hnext]
      exact hlt
    · exact absurd hzero hrem

/-- A received copy that is installed supersedes the stored one. -/
theorem receivedEntry_supersedes
    (hnewer : newer lsp.sequenceNumber lsp.remainingTime (some e) now = true) :
    (receivedEntry raw lsp now).Supersedes e := by
  rcases newer_some_iff.mp hnewer with hlt | ⟨heq, hzero, -⟩
  · exact .inl hlt
  · exact .inr ⟨heq, by simp [receivedEntry, hzero]⟩

/-- One operation replaces an own entry by nothing but a superseding copy. -/
theorem exec_supersedes (op : Op) (he : s.entryAt level id = some e) (hown : e.own = true)
    (he' : (op.exec now s).entryAt level id = some e') (hne : e' ≠ e) : e'.Supersedes e := by
  rcases exec_change op s now level id with heq | hchange
  · rw [he', he] at heq
    exact absurd (Option.some.inj heq) hne
  rw [he'] at hchange
  cases hchange with
  | signed _ _ h => exact h.supersedes he hown
  | received raw lsp _ _ _ _ hnewer _ =>
    rw [he] at hnewer
    exact receivedEntry_supersedes hnewer

end Replace

/-! ## Invariants -/

/-- What every reachable state keeps about purges, own sequence numbers and hold-downs. -/
structure OwnInvariant (c : Clocked) : Prop where
  /-- A purge has no lifetime left from its insertion on. -/
  purged : ∀ level id e, c.2.entryAt level id = some e → e.purgedAt.isSome = true →
    e.lifetime = 0 ∧ e.inserted ≤ c.1
  positive : ∀ level id e, c.2.entryAt level id = some e → e.own = true → 1 ≤ e.lsp.sequenceNumber
  /-- A deadline lies at most one hold-down ahead. -/
  deadline : ∀ level id u, c.2.seqWrapUntil.lookup (level, id) = some u → u ≤ c.1 + seqWrapHold
  /-- Nothing of ours is live under an ID that is held down. -/
  held : ∀ level id u, c.2.seqWrapUntil.lookup (level, id) = some u → c.1 < u →
    ∀ e, c.2.entryAt level id = some e → e.own = true → e.purgedAt.isSome = true

section Invariants

variable {t : Int}

/-- An entry this node makes is either a purge or a live LSP of its own. -/
theorem SignedEntry.purge_or_own (h : SignedEntry op s now level id e) :
    (e.purgedAt = some now ∧ e.lifetime = 0 ∧ e.inserted = now) ∨
      (e.purgedAt = none ∧ e.own = true) := by
  cases h with
  | originated | reclaimed => exact .inr ⟨rfl, rfl⟩
  | purged | exhausted | expired | stranger => exact .inl ⟨rfl, rfl, rfl⟩

theorem SignedEntry.positive (h : SignedEntry op s now level id e) (hown : e.own = true) :
    1 ≤ e.lsp.sequenceNumber := by
  cases h with
  | originated _ _ _ _ _ _ _ _ _ _ _ _ hseq hser =>
    rw [ownLive, sequenceNumber_serialized hser]
    rcases hseq with ⟨-, rfl⟩ | ⟨ex, -, hmax, rfl⟩
    · exact UInt32.le_refl 1
    · exact one_le_succ_of_ne_max hmax
  | reclaimed _ _ _ _ _ _ _ _ _ hmax hser =>
    rw [ownLive, sequenceNumber_serialized hser]
    exact one_le_succ_of_ne_max hmax
  | purged _ _ _ _ _ hmax hser =>
    rw [ownPurge, sequenceNumber_serialized hser]
    exact one_le_succ_of_ne_max hmax
  | exhausted _ _ _ _ _ hser =>
    have hnext : _ = maxLSPSeq := sequenceNumber_serialized hser
    rw [ownPurge, hnext]
    decide
  | expired ex _ _ _ hforeign _ =>
    have hown' : ex.own = true := hown
    rw [hforeign] at hown'
    cases hown'
  | stranger => cases hown

/-- A purge reads as expired, so neither re-origination path takes it for a live LSP of ours. -/
theorem OwnInvariant.live_of_reclaimed (h : OwnInvariant (t, s)) (hle : t ≤ now)
    (he : s.entryAt level id = some e) (hlive : e.purgedAt = none ∨ e.remaining now ≠ 0) :
    e.purgedAt = none := by
  rcases hlive with hnone | hrem
  · exact hnone
  by_contra hp
  obtain ⟨hlife, hins⟩ := h.purged level id e he (Option.isSome_iff_ne_none.mpr hp)
  exact hrem (LspEntry.remaining_eq_zero (Int.le_trans hins hle) hlife)

theorem OwnInvariant.exec_purged (h : OwnInvariant (t, s)) (hle : t ≤ now)
    (he : (op.exec now s).entryAt level id = some e) (hp : e.purgedAt.isSome = true) :
    e.lifetime = 0 ∧ e.inserted ≤ now := by
  rcases exec_change op s now level id with heq | hchange
  · rw [heq] at he
    obtain ⟨hlife, hins⟩ := h.purged level id e he hp
    exact ⟨hlife, Int.le_trans hins hle⟩
  · rw [he] at hchange
    cases hchange with
    | signed _ _ hsigned =>
      rcases hsigned.purge_or_own with ⟨-, hlife, hins⟩ | ⟨hnone, -⟩
      · exact ⟨hlife, Int.le_of_eq hins⟩
      · rw [hnone] at hp
        cases hp
    | received raw lsp _ _ _ _ _ _ =>
      have hrem : lsp.remainingTime = 0 := by
        by_contra hne
        simp [receivedEntry, hne] at hp
      exact ⟨by simp [receivedEntry, receivedLifetime, hrem], Int.le_refl now⟩

theorem OwnInvariant.exec_positive (h : OwnInvariant (t, s))
    (he : (op.exec now s).entryAt level id = some e) (hown : e.own = true) :
    1 ≤ e.lsp.sequenceNumber := by
  rcases exec_change op s now level id with heq | hchange
  · rw [heq] at he
    exact h.positive level id e he hown
  rw [he] at hchange
  cases hchange with
  | signed _ _ hsigned => exact hsigned.positive hown
  | received => cases hown

/-- While an ID is held down, no operation makes a live LSP of ours under it. -/
theorem OwnInvariant.exec_held {u : Int} (h : OwnInvariant (t, s)) (hle : t ≤ now)
    (hold : s.seqWrapUntil.lookup (level, id) = some u) (hu : now < u)
    (he : (op.exec now s).entryAt level id = some e) (hown : e.own = true) :
    e.purgedAt.isSome = true := by
  have hbefore := h.held level id u hold (Int.lt_of_le_of_lt hle hu)
  rcases exec_change op s now level id with heq | hchange
  · rw [heq] at he
    exact hbefore e he hown
  rw [he] at hchange
  cases hchange with
  | signed _ _ hsigned =>
    cases hsigned with
    | originated _ _ _ _ _ _ _ _ _ _ _ hheld _ _ =>
      simp [heldDown, hold, hu] at hheld
    | reclaimed ex _ _ _ _ hex hexOwn hlive _ _ _ =>
      have hnone := h.live_of_reclaimed hle hex hlive
      have hsome := hbefore ex hex hexOwn
      rw [hnone] at hsome
      cases hsome
    | purged | exhausted | expired | stranger => rfl
  | received => cases hown

/-- **One operation keeps the invariant**. -/
theorem OwnInvariant.exec (h : OwnInvariant (t, s)) (hle : t ≤ now) :
    OwnInvariant (now, op.exec now s) := by
  refine ⟨fun level id e he hp => h.exec_purged hle he hp,
    fun level id e he hown => h.exec_positive he hown, ?_, ?_⟩
  · intro level id u hu
    rcases exec_hold op s now level id with heq | ⟨-, -, -, hnone⟩ | ⟨hset, -⟩
    · have := h.deadline level id u (by rw [← heq]; exact hu)
      show u ≤ now + seqWrapHold
      omega
    · rw [hnone] at hu
      cases hu
    · rw [hset] at hu
      cases hu
      exact Int.le_refl _
  · intro level id u hu hlt e he hown
    rcases exec_hold op s now level id with heq | ⟨-, -, -, hnone⟩ | ⟨-, hpurge⟩
    · exact h.exec_held hle (by rw [← heq]; exact hu) hlt he hown
    · rw [hnone] at hu
      cases hu
    · rw [hpurge e he]
      rfl

end Invariants

/-- The invariant holds in every reachable state. -/
theorem ownInvariant (h : Reachable o c) : OwnInvariant c := by
  refine h.invariant (fun t s hs => ?_) fun a b ha hab => ?_
  · have hnone := entryAt_newIsisServer hs
    have hhold := (newIsisServer_frame hs).2
    constructor
    · intro level id e he
      rw [hnone] at he
      cases he
    · intro level id e he
      rw [hnone] at he
      cases he
    · intro level id u hu
      rw [hhold] at hu
      cases hu
    · intro level id u hu
      rw [hhold] at hu
      cases hu
  · obtain ⟨op, hle, -, heq⟩ := hab
    have hb : b = (b.1, op.exec b.1 a.2) := by rw [← heq]
    rw [hb]
    exact ha.exec hle

/-! ## Own sequence numbers -/

/-- A hold-down stays set until its deadline: it can only be moved forward. -/
theorem hold_persists {d : Clocked} (h : Reachable o c) (hsteps : Steps AnyOp c d) {u : Int}
    (hu : c.2.seqWrapUntil.lookup (level, id) = some u) (hd : d.1 < u) :
    ∃ u', u ≤ u' ∧ d.2.seqWrapUntil.lookup (level, id) = some u' := by
  induction hsteps with
  | refl => exact ⟨u, Int.le_refl u, hu⟩
  | @tail x y hx hxy ih =>
    obtain ⟨op, hle, -, heq⟩ := hxy
    obtain ⟨u', huu', hlook⟩ := ih (Int.lt_of_le_of_lt hle hd)
    have hdead := (ownInvariant (h.trans hx)).deadline level id u' hlook
    rw [heq]
    rcases exec_hold op x.2 y.1 level id with hsame | ⟨v, hv, hexp, -⟩ | ⟨hset, -⟩
    · exact ⟨u', huu', by rw [hsame, hlook]⟩
    · rw [hlook] at hv
      cases hv
      omega
    · exact ⟨_, by omega, hset⟩

/-- **Own sequence numbers over every run**: (a) an own LSP has sequence number at least 1; (b) a
step that replaces an own entry supersedes it, with a strictly larger sequence number unless the new
copy is a purge; (c) from the moment an ID is held down until its deadline, no live LSP of ours
stands under it. -/
theorem own_sequence_numbers {o : Options} {c : Clocked} (h : Reachable o c) :
    (∀ level id e, c.2.entryAt level id = some e → e.own = true → 1 ≤ e.lsp.sequenceNumber) ∧
      (∀ d, Step AnyOp c d → ∀ level id e e', c.2.entryAt level id = some e → e.own = true →
        d.2.entryAt level id = some e' → e' ≠ e → e'.Supersedes e) ∧
      ∀ level id u, c.2.seqWrapUntil.lookup (level, id) = some u → ∀ d, Steps AnyOp c d → d.1 < u →
        ∀ e, d.2.entryAt level id = some e → e.own = true → e.purgedAt.isSome = true := by
  refine ⟨(ownInvariant h).positive, ?_, ?_⟩
  · intro d hstep level id e e' he hown he' hne
    obtain ⟨op, -, -, heq⟩ := hstep
    rw [heq] at he'
    exact exec_supersedes op he hown he' hne
  · intro level id u hu d hsteps hd e he hown
    obtain ⟨u', huu', hlook⟩ := hold_persists h hsteps hu hd
    have hlt : d.1 < u' := Int.lt_of_lt_of_le hd huu'
    exact (ownInvariant (h.trans hsteps)).held level id u' hlook hlt e he hown

/-- A first origination stores sequence number 1. -/
theorem own_sequence_numbers_first :
    Reachable (oneCircuit []) (0, firstLSP.exec 0 (fresh [])) ∧
      1 ≤ plainEntry.lsp.sequenceNumber := by
  have h : Reachable (oneCircuit []) (0, firstLSP.exec 0 (fresh [])) :=
    ReachableVia.first (newIsisServer_oneCircuit []) 0 firstLSP trivial
  exact ⟨h, (own_sequence_numbers h).1 .level1 firstID plainEntry entryAt_plain rfl⟩

/-! ## What is said in our name -/

/-- Where a run of timed operations ends. -/
def ranOps (s : IsisServer) (ops : List (Int × Op)) : IsisServer :=
  ops.foldl (fun s x => x.2.exec x.1 s) s

/-- The operation is an `originate` that computed everything of `lsp` but its sequence number and
checksum: TLVs, overload and attached bits included. -/
def OriginatedBy (op : Op) (s : IsisServer) (now : Int) (level : Level) (id : LSPID) (lsp : LSP) :
    Prop :=
  ∃ pn fragment tlvs att force jitter, op = .originate level pn fragment tlvs att force jitter ∧
    id = ⟨⟨s.systemID, pn⟩, fragment⟩ ∧
    lsp = { s.ownLSP level id lsp.sequenceNumber tlvs att now with checksum := lsp.checksum }

/-- An operation of this very run did so. -/
def OriginatedIn (s : IsisServer) (ops : List (Int × Op)) (level : Level) (id : LSPID) (lsp : LSP) :
    Prop :=
  ∃ pre x post, ops = pre ++ x :: post ∧ OriginatedBy x.2 (ranOps s pre) x.1 level id lsp

/-- `lsp'` is `lsp` signed again: the same content under another sequence number. -/
def Resigned (lsp' lsp : LSP) : Prop :=
  lsp' = { lsp with
    sequenceNumber := lsp'.sequenceNumber, remainingTime := maxAgeSeconds
    checksum := lsp'.checksum }

section Origins

variable {t : Int} {ops : List (Int × Op)}

theorem ranOps_concat (x : Int × Op) : ranOps s (ops ++ [x]) = x.2.exec x.1 (ranOps s ops) := by
  simp [ranOps]

/-- **Where a live LSP of ours comes from**: an operation leaves the stored one, signs it again, or
is the `originate` that computed its content. -/
theorem OwnInvariant.exec_live (h : OwnInvariant (t, s)) (hle : t ≤ now)
    (he : (op.exec now s).entryAt level id = some e) (hown : e.own = true)
    (hlive : e.purgedAt = none) :
    (∃ e₀, s.entryAt level id = some e₀ ∧ e₀.own = true ∧ e₀.purgedAt = none ∧
        (e = e₀ ∨ Resigned e.lsp e₀.lsp)) ∨ OriginatedBy op s now level id e.lsp := by
  rcases exec_change op s now level id with hsame | hchange
  · rw [hsame] at he
    exact .inl ⟨e, he, hown, hlive, .inl rfl⟩
  rw [he] at hchange
  cases hchange with
  | signed _ _ hsigned =>
    cases hsigned with
    | originated seq pn fragment tlvs att force jitter raw lsp hop hid _ _ hser =>
      obtain ⟨-, -, hfields, -⟩ := serializeLSP_fields hser
      refine .inr ⟨pn, fragment, tlvs, att, force, jitter, hop, hid, ?_⟩
      rw [ownLive, sequenceNumber_serialized hser]
      exact hfields
    | reclaimed ex seen jitter raw lsp hex hexOwn hexLive _ _ hser =>
      obtain ⟨-, -, hfields, -⟩ := serializeLSP_fields hser
      refine .inl ⟨ex, hex, hexOwn, h.live_of_reclaimed hle hex hexLive, .inr ?_⟩
      rw [ownLive, Resigned, sequenceNumber_serialized hser]
      exact hfields
    | purged | exhausted | expired | stranger => cases hlive
  | received => cases hown

/-- The states along a run are reachable. -/
theorem reachable_ranOps (hs : newIsisServer o = some s) (htime : ops.Pairwise (·.1 ≤ ·.1))
    (hnow : ∀ x ∈ ops, x.1 ≤ now) : ∃ t ≤ now, Reachable o (t, ranOps s ops) := by
  induction ops using List.reverseRecOn generalizing now with
  | nil => exact ⟨now, Int.le_refl now, now, s, hs, .refl⟩
  | append_singleton ops x ih =>
    obtain ⟨hops, -, hlast⟩ := List.pairwise_append.mp htime
    obtain ⟨t, ht, hreach⟩ := ih hops fun y hy => hlast y hy x List.mem_cons_self
    refine ⟨x.1, hnow x (by simp), hreach.trans (.single ⟨x.2, ht, trivial, ?_⟩)⟩
    exact ranOps_concat x

theorem systemID_ranOps : (ranOps s ops).systemID = s.systemID := by
  induction ops using List.reverseRecOn with
  | nil => rfl
  | append_singleton ops x ih => rw [ranOps_concat, (exec_config _ _ _).1, ih]

theorem OriginatedIn.concat (h : OriginatedIn s ops level id lsp) (x : Int × Op) :
    OriginatedIn s (ops ++ [x]) level id lsp := by
  obtain ⟨pre, y, post, rfl, hby⟩ := h
  exact ⟨pre, y, post ++ [x], by simp, hby⟩

/-- Signing again keeps the origin of the content. -/
theorem OriginatedIn.resigned {lsp' : LSP} (h : OriginatedIn s ops level id lsp)
    (hagain : Resigned lsp' lsp) : OriginatedIn s ops level id lsp' := by
  obtain ⟨pre, x, post, hops, pn, fragment, tlvs, att, force, jitter, hop, hid, hlsp⟩ := h
  refine ⟨pre, x, post, hops, pn, fragment, tlvs, att, force, jitter, hop, hid, ?_⟩
  rw [hagain, hlsp]
  rfl

/-- The content of every live LSP of ours was computed by an origination of the same run. -/
theorem own_live_originated (hs : newIsisServer o = some s) (htime : ops.Pairwise (·.1 ≤ ·.1))
    (he : (ranOps s ops).entryAt level id = some e) (hown : e.own = true)
    (hlive : e.purgedAt = none) : OriginatedIn s ops level id e.lsp := by
  induction ops using List.reverseRecOn generalizing e with
  | nil =>
    have hnone := entryAt_newIsisServer hs level id
    rw [show (ranOps s []).entryAt level id = none from hnone] at he
    cases he
  | append_singleton ops x ih =>
    obtain ⟨hops, -, hlast⟩ := List.pairwise_append.mp htime
    obtain ⟨t, ht, hreach⟩ :=
      reachable_ranOps hs hops fun y hy => hlast y hy x List.mem_cons_self
    rw [ranOps_concat] at he
    rcases (ownInvariant hreach).exec_live ht he hown hlive with
      ⟨e₀, he₀, hown₀, hlive₀, rfl | hagain⟩ | hby
    · exact (ih hops he₀ hown₀ hlive₀).concat x
    · exact ((ih hops he₀ hown₀ hlive₀).concat x).resigned hagain
    · exact ⟨ops, x, [], rfl, hby⟩

end Origins

/-- An entry under our system ID is a purge or our own: a received copy is let in under it only as a
purge. -/
theorem purge_or_own (h : Reachable o c) (he : c.2.entryAt level id = some e)
    (hsys : id.nodeID.systemID = c.2.systemID) : e.purgedAt.isSome = true ∨ e.own = true := by
  refine h.invariant (I := fun c => ∀ e, c.2.entryAt level id = some e →
    id.nodeID.systemID = c.2.systemID → e.purgedAt.isSome = true ∨ e.own = true)
    (fun t s hs e he _ => ?_) (fun a b ha hab e he hsys => ?_) e he hsys
  · rw [entryAt_newIsisServer hs] at he
    cases he
  · obtain ⟨op, -, -, heq⟩ := hab
    rw [heq] at he hsys
    rw [(exec_config op a.2 b.1).1] at hsys
    rcases exec_change op a.2 b.1 level id with hsame | hchange
    · rw [hsame] at he
      exact ha e he hsys
    rw [he] at hchange
    cases hchange with
    | signed _ _ hsigned =>
      rcases hsigned.purge_or_own with ⟨hp, -, -⟩ | ⟨-, hown⟩
      · exact .inl (by rw [hp]; rfl)
      · exact .inr hown
    | received raw lsp _ _ _ _ _ hzero =>
      exact .inl (by simp [receivedEntry, hzero hsys])

/-- **No stranger's claim about us stays alive**: after every run an entry whose ID carries our
system ID is a purge or our own, and if it is our own and live, an `originate` of this very run
computed its content, whatever sequence number it has come to since. A received PDU makes no entry
live and ours, and changes one that is only by signing the stored content again. -/
theorem no_stranger_lives {o : Options} {s : IsisServer} {ops : List (Int × Op)}
    (hs : newIsisServer o = some s) (htime : ops.Pairwise (·.1 ≤ ·.1)) :
    (∀ level id e, (ranOps s ops).entryAt level id = some e → id.nodeID.systemID = s.systemID →
      (e.purgedAt.isSome = true ∨ e.own = true) ∧
        (e.own = true → e.purgedAt = none → OriginatedIn s ops level id e.lsp)) ∧
    ∀ pre now cn raw jitter post, ops = pre ++ (now, .receive cn raw jitter) :: post →
      ∀ level id e, (ranOps s (pre ++ [(now, .receive cn raw jitter)])).entryAt level id = some e →
        e.own = true → e.purgedAt = none →
        ∃ e₀, (ranOps s pre).entryAt level id = some e₀ ∧ e₀.own = true ∧ e₀.purgedAt = none ∧
          (e = e₀ ∨ Resigned e.lsp e₀.lsp) := by
  constructor
  · intro level id e he hsys
    obtain ⟨now, hnow⟩ := (ops.map Prod.fst).toFinset.exists_le
    obtain ⟨t, -, hreach⟩ := reachable_ranOps hs htime fun x hx =>
      hnow x.1 (List.mem_toFinset.mpr (List.mem_map_of_mem hx))
    exact ⟨purge_or_own hreach he (hsys.trans systemID_ranOps.symm),
      own_live_originated hs htime he⟩
  · rintro pre now cn raw jitter post rfl level id e he hown hlive
    obtain ⟨hpre, -, hlast⟩ := List.pairwise_append.mp htime
    obtain ⟨t, ht, hreach⟩ := reachable_ranOps hs hpre fun y hy => hlast y hy _ List.mem_cons_self
    rw [ranOps_concat] at he
    rcases (ownInvariant hreach).exec_live ht he hown hlive with hkept | ⟨_, _, _, _, _, _, hop, -⟩
    · exact hkept
    · cases hop

/-- A stranger's LSP under our ID: sequence number 7, overloaded, with an area address. -/
def strangerFrame : Bytes :=
  [131, 27, 1, 0, 18, 1, 0, 0, 0, 31, 4, 176, 0, 0, 0, 0, 0, 1, 0, 0, 0, 0, 0, 7, 105, 60, 5, 1,
    2, 1, 73]

/-- Our first LSP, and then the stranger's. -/
def strangerRun : List (Int × Op) := [(0, firstLSP), (5, .receive "eth0" strangerFrame 0)]

/-- After the stranger's LSP ours stands above it, with the content of our first origination. -/
theorem no_stranger_lives_reclaimed :
    ∃ e, (ranOps (fresh []) strangerRun).entryAt .level1 firstID = some e ∧
      e.lsp.sequenceNumber = 8 ∧ OriginatedIn (fresh []) strangerRun .level1 firstID e.lsp ∧
      Resigned e.lsp plainEntry.lsp := by
  obtain ⟨horigin, hreceive⟩ :=
    @no_stranger_lives _ _ strangerRun (newIsisServer_oneCircuit []) (by decide)
  have hafter : ((ranOps (fresh []) strangerRun).entryAt .level1 firstID).map
      (fun e => (e.own, e.purgedAt, e.lsp.sequenceNumber)) = some (true, none, 8) := by decide
  obtain ⟨e, he, hfields⟩ := Option.map_eq_some_iff.mp hafter
  obtain ⟨hown, hrest⟩ := Prod.mk.inj hfields
  obtain ⟨hlive, hseq⟩ := Prod.mk.inj hrest
  obtain ⟨e₀, he₀, -, -, hkept⟩ :=
    hreceive [(0, firstLSP)] 5 "eth0" strangerFrame 0 [] rfl .level1 firstID e he hown hlive
  have hplain : plainEntry = e₀ := Option.some.inj (entryAt_plain.symm.trans he₀)
  subst hplain
  refine ⟨e, he, hseq, (horigin _ _ e he rfl).2 hown hlive, hkept.resolve_left ?_⟩
  rintro rfl
  cases hseq

end Goisis.Server
