import Goisis.Server.Snp

/-!
# Reconciling against a sequence numbers PDU

`processCSNP` and `processPSNP` compare a listed copy with the stored one by hand. This module says
what each should do in terms of the one order the update process has (`newer`: sequence number, then
purge above live), and exactly when the code does it.

* `LocalOlder`, `LocalNewer`, `Differs`, `Equivalent` — the four ways two copies compare;
* `CsnpReconciles`, `PsnpReconciles` — what reconciliation in that order does to the flags;
* `snp_reconciles_iff` — the code does it exactly when no purge of ours meets a live listed copy at
  the same sequence number: that one combination is missing from both comparisons.
-/

namespace Goisis.Server

open Lib Packet Circuit IsisServer

variable {e : LSPEntry} {loc : LspEntry} {now : Int} {c₀ c : Circuit} {level : Level} {id : LSPID}
  {k : LspKey} {db : LSDB} {s s' : IsisServer} {cn : String}

/-! ## Comparing a stored copy with a listed one -/

section Compare

variable (loc : LspEntry) (e : LSPEntry) (now : Int)

/-- The stored copy is strictly older than the listed one. -/
def LocalOlder : Prop :=
  loc.lsp.sequenceNumber < e.sequenceNumber ∨
    (loc.lsp.sequenceNumber = e.sequenceNumber ∧ loc.remaining now ≠ 0 ∧ e.remainingTime = 0)

/-- The stored copy is strictly newer than the listed one. -/
def LocalNewer : Prop :=
  e.sequenceNumber < loc.lsp.sequenceNumber ∨
    (loc.lsp.sequenceNumber = e.sequenceNumber ∧ loc.remaining now = 0 ∧ e.remainingTime ≠ 0)

/-- Both are live at the same sequence number, with different content. -/
def Differs : Prop :=
  loc.lsp.sequenceNumber = e.sequenceNumber ∧ loc.remaining now ≠ 0 ∧ e.remainingTime ≠ 0 ∧
    loc.lsp.checksum ≠ e.checksum

/-- What the code sends back: a copy at a higher sequence number, or one in conflict. -/
def SentBack : Prop := e.sequenceNumber < loc.lsp.sequenceNumber ∨ Differs loc e now

/-- Both are purges, or both live with the same content, at the same sequence number. -/
def Equivalent : Prop :=
  loc.lsp.sequenceNumber = e.sequenceNumber ∧ ((loc.remaining now = 0 ∧ e.remainingTime = 0) ∨
      (loc.remaining now ≠ 0 ∧ e.remainingTime ≠ 0 ∧ loc.lsp.checksum = e.checksum))

/-- A purge of ours against a live listed copy at the same sequence number: the part of `LocalNewer`
the sequence number does not show. -/
def PurgeMeetsLive : Prop :=
  loc.lsp.sequenceNumber = e.sequenceNumber ∧ loc.remaining now = 0 ∧ e.remainingTime ≠ 0

instance : Decidable (LocalOlder loc e now) := by unfold LocalOlder; infer_instance

instance : Decidable (Differs loc e now) := by unfold Differs; infer_instance

instance : Decidable (SentBack loc e now) := by unfold SentBack; infer_instance

end Compare

theorem newer_iff_localOlder :
    newer e.sequenceNumber e.remainingTime (some loc) now = true ↔ LocalOlder loc e now := by
  rw [newer_some_iff]
  constructor
  · rintro (hlt | ⟨heq, hrem, hlive⟩)
    · exact .inl hlt
    · exact .inr ⟨heq.symm, hlive, hrem⟩
  · rintro (hlt | ⟨heq, hlive, hrem⟩)
    · exact .inl hlt
    · exact .inr ⟨heq.symm, hrem, hlive⟩

/-- The four comparisons leave nothing out. -/
theorem copies_compare (loc : LspEntry) (e : LSPEntry) (now : Int) :
    LocalOlder loc e now ∨ LocalNewer loc e now ∨ Differs loc e now ∨ Equivalent loc e now := by
  unfold LocalOlder LocalNewer Differs Equivalent
  by_cases heq : loc.lsp.sequenceNumber = e.sequenceNumber
  · by_cases hl : loc.remaining now = 0 <;> by_cases hr : e.remainingTime = 0 <;>
      by_cases hs : loc.lsp.checksum = e.checksum <;> simp [heq, hl, hr, hs]
  rcases UInt32.lt_or_lt_of_ne heq with hlt | hlt
  · exact .inl (.inl hlt)
  · exact .inr (.inl (.inl hlt))

theorem LocalNewer.not_older (h : LocalNewer loc e now) : ¬ LocalOlder loc e now := by
  rintro (hlt | ⟨heq, hlive, hrem⟩)
  · rcases h with h | ⟨heq, -, -⟩
    · exact UInt32.lt_asymm hlt h
    · rw [heq] at hlt
      exact UInt32.lt_irrefl _ hlt
  · rcases h with h | ⟨-, hl, -⟩
    · rw [heq] at h
      exact UInt32.lt_irrefl _ h
    · exact hlive hl

theorem Differs.not_older (h : Differs loc e now) : ¬ LocalOlder loc e now := by
  rintro (hlt | ⟨-, -, hrem⟩)
  · rw [h.1] at hlt
    exact UInt32.lt_irrefl _ hlt
  · exact h.2.2.1 hrem

/-! ## The flags of a circuit, key by key -/

/-- SRM and SSN of an LSP at a level. -/
def Circuit.flags (c : Circuit) (k : LspKey) : Option Int × Bool :=
  (c.srmAt k.1 k.2, c.ssnAt k.1 k.2)

/-- `c` has flag maps at `level` and differs from `c₀` in SRM and SSN flags only. -/
structure FlagsOnly (c₀ : Circuit) (level : Level) (c : Circuit) : Prop where
  srm : (c.srm level).isSome = true
  ssn : (c.ssn level).isSome = true
  rest : { c with srm := c₀.srm, ssn := c₀.ssn } = c₀

section Flags

variable {t : Int}

theorem FlagsOnly.refl (hsrm : (c.srm level).isSome = true) (hssn : (c.ssn level).isSome = true) :
    FlagsOnly c level c :=
  ⟨hsrm, hssn, rfl⟩

theorem FlagsOnly.setSRM (h : FlagsOnly c₀ level c) : FlagsOnly c₀ level (c.setSRM level id t) :=
  ⟨by rw [srm_isSome_setSRM]; exact h.srm, h.ssn, h.rest⟩

theorem FlagsOnly.clearSRM (h : FlagsOnly c₀ level c) : FlagsOnly c₀ level (c.clearSRM level id) :=
  ⟨by rw [srm_isSome_clearSRM]; exact h.srm, h.ssn, h.rest⟩

theorem FlagsOnly.setSSN (h : FlagsOnly c₀ level c) : FlagsOnly c₀ level (c.setSSN level id) :=
  ⟨h.srm, by unfold Circuit.setSSN; rw [onLevel_isSome]; exact h.ssn, h.rest⟩

theorem flags_setSRM (h : FlagsOnly c₀ level c) : (c.setSRM level id t).flags k =
    if k = (level, id) then (some t, (c.flags k).2) else c.flags k := by
  obtain ⟨l, i⟩ := k
  simp only [flags, srmAt_setSRM, ssnAt_setSRM, h.srm, and_true, Prod.mk.injEq]
  split <;> rfl

theorem flags_clearSRM : (c.clearSRM level id).flags k =
    if k = (level, id) then (none, (c.flags k).2) else c.flags k := by
  obtain ⟨l, i⟩ := k
  simp only [flags, srmAt_clearSRM, ssnAt_clearSRM, Prod.mk.injEq]
  split <;> rfl

theorem flags_setSSN (h : FlagsOnly c₀ level c) : (c.setSSN level id).flags k =
    if k = (level, id) then ((c.flags k).1, true) else c.flags k := by
  obtain ⟨l, i⟩ := k
  simp only [flags, srmAt_setSSN, ssnAt_setSSN, h.ssn, and_true, Prod.mk.injEq]
  by_cases hk : l = level ∧ i = id <;> simp [hk]

end Flags

/-- What one listed entry of a CSNP does to the flags of its LSP. -/
def csnpFlags (db : LSPID → Option LspEntry) (now : Int) (e : LSPEntry) (v : Option Int × Bool) :
    Option Int × Bool :=
  match db e.lspID with
  | none => (v.1, true)
  | some loc =>
    if LocalOlder loc e now then (v.1, true)
    else if SentBack loc e now then (some now, v.2)
    else (none, v.2)

/-- What one held LSP does when the CSNP leaves it out. -/
def omittedFlags (csnp : CSNP) (now : Int) (id : LSPID) (v : Option Int × Bool) :
    Option Int × Bool :=
  if !((listedEntries csnp.tlvs).any (·.lspID = id)) && inRange id csnp.startLSP csnp.endLSP then
    (some now, v.2)
  else v

/-- What one listed entry of a PSNP does to the flags of its LSP at the DIS. -/
def psnpFlags (db : LSPID → Option LspEntry) (now : Int) (e : LSPEntry) (v : Option Int × Bool) :
    Option Int × Bool :=
  match db e.lspID with
  | none => v
  | some loc =>
    if SentBack loc e now then (some now, v.2) else v

section Loops

variable {db : LSPID → Option LspEntry}

theorem csnpListed_keeps (e : LSPEntry) (h : FlagsOnly c₀ level c) :
    FlagsOnly c₀ level (csnpListed db level now c e) := by
  unfold csnpListed
  split
  · exact h.setSSN
  split
  · exact h.setSSN
  split
  · exact h.setSRM
  split
  · exact h.setSRM
  · exact h.clearSRM

/-- The flags after one listed entry, whatever LSP they are read for. -/
theorem flags_csnpListed (e : LSPEntry) (k : LspKey) (h : FlagsOnly c₀ level c) :
    (csnpListed db level now c e).flags k =
      if k = (level, e.lspID) then csnpFlags db now e (c.flags k) else c.flags k := by
  unfold csnpListed csnpFlags
  cases hdb : db e.lspID with
  | none => exact flags_setSSN h
  | some loc =>
    simp only
    by_cases hold : LocalOlder loc e now
    · rw [if_pos (newer_iff_localOlder.mpr hold), if_pos hold]
      exact flags_setSSN h
    rw [if_neg (fun hn => hold (newer_iff_localOlder.mp hn)), if_neg hold]
    by_cases hseq : e.sequenceNumber < loc.lsp.sequenceNumber
    · rw [if_pos hseq, if_pos (show SentBack loc e now from .inl hseq)]
      exact flags_setSRM h
    rw [if_neg hseq]
    by_cases hdiff : Differs loc e now
    · rw [if_pos (show SentBack loc e now from .inr hdiff)]
      unfold Differs at hdiff
      rw [if_pos hdiff]
      exact flags_setSRM h
    · rw [if_neg (show ¬ SentBack loc e now from not_or.mpr ⟨hseq, hdiff⟩)]
      unfold Differs at hdiff
      rw [if_neg hdiff]
      exact flags_clearSRM

theorem csnpListed_loop (db : LSPID → Option LspEntry) (c₀ : Circuit) (level : Level) (now : Int) :
    KeyedLoop (csnpListed db level now) (fun e => (level, e.lspID))
    flags (csnpFlags db now) (FlagsOnly c₀ level) where
  keeps _ e h := csnpListed_keeps e h
  self _ e h := by rw [flags_csnpListed e _ h, if_pos rfl]
  other _ e k h hk := by rw [flags_csnpListed e _ h, if_neg hk]

/-- The second loop of `processCSNP`, over the IDs the database holds. -/
theorem omitted_loop (csnp : CSNP) (c₀ : Circuit) (now : Int) : KeyedLoop
    (fun c id => if !((listedEntries csnp.tlvs).any (·.lspID = id)) &&
      inRange id csnp.startLSP csnp.endLSP then c.setSRM csnp.level id now else c)
    (fun id => (csnp.level, id)) flags (omittedFlags csnp now)
    (FlagsOnly c₀ csnp.level) where
  keeps c id h := by
    split
    · exact h.setSRM
    · exact h
  self c id h := by
    simp only [omittedFlags]
    split
    · rw [flags_setSRM h, if_pos rfl]
    · rfl
  other c id k h hk := by
    split
    · rw [flags_setSRM h, if_neg hk]
    · rfl

/-- On a LAN a PSNP only ever sets SRM. -/
theorem psnpListed_lan (e : LSPEntry) (hlan : c.cfg.p2p = false) : psnpListed db level now c e =
      match db e.lspID with
      | none => c
      | some loc =>
        if SentBack loc e now then
          c.setSRM level e.lspID now
        else c := by
  unfold psnpListed SentBack Differs
  rw [hlan]
  rfl

theorem psnpListed_loop (db : LSPID → Option LspEntry) (c₀ : Circuit) (level : Level) (now : Int) :
    KeyedLoop (psnpListed db level now) (fun e => (level, e.lspID))
    flags (psnpFlags db now) (fun c => c.cfg.p2p = false ∧ FlagsOnly c₀ level c) where
  keeps c e h := by
    rw [psnpListed_lan e h.1]
    split
    · exact h
    · split
      · exact ⟨h.1, h.2.setSRM⟩
      · exact h
  self c e h := by
    rw [psnpListed_lan e h.1]
    unfold psnpFlags
    split
    · rfl
    · split
      · rw [flags_setSRM h.2, if_pos rfl]
      · rfl
  other c e k h hk := by
    rw [psnpListed_lan e h.1]
    split
    · rfl
    split
    · rw [flags_setSRM h.2, if_neg hk]
    · rfl

end Loops

/-! ## What reconciliation should do -/

/-- The changes a CSNP makes in one order: `c` and `c'` are the circuit before and after, in a
server that goes from `s` to `s'`. -/
structure CsnpReconciles (s s' : IsisServer) (cn : String) (c c' : Circuit) (db : LSDB)
    (csnp : CSNP) (now : Int) : Prop where
  /-- A listed copy we lack or hold an older one of is requested. -/
  request : ∀ e ∈ listedEntries csnp.tlvs,
    (∀ loc, db.lookup e.lspID = some loc → LocalOlder loc e now) →
    c'.ssnAt csnp.level e.lspID = true
  /-- A copy strictly newer than the listed one, or in conflict with it, is scheduled. -/
  send : ∀ e ∈ listedEntries csnp.tlvs, ∀ loc, db.lookup e.lspID = some loc →
    LocalNewer loc e now ∨ Differs loc e now → (c'.srmAt csnp.level e.lspID).isSome = true
  /-- Only an equivalent listed copy clears SRM. -/
  cleared : ∀ id, (c.srmAt csnp.level id).isSome = true → c'.srmAt csnp.level id = none →
    ∃ e ∈ listedEntries csnp.tlvs, e.lspID = id ∧ ∃ loc, db.lookup id = some loc ∧
      Equivalent loc e now
  /-- A copy the CSNP leaves out of its range is scheduled. -/
  omitted : ∀ id, (db.lookup id).isSome = true → (∀ e ∈ listedEntries csnp.tlvs, e.lspID ≠ id) →
    inRange id csnp.startLSP csnp.endLSP = true → (c'.srmAt csnp.level id).isSome = true
  /-- SSN changes nowhere else. -/
  ssn_only : ∀ l id, c'.ssnAt l id ≠ c.ssnAt l id → l = csnp.level ∧
    ∃ e ∈ listedEntries csnp.tlvs, e.lspID = id ∧ ∀ loc, db.lookup id = some loc →
      LocalOlder loc e now
  /-- SRM changes nowhere else. -/
  srm_only : ∀ l id, c'.srmAt l id ≠ c.srmAt l id → l = csnp.level ∧
    ((∃ e ∈ listedEntries csnp.tlvs, e.lspID = id ∧
        ∃ loc, db.lookup id = some loc ∧ ¬ LocalOlder loc e now) ∨
      ((db.lookup id).isSome = true ∧ inRange id csnp.startLSP csnp.endLSP = true ∧
        ∀ e ∈ listedEntries csnp.tlvs, e.lspID ≠ id))
  /-- Nothing else of the circuit, no other circuit and no entry changes. -/
  rest : { c' with srm := c.srm, ssn := c.ssn } = c
  others : ∀ n, n ≠ cn → s'.circuitNamed n = s.circuitNamed n
  entries : ∀ l id, s'.entryAt l id = s.entryAt l id

/-- The changes a PSNP makes at the DIS in the same order; sequence number 0 stands for a copy the
sender lacks. -/
structure PsnpReconciles (s s' : IsisServer) (cn : String) (c c' : Circuit) (db : LSDB)
    (psnp : PSNP) (now : Int) : Prop where
  send : ∀ e ∈ listedEntries psnp.tlvs, ∀ loc, db.lookup e.lspID = some loc →
    e.sequenceNumber = 0 ∨ LocalNewer loc e now ∨ Differs loc e now →
    (c'.srmAt psnp.level e.lspID).isSome = true
  ssn_only : ∀ l id, c'.ssnAt l id = c.ssnAt l id
  srm_only : ∀ l id, c'.srmAt l id ≠ c.srmAt l id → l = psnp.level ∧
    ∃ e ∈ listedEntries psnp.tlvs, e.lspID = id ∧ ∃ loc, db.lookup id = some loc ∧
      (LocalNewer loc e now ∨ Differs loc e now)
  rest : { c' with srm := c.srm, ssn := c.ssn } = c
  others : ∀ n, n ≠ cn → s'.circuitNamed n = s.circuitNamed n
  entries : ∀ l id, s'.entryAt l id = s.entryAt l id

/-! ## The flags after a CSNP -/

section Csnp

variable {csnp : CSNP}

theorem csnpCircuit_flagsOnly (h : FlagsOnly c csnp.level c) :
    FlagsOnly c csnp.level (csnpCircuit db csnp now c) :=
  (omitted_loop csnp c now).keeps_foldl ((csnpListed_loop db.lookup c csnp.level now).keeps_foldl h)

theorem nodup_levelled {es : List LSPEntry} (level : Level) (h : (es.map (·.lspID)).Nodup) :
    (es.map fun e => ((level, e.lspID) : LspKey)).Nodup := by
  have hinj : Function.Injective fun id : LSPID => ((level, id) : LspKey) :=
    fun a b hab => (Prod.mk.inj hab).2
  simpa [List.map_map, Function.comp_def] using h.map hinj

/-- The circuit between the two loops of `processCSNP`. -/
def afterListed (db : LSDB) (csnp : CSNP) (now : Int) (c : Circuit) : Circuit :=
  (listedEntries csnp.tlvs).foldl (csnpListed db.lookup csnp.level now) c

theorem afterListed_flagsOnly (h : FlagsOnly c csnp.level c) :
    FlagsOnly c csnp.level (afterListed db csnp now c) :=
  (csnpListed_loop db.lookup c csnp.level now).keeps_foldl h

/-- The second loop, seen from one LSP of the CSNP's level. -/
theorem flags_csnpCircuit (h : FlagsOnly c csnp.level c) (id : LSPID) :
    (csnpCircuit db csnp now c).flags (csnp.level, id) =
      if (db.lookup id).isSome then
        omittedFlags csnp now id ((afterListed db csnp now c).flags (csnp.level, id))
      else (afterListed db csnp now c).flags (csnp.level, id) := by
  have hinv : FlagsOnly c csnp.level (afterListed db csnp now c) := afterListed_flagsOnly h
  have hinj : Function.Injective fun i : LSPID => ((csnp.level, i) : LspKey) :=
    fun a b hab => (Prod.mk.inj hab).2
  by_cases hheld : (db.lookup id).isSome = true
  · rw [if_pos hheld]
    exact (omitted_loop csnp c now).read_of_mem hinv (db.keys_nodup.map hinj)
      (AList.lookup_isSome.mp hheld)
  · rw [if_neg hheld]
    refine (omitted_loop csnp c now).read_of_forall_ne hinv fun i hi heq => hheld ?_
    rw [← hinj heq]
    exact AList.lookup_isSome.mpr hi

/-- A listed LSP: only its own entry counts. -/
theorem flags_listed (db : LSDB) (now : Int) (h : FlagsOnly c csnp.level c)
    (hnodup : ((listedEntries csnp.tlvs).map (·.lspID)).Nodup) (he : e ∈ listedEntries csnp.tlvs) :
    (csnpCircuit db csnp now c).flags (csnp.level, e.lspID) =
      csnpFlags db.lookup now e (c.flags (csnp.level, e.lspID)) := by
  have hfirst : (afterListed db csnp now c).flags (csnp.level, e.lspID) =
      csnpFlags db.lookup now e (c.flags (csnp.level, e.lspID)) :=
    (csnpListed_loop db.lookup c csnp.level now).read_of_mem h (nodup_levelled csnp.level hnodup) he
  have hlisted : (listedEntries csnp.tlvs).any (fun x => decide (x.lspID = e.lspID)) = true :=
    List.any_eq_true.mpr ⟨e, he, by simp⟩
  rw [flags_csnpCircuit h, hfirst]
  split
  · simp [omittedFlags, hlisted]
  · rfl

/-- An LSP the CSNP does not list: it is scheduled if we hold it and the range covers it. -/
theorem flags_unlisted (db : LSDB) (now : Int) (h : FlagsOnly c csnp.level c)
    (hid : ∀ e ∈ listedEntries csnp.tlvs, e.lspID ≠ id) :
    (csnpCircuit db csnp now c).flags (csnp.level, id) =
      if (db.lookup id).isSome ∧ inRange id csnp.startLSP csnp.endLSP then
        (some now, (c.flags (csnp.level, id)).2)
      else c.flags (csnp.level, id) := by
  have hfirst : (afterListed db csnp now c).flags (csnp.level, id) = c.flags (csnp.level, id) :=
    (csnpListed_loop db.lookup c csnp.level now).read_of_forall_ne h
      fun e he heq => hid e he (Prod.mk.inj heq).2
  have hunlisted : (listedEntries csnp.tlvs).any (fun x => decide (x.lspID = id)) = false := by
    rw [List.any_eq_false]
    intro e he
    simpa using hid e he
  rw [flags_csnpCircuit h, hfirst]
  by_cases hheld : (db.lookup id).isSome = true
  · rw [if_pos hheld]
    simp only [omittedFlags, hunlisted, hheld, true_and, Bool.not_false, Bool.true_and]
  · rw [if_neg hheld, if_neg (fun hc => hheld hc.1)]

/-- The flags of the other level stay. -/
theorem flags_other_level (db : LSDB) (now : Int) (h : FlagsOnly c csnp.level c) {l : Level}
    (hl : l ≠ csnp.level) (id : LSPID) :
    (csnpCircuit db csnp now c).flags (l, id) = c.flags (l, id) := by
  have hsecond : (csnpCircuit db csnp now c).flags (l, id) =
      (afterListed db csnp now c).flags (l, id) :=
    (omitted_loop csnp c now).read_of_forall_ne (afterListed_flagsOnly h)
      fun _ _ heq => hl (Prod.mk.inj heq).1.symm
  rw [hsecond]
  exact (csnpListed_loop db.lookup c csnp.level now).read_of_forall_ne h
    fun _ _ heq => hl (Prod.mk.inj heq).1.symm

/-- No purge of ours meets a live listed copy at the same sequence number. -/
def CsnpInOrder (db : LSDB) (csnp : CSNP) (now : Int) : Prop :=
  ∀ e ∈ listedEntries csnp.tlvs, ∀ loc, db.lookup e.lspID = some loc → ¬ PurgeMeetsLive loc e now

/-- Either the LSP is requested, or we hold a copy that is not older and SRM is decided. -/
theorem csnpFlags_cases (f : LSPID → Option LspEntry) (now : Int) (e : LSPEntry)
    (v : Option Int × Bool) :
    ((∀ loc, f e.lspID = some loc → LocalOlder loc e now) ∧ csnpFlags f now e v = (v.1, true)) ∨
      ∃ loc, f e.lspID = some loc ∧ ¬ LocalOlder loc e now ∧ csnpFlags f now e v =
          (if SentBack loc e now then some now else none, v.2) := by
  unfold csnpFlags
  cases hloc : f e.lspID with
  | none => exact .inl ⟨fun loc h => absurd h (by simp), rfl⟩
  | some loc =>
    by_cases hold : LocalOlder loc e now
    · left
      refine ⟨fun loc' h => ?_, if_pos hold⟩
      cases h
      exact hold
    · right
      refine ⟨loc, rfl, hold, ?_⟩
      simp only [if_neg hold]
      split <;> rfl

/-- A copy that is not older, and whose SRM the code clears, is equivalent to the listed one or a
purge of ours against a live copy. -/
theorem equivalent_or_purgeMeetsLive (hold : ¬ LocalOlder loc e now)
    (hsend : ¬ SentBack loc e now) : Equivalent loc e now ∨ PurgeMeetsLive loc e now := by
  rcases copies_compare loc e now with h | h | h | h
  · exact absurd h hold
  · rcases h with h | h
    · exact absurd (.inl h) hsend
    · exact .inr h
  · exact absurd (.inr h) hsend
  · exact .inl h

theorem not_send_of_purgeMeetsLive (h : PurgeMeetsLive loc e now) : ¬ SentBack loc e now := by
  rintro (hlt | hdiff)
  · rw [h.1] at hlt
    exact UInt32.lt_irrefl _ hlt
  · exact hdiff.2.1 h.2.1

theorem listed_or_not (es : List LSPEntry) (id : LSPID) :
    (∃ e ∈ es, e.lspID = id) ∨ ∀ e ∈ es, e.lspID ≠ id := by
  by_cases h : ∃ e ∈ es, e.lspID = id
  · exact .inl h
  · exact .inr fun e he heq => h ⟨e, he, heq⟩

/-- In order, `processCSNP` reconciles. -/
theorem csnpReconciles_of_inOrder (h : FlagsOnly c csnp.level c)
    (hnodup : ((listedEntries csnp.tlvs).map (·.lspID)).Nodup)
    (hothers : ∀ n, n ≠ cn → s'.circuitNamed n = s.circuitNamed n)
    (hentries : ∀ l id, s'.entryAt l id = s.entryAt l id) (hok : CsnpInOrder db csnp now) :
    CsnpReconciles s s' cn c (csnpCircuit db csnp now c) db csnp now where
  request e he hold := by
    have hflags : _ = _ := congrArg Prod.snd (flags_listed db now h hnodup he)
    rcases csnpFlags_cases db.lookup now e (c.flags (csnp.level, e.lspID)) with
      ⟨-, heq⟩ | ⟨loc, hloc, hnot, -⟩
    · rw [heq] at hflags
      exact hflags
    · exact absurd (hold loc hloc) hnot
  send e he loc hloc hnew := by
    have hflags : _ = _ := congrArg Prod.fst (flags_listed db now h hnodup he)
    have hsend : SentBack loc e now := by
      rcases hnew with (hlt | hpurge) | hdiff
      · exact .inl hlt
      · exact absurd hpurge (hok e he loc hloc)
      · exact .inr hdiff
    have hnot : ¬ LocalOlder loc e now := by
      rcases hnew with hnewer | hdiff
      · exact hnewer.not_older
      · exact hdiff.not_older
    rcases csnpFlags_cases db.lookup now e (c.flags (csnp.level, e.lspID)) with
      ⟨hall, -⟩ | ⟨loc', hloc', -, heq⟩
    · exact absurd (hall loc hloc) hnot
    rw [hloc] at hloc'
    cases hloc'
    rw [heq, if_pos hsend] at hflags
    show (Prod.fst (flags _ (csnp.level, e.lspID))).isSome = true
    rw [hflags]
    rfl
  cleared id hbefore hafter := by
    have hafter' : ((csnpCircuit db csnp now c).flags (csnp.level, id)).1 = none := hafter
    rcases listed_or_not (listedEntries csnp.tlvs) id with ⟨e, he, rfl⟩ | hno
    · rw [flags_listed db now h hnodup he] at hafter'
      rcases csnpFlags_cases db.lookup now e (c.flags (csnp.level, e.lspID)) with
        ⟨-, heq⟩ | ⟨loc, hloc, hnot, heq⟩
      · rw [heq] at hafter'
        have hnone : c.srmAt csnp.level e.lspID = none := hafter'
        rw [hnone] at hbefore
        cases hbefore
      · rw [heq] at hafter'
        by_cases hsend : SentBack loc e now
        · rw [if_pos hsend] at hafter'
          cases hafter'
        · rcases equivalent_or_purgeMeetsLive hnot hsend with heqv | hpurge
          · exact ⟨e, he, rfl, loc, hloc, heqv⟩
          · exact absurd hpurge (hok e he loc hloc)
    · rw [flags_unlisted db now h hno] at hafter'
      split at hafter'
      · cases hafter'
      · have hnone : c.srmAt csnp.level id = none := hafter'
        rw [hnone] at hbefore
        cases hbefore
  omitted id hheld hno hrange := by
    have hflags := flags_unlisted db now h hno
    rw [if_pos ⟨hheld, hrange⟩] at hflags
    show (Prod.fst (flags _ (csnp.level, id))).isSome = true
    rw [hflags]
    rfl
  ssn_only l id hne := by
    by_cases hl : l = csnp.level
    · subst hl
      refine ⟨rfl, ?_⟩
      rcases listed_or_not (listedEntries csnp.tlvs) id with ⟨e, he, rfl⟩ | hno
      · have hflags : _ = _ := congrArg Prod.snd (flags_listed db now h hnodup he)
        rcases csnpFlags_cases db.lookup now e (c.flags (csnp.level, e.lspID)) with
          ⟨hall, -⟩ | ⟨_, -, -, heq⟩
        · exact ⟨e, he, rfl, hall⟩
        · rw [heq] at hflags
          exact absurd hflags hne
      · have hflags : _ = _ := congrArg Prod.snd (flags_unlisted db now h hno)
        split at hflags <;> exact absurd hflags hne
    · exact absurd (congrArg Prod.snd (flags_other_level db now h hl id)) hne
  srm_only l id hne := by
    by_cases hl : l = csnp.level
    · subst hl
      refine ⟨rfl, ?_⟩
      rcases listed_or_not (listedEntries csnp.tlvs) id with ⟨e, he, rfl⟩ | hno
      · have hflags : _ = _ := congrArg Prod.fst (flags_listed db now h hnodup he)
        rcases csnpFlags_cases db.lookup now e (c.flags (csnp.level, e.lspID)) with
          ⟨-, heq⟩ | ⟨loc, hloc, hnot, -⟩
        · rw [heq] at hflags
          exact absurd hflags hne
        · exact .inl ⟨e, he, rfl, loc, hloc, hnot⟩
      · have hflags : _ = _ := congrArg Prod.fst (flags_unlisted db now h hno)
        split at hflags
        · rename_i hc
          exact .inr ⟨hc.1, hc.2, hno⟩
        · exact absurd hflags hne
    · exact absurd (congrArg Prod.fst (flags_other_level db now h hl id)) hne
  rest := (csnpCircuit_flagsOnly h).rest
  others := hothers
  entries := hentries

/-- Out of order, it does not: the purge loses its SRM flag. -/
theorem inOrder_of_csnpReconciles (h : FlagsOnly c csnp.level c)
    (hnodup : ((listedEntries csnp.tlvs).map (·.lspID)).Nodup)
    (hrec : CsnpReconciles s s' cn c (csnpCircuit db csnp now c) db csnp now) :
    CsnpInOrder db csnp now := by
  intro e he loc hloc hpurge
  have hnewer : LocalNewer loc e now := .inr hpurge
  have hset : ((csnpCircuit db csnp now c).flags (csnp.level, e.lspID)).1.isSome = true :=
    hrec.send e he loc hloc (.inl hnewer)
  rw [flags_listed db now h hnodup he] at hset
  rcases csnpFlags_cases db.lookup now e (c.flags (csnp.level, e.lspID)) with
    ⟨hall, -⟩ | ⟨loc', hloc', -, heq⟩
  · exact hnewer.not_older (hall loc hloc)
  rw [hloc] at hloc'
  cases hloc'
  rw [heq, if_neg (not_send_of_purgeMeetsLive hpurge)] at hset
  cases hset

end Csnp

/-! ## The flags after a PSNP at the DIS -/

section Psnp

variable {psnp : PSNP}

/-- What the two comparisons miss has its SRM flag already: a purge of ours against a live listed
copy at the same sequence number, and a copy of ours at sequence number 0 that the sender lacks. -/
def PsnpInOrder (db : LSDB) (psnp : PSNP) (now : Int) (c : Circuit) : Prop :=
  ∀ e ∈ listedEntries psnp.tlvs, ∀ loc, db.lookup e.lspID = some loc → PurgeMeetsLive loc e now ∨
      (e.sequenceNumber = 0 ∧ loc.lsp.sequenceNumber = 0 ∧ ¬ Differs loc e now) →
    (c.srmAt psnp.level e.lspID).isSome = true

theorem flags_psnp_listed (db : LSDB) (now : Int) (hlan : c.cfg.p2p = false)
    (h : FlagsOnly c psnp.level c) (hnodup : ((listedEntries psnp.tlvs).map (·.lspID)).Nodup)
    (he : e ∈ listedEntries psnp.tlvs) :
    (psnpCircuit db psnp now c).flags (psnp.level, e.lspID) =
      psnpFlags db.lookup now e (c.flags (psnp.level, e.lspID)) :=
  (psnpListed_loop db.lookup c psnp.level now).read_of_mem ⟨hlan, h⟩
    (nodup_levelled psnp.level hnodup) he

theorem flags_psnp_unlisted (db : LSDB) (now : Int) (hlan : c.cfg.p2p = false)
    (h : FlagsOnly c psnp.level c) (hk : ∀ e ∈ listedEntries psnp.tlvs, (psnp.level, e.lspID) ≠ k) :
    (psnpCircuit db psnp now c).flags k = c.flags k :=
  (psnpListed_loop db.lookup c psnp.level now).read_of_forall_ne ⟨hlan, h⟩ hk

theorem psnpFlags_of_held {f : LSPID → Option LspEntry} {v : Option Int × Bool}
    (hloc : f e.lspID = some loc) :
    psnpFlags f now e v =
      if SentBack loc e now then (some now, v.2)
      else v := by
  unfold psnpFlags
  rw [hloc]

/-- SSN stays and SRM changes only where the comparison of the code says so. -/
theorem psnpFlags_cases (f : LSPID → Option LspEntry) (now : Int) (e : LSPEntry)
    (v : Option Int × Bool) :
    psnpFlags f now e v = v ∨ (psnpFlags f now e v = (some now, v.2) ∧ ∃ loc, f e.lspID = some loc ∧
        SentBack loc e now) := by
  unfold psnpFlags
  cases hloc : f e.lspID with
  | none => exact .inl rfl
  | some loc =>
    by_cases hsend : SentBack loc e now
    · exact .inr ⟨if_pos hsend, loc, rfl, hsend⟩
    · exact .inl (if_neg hsend)

theorem psnpReconciles_of_inOrder (hlan : c.cfg.p2p = false) (h : FlagsOnly c psnp.level c)
    (hnodup : ((listedEntries psnp.tlvs).map (·.lspID)).Nodup)
    (hothers : ∀ n, n ≠ cn → s'.circuitNamed n = s.circuitNamed n)
    (hentries : ∀ l id, s'.entryAt l id = s.entryAt l id) (hok : PsnpInOrder db psnp now c) :
    PsnpReconciles s s' cn c (psnpCircuit db psnp now c) db psnp now where
  send e he loc hloc hnew := by
    show ((psnpCircuit db psnp now c).flags (psnp.level, e.lspID)).1.isSome = true
    rw [flags_psnp_listed db now hlan h hnodup he, psnpFlags_of_held hloc]
    by_cases hsend : SentBack loc e now
    · rw [if_pos hsend]
      rfl
    rw [if_neg hsend]
    refine hok e he loc hloc ?_
    rcases hnew with hzero | (hlt | hpurge) | hdiff
    · right
      refine ⟨hzero, ?_, fun hdiff => hsend (.inr hdiff)⟩
      by_contra hne
      refine hsend (.inl ?_)
      rw [hzero, UInt32.lt_iff_toNat_lt]
      have hpos : loc.lsp.sequenceNumber.toNat ≠ 0 := fun h0 => hne (UInt32.toNat_inj.mp h0)
      rw [UInt32.toNat_zero]
      omega
    · exact absurd (.inl hlt) hsend
    · exact .inl hpurge
    · exact absurd (.inr hdiff) hsend
  ssn_only l id := by
    show ((psnpCircuit db psnp now c).flags (l, id)).2 = (c.flags (l, id)).2
    by_cases hlisted : ∃ e ∈ listedEntries psnp.tlvs, (psnp.level, e.lspID) = (l, id)
    · obtain ⟨e, he, hk⟩ := hlisted
      rw [← hk, flags_psnp_listed db now hlan h hnodup he]
      rcases psnpFlags_cases db.lookup now e (c.flags (psnp.level, e.lspID)) with heq | ⟨heq, -⟩
      · rw [heq]
      · rw [heq]
    · rw [flags_psnp_unlisted db now hlan h fun e he heq => hlisted ⟨e, he, heq⟩]
  srm_only l id hne := by
    have hne' : ((psnpCircuit db psnp now c).flags (l, id)).1 ≠ (c.flags (l, id)).1 := hne
    by_cases hlisted : ∃ e ∈ listedEntries psnp.tlvs, (psnp.level, e.lspID) = (l, id)
    · obtain ⟨e, he, hk⟩ := hlisted
      obtain ⟨rfl, rfl⟩ := Prod.mk.inj hk
      rw [flags_psnp_listed db now hlan h hnodup he] at hne'
      rcases psnpFlags_cases db.lookup now e (c.flags (psnp.level, e.lspID)) with
        heq | ⟨-, loc, hloc, hsend⟩
      · rw [heq] at hne'
        exact absurd rfl hne'
      · exact ⟨rfl, e, he, rfl, loc, hloc, hsend.imp_left Or.inl⟩
    · rw [flags_psnp_unlisted db now hlan h fun e he heq => hlisted ⟨e, he, heq⟩] at hne'
      exact absurd rfl hne'
  rest := ((psnpListed_loop db.lookup c psnp.level now).keeps_foldl ⟨hlan, h⟩).2.rest
  others := hothers
  entries := hentries

theorem inOrder_of_psnpReconciles (hlan : c.cfg.p2p = false) (h : FlagsOnly c psnp.level c)
    (hnodup : ((listedEntries psnp.tlvs).map (·.lspID)).Nodup)
    (hrec : PsnpReconciles s s' cn c (psnpCircuit db psnp now c) db psnp now) :
    PsnpInOrder db psnp now c := by
  intro e he loc hloc hmissed
  have hkeep : ¬ SentBack loc e now := by
    rcases hmissed with hpurge | ⟨hzero, hloc0, hdiff⟩
    · exact not_send_of_purgeMeetsLive hpurge
    rintro (hlt | hd)
    · rw [hzero, hloc0] at hlt
      exact UInt32.lt_irrefl _ hlt
    · exact hdiff hd
  have hset : ((psnpCircuit db psnp now c).flags (psnp.level, e.lspID)).1.isSome = true := by
    refine hrec.send e he loc hloc ?_
    rcases hmissed with hpurge | ⟨hzero, -, -⟩
    · exact .inr (.inl (.inr hpurge))
    · exact .inl hzero
  rw [flags_psnp_listed db now hlan h hnodup he, psnpFlags_of_held hloc, if_neg hkeep] at hset
  exact hset

end Psnp

/-- **When SNP reconciliation follows the order**: `processCSNP` on a broadcast circuit, and
`processPSNP` at its DIS, do what the order asks exactly when no purge of ours meets a live listed
copy at the same sequence number (and, for a PSNP, no copy of ours at sequence number 0 is
requested), unless, for a PSNP, SRM is set already. -/
theorem snp_reconciles_iff {s : IsisServer} {cn : String} {c : Circuit} {level : Level} {db : LSDB}
    {now : Int} (hc : s.circuitNamed cn = some c) (hlan : c.cfg.p2p = false)
    (hsrm : (c.srm level).isSome = true) (hssn : (c.ssn level).isSome = true)
    (hdb : s.dbs level = some db) :
    (∀ csnp : CSNP, csnp.level = level → ((listedEntries csnp.tlvs).map (·.lspID)).Nodup →
      ∃ c', (s.processCSNP cn csnp now).circuitNamed cn = some c' ∧
        (CsnpReconciles s (s.processCSNP cn csnp now) cn c c' db csnp now ↔
          CsnpInOrder db csnp now)) ∧
    (c.isDIS level s.systemID = true →
      ∀ psnp : PSNP, psnp.level = level → ((listedEntries psnp.tlvs).map (·.lspID)).Nodup →
      ∃ c', (s.processPSNP cn psnp now).circuitNamed cn = some c' ∧
        (PsnpReconciles s (s.processPSNP cn psnp now) cn c c' db psnp now ↔
          PsnpInOrder db psnp now c)) := by
  have hflags : FlagsOnly c level c := .refl hsrm hssn
  have hothers : ∀ f : Circuit → Circuit, (∀ c, (f c).cfg = c.cfg) → ∀ n, n ≠ cn →
      (s.onCircuit cn f).circuitNamed n = s.circuitNamed n := by
    intro f hf n hn
    rw [circuitNamed_onCircuit hf]
    simp [hn]
  have hself : ∀ f : Circuit → Circuit, (∀ c, (f c).cfg = c.cfg) →
      (s.onCircuit cn f).circuitNamed cn = some (f c) := by
    intro f hf
    rw [circuitNamed_onCircuit hf, hc]
    simp
  constructor
  · rintro csnp rfl hnodup
    have hproc : s.processCSNP cn csnp now = s.onCircuit cn (csnpCircuit db csnp now) := by
      simp [processCSNP, hdb]
    have hcfg := cfg_csnpCircuit db csnp now
    rw [hproc]
    refine ⟨_, hself _ hcfg, inOrder_of_csnpReconciles hflags hnodup, ?_⟩
    exact csnpReconciles_of_inOrder hflags hnodup (hothers _ hcfg) fun _ _ => rfl
  · rintro hdis psnp rfl hnodup
    have hproc : s.processPSNP cn psnp now = s.onCircuit cn (psnpCircuit db psnp now) := by
      simp [processPSNP, hc, hdb, hdis]
    have hcfg := cfg_psnpCircuit db psnp now
    rw [hproc]
    refine ⟨_, hself _ hcfg, inOrder_of_psnpReconciles hlan hflags hnodup, ?_⟩
    exact psnpReconciles_of_inOrder hlan hflags hnodup (hothers _ hcfg) fun _ _ => rfl

/-! ### A purge on a LAN -/

/-- The DIS of a LAN that holds a purge of a neighbour's LSP at sequence number 5, not yet sent. -/
def purgedID : LSPID := ⟨⟨octets6 0 0 0 0 0 2, 0⟩, 0⟩

def heldPurge : LspEntry where
  lsp := { level := .level1, remainingTime := 0, lspID := purgedID, sequenceNumber := 5,
           checksum := 0x23bf, isType := 0, tlvs := [.unknown 13 [1, 0, 0, 0, 0, 0, 1]] }
  raw := [131, 27, 1, 0, 18, 1, 0, 0, 0, 36, 0, 0, 0, 0, 0, 0, 0, 2, 0, 0, 0, 0, 0, 5, 0x23,
    0xbf, 0, 13, 7, 1, 0, 0, 0, 0, 0, 1]
  inserted := 0
  lifetime := 0
  own := false
  purgedAt := some 0
  refreshAt := 0

def lanCircuit : Circuit :=
  { newCircuit (ethernet "lan0" false 10) 1 1 with
    dis := fun _ => ⟨octets6 0 0 0 0 0 1, 1⟩ }

/-- The server, with SRM set or clear for the purge on its LAN. -/
def lanServer (flagged : Bool) : IsisServer :=
  { IsisServer.blank ⟨fun _ _ _ => [], octets6 0 0 0 0 0 1, [], {}, {}, 0, 0, none⟩ with
    circuits := [if flagged then lanCircuit.setSRM .level1 purgedID 0 else lanCircuit]
    dbs := fun
      | .level1 => some (AList.insert purgedID heldPurge ∅)
      | .level2 => none }

/-- Another station of the LAN, with the same purge. -/
def lanStation : IsisServer := { lanServer true with systemID := octets6 0 0 0 0 0 4 }

/-- A CSNP from a neighbour that lists one entry. -/
def csnpOf (e : LSPEntry) : CSNP :=
  ⟨.level1, ⟨octets6 0 0 0 0 0 3, 0⟩, firstLSPID, lastLSPID, [.lspEntries [e]]⟩

/-- A PSNP from a neighbour that lists one entry. -/
def psnpOf (e : LSPEntry) : PSNP := ⟨.level1, ⟨octets6 0 0 0 0 0 3, 0⟩, [.lspEntries [e]]⟩

/-- A CSNP with the same purge, at a station that is not the DIS, and a PSNP that asks with an older
copy, at the DIS, are reconciled with in order. -/
theorem snp_reconciles_purge :
    lanCircuit.isDIS .level1 lanStation.systemID = false ∧
    (∃ c', (lanStation.processCSNP "lan0" (csnpOf ⟨0, purgedID, 5, 0⟩) 1).circuitNamed "lan0" =
        some c' ∧
      CsnpReconciles lanStation (lanStation.processCSNP "lan0" (csnpOf ⟨0, purgedID, 5, 0⟩) 1)
        "lan0" (lanCircuit.setSRM .level1 purgedID 0) c' (AList.insert purgedID heldPurge ∅)
        (csnpOf ⟨0, purgedID, 5, 0⟩) 1) ∧
      ∃ c', ((lanServer true).processPSNP "lan0" (psnpOf ⟨900, purgedID, 4, 0x77⟩) 1).circuitNamed
          "lan0" = some c' ∧
        PsnpReconciles (lanServer true)
          ((lanServer true).processPSNP "lan0" (psnpOf ⟨900, purgedID, 4, 0x77⟩) 1) "lan0"
          (lanCircuit.setSRM .level1 purgedID 0) c' (AList.insert purgedID heldPurge ∅)
          (psnpOf ⟨900, purgedID, 4, 0x77⟩) 1 := by
  obtain ⟨c', hc', hcsnp⟩ := (@snp_reconciles_iff lanStation "lan0"
    (lanCircuit.setSRM .level1 purgedID 0) .level1 (AList.insert purgedID heldPurge ∅) 1
    rfl rfl rfl rfl rfl).1 (csnpOf ⟨0, purgedID, 5, 0⟩) rfl (by decide)
  obtain ⟨c'', hc'', hpsnp⟩ := (@snp_reconciles_iff (lanServer true) "lan0"
    (lanCircuit.setSRM .level1 purgedID 0) .level1 (AList.insert purgedID heldPurge ∅) 1
    rfl rfl rfl rfl rfl).2 (by decide) (psnpOf ⟨900, purgedID, 4, 0x77⟩) rfl (by decide)
  refine ⟨by decide, ⟨c', hc', hcsnp.mpr ?_⟩, c'', hc'', hpsnp.mpr ?_⟩
  · intro e he loc _ hpurge
    have he' : e = ⟨0, purgedID, 5, 0⟩ := by simpa [csnpOf, listedEntries] using he
    subst he'
    exact hpurge.2.2 rfl
  · intro e he loc hloc _
    have he' : e = ⟨900, purgedID, 4, 0x77⟩ := by simpa [psnpOf, listedEntries] using he
    subst he'
    decide

/-- **A held purge is not scheduled towards a neighbour that lists a live copy at the same sequence
number**: a CSNP even takes its SRM flag away, and a PSNP request leaves it clear. -/
theorem purge_meets_live_loses_srm :
    (¬ ∃ c', ((lanServer true).processCSNP "lan0" (csnpOf ⟨900, purgedID, 5, 0x77⟩) 1).circuitNamed
        "lan0" = some c' ∧
      CsnpReconciles (lanServer true)
        ((lanServer true).processCSNP "lan0" (csnpOf ⟨900, purgedID, 5, 0x77⟩) 1) "lan0"
        (lanCircuit.setSRM .level1 purgedID 0) c' (AList.insert purgedID heldPurge ∅)
        (csnpOf ⟨900, purgedID, 5, 0x77⟩) 1) ∧
      ¬ ∃ c', ((lanServer false).processPSNP "lan0"
          (psnpOf ⟨900, purgedID, 5, 0x77⟩) 1).circuitNamed "lan0" = some c' ∧
        PsnpReconciles (lanServer false)
          ((lanServer false).processPSNP "lan0" (psnpOf ⟨900, purgedID, 5, 0x77⟩) 1) "lan0"
          lanCircuit c' (AList.insert purgedID heldPurge ∅)
          (psnpOf ⟨900, purgedID, 5, 0x77⟩) 1 := by
  have hnewer : LocalNewer heldPurge ⟨900, purgedID, 5, 0x77⟩ 1 := .inr (by decide)
  constructor
  · rintro ⟨c', hc', h⟩
    have hset := h.send ⟨900, purgedID, 5, 0x77⟩ (by decide) heldPurge (by decide) (.inl hnewer)
    have hclear : (((lanServer true).processCSNP "lan0"
        (csnpOf ⟨900, purgedID, 5, 0x77⟩) 1).circuitNamed "lan0").bind
          (fun c => c.srmAt .level1 purgedID) = none := by decide
    rw [hc'] at hclear
    have hnone : c'.srmAt (csnpOf ⟨900, purgedID, 5, 0x77⟩).level purgedID = none := hclear
    rw [hnone] at hset
    cases hset
  · rintro ⟨c', hc', h⟩
    have hset :=
      h.send ⟨900, purgedID, 5, 0x77⟩ (by decide) heldPurge (by decide) (.inr (.inl hnewer))
    have hclear : (((lanServer false).processPSNP "lan0"
        (psnpOf ⟨900, purgedID, 5, 0x77⟩) 1).circuitNamed "lan0").bind
          (fun c => c.srmAt .level1 purgedID) = none := by decide
    rw [hc'] at hclear
    have hnone : c'.srmAt (psnpOf ⟨900, purgedID, 5, 0x77⟩).level purgedID = none := hclear
    rw [hnone] at hset
    cases hset

end Goisis.Server
